import GoTrace.Proofs.Token.Scans
import GoTrace.Proofs.Token.Written

/-!
# How the tokens of a text stand in it

The written tokens of a text and the comments on them follow each other in it, with nothing but
whitespace in front of, between and behind them, and each stands where its span says. `Spells` is
this relation. It is kept along the lexer: `Lexer.Scans.spells` is the step for one token, and
`Lexer.spells_tokens` what a whole text comes to. An implicit semicolon takes no characters, so in
the text it is not seen.
-/

namespace GoTrace

open String (utf8Len)

/-- From behind the characters `front` on, the text is made of the comments and the words in some
order, each list in its own, and of whitespace. -/
inductive Spells (text : List Char) :
    (front : List Char) → (comments : List Comment) → (words : List (Offset × String)) → Prop
  /-- Nothing but whitespace is left. -/
  | done {front w : List Char} (htext : text = front ++ w) (hspace : ∀ c ∈ w, Gap.isSpace c) :
      Spells text front [] []
  /-- Whitespace, and behind it a comment. -/
  | comment {front w rest : List Char} {c : Comment} {comments : List Comment}
      {words : List (Offset × String)} (htext : text = front ++ w ++ c.text.toList ++ rest)
      (hspace : ∀ c ∈ w, Gap.isSpace c)
      (hfirst : ∃ ch ∈ c.text.toList.head?, Gap.isSpace ch = false)
      (hstart : c.span.start.toNat = utf8Len (front ++ w))
      (hstop : c.span.stop.toNat = utf8Len (front ++ w ++ c.text.toList))
      (next : Spells text (front ++ w ++ c.text.toList) comments words) :
      Spells text front (c :: comments) words
  /-- Whitespace, and behind it a word. -/
  | word {front w rest : List Char} {place : Offset} {word : String} {comments : List Comment}
      {words : List (Offset × String)} (htext : text = front ++ w ++ word.toList ++ rest)
      (hspace : ∀ c ∈ w, Gap.isSpace c)
      (hfirst : ∃ ch ∈ word.toList.head?, Gap.isSpace ch = false)
      (hplace : place.toNat = utf8Len (front ++ w))
      (next : Spells text (front ++ w ++ word.toList) comments words) :
      Spells text front comments ((place, word) :: words)

/-- Whitespace in front is put to that of what is next. -/
theorem Spells.space {text front w : List Char} {comments : List Comment}
    {words : List (Offset × String)} (h : Spells text (front ++ w) comments words)
    (hw : ∀ c ∈ w, Gap.isSpace c) : Spells text front comments words := by
  have hspace : ∀ {v : List Char}, (∀ c ∈ v, Gap.isSpace c) → ∀ c ∈ w ++ v, Gap.isSpace c := by
    intro v hv c hc
    exact (List.mem_append.1 hc).elim (hw c) (hv c)
  cases h with
  | done htext hv => exact .done (by rw [htext, List.append_assoc]) (hspace hv)
  | comment htext hv hfirst hstart hstop next =>
    rw [List.append_assoc front] at htext hstart hstop next
    exact .comment htext (hspace hv) hfirst hstart hstop next
  | word htext hv hfirst hplace next =>
    rw [List.append_assoc front] at htext hplace next
    exact .word htext (hspace hv) hfirst hplace next

/-- Characters that do not begin with whitespace have a byte. -/
theorem utf8Len_pos_of_first {x : List Char} (h : ∃ c ∈ x.head?, Gap.isSpace c = false) :
    0 < utf8Len x := by
  obtain ⟨c, hc, -⟩ := h
  obtain ⟨cs, rfl⟩ := List.head?_eq_some_iff.1 hc
  rw [String.utf8Len_cons]
  exact Nat.add_pos_right _ c.utf8Size_pos

/-- Comments and words stand behind the characters in front. -/
theorem Spells.bounds {text front : List Char} {comments : List Comment}
    {words : List (Offset × String)} (h : Spells text front comments words) :
    (∀ c ∈ comments, utf8Len front ≤ c.span.start.toNat) ∧
      ∀ word ∈ words, utf8Len front ≤ word.1.toNat := by
  induction h with
  | done _ _ => simp
  | comment _ _ _ hstart _ _ ih =>
    simp only [String.utf8Len_append] at ih hstart
    refine ⟨List.forall_mem_cons.2 ⟨by omega, fun c hc => ?_⟩, fun word hword => ?_⟩
    · have := ih.1 c hc
      omega
    · have := ih.2 word hword
      omega
  | word _ _ _ hplace _ ih =>
    simp only [String.utf8Len_append] at ih hplace
    refine ⟨fun c hc => ?_, List.forall_mem_cons.2 ⟨by dsimp only; omega, fun word hword => ?_⟩⟩
    · have := ih.1 c hc
      omega
    · have := ih.2 word hword
      omega

/-- The characters in front are those that the text begins with. -/
theorem Spells.text_eq {text front : List Char} {comments : List Comment}
    {words : List (Offset × String)} (h : Spells text front comments words) :
    ∃ rest, text = front ++ rest := by
  cases h with
  | done htext _ => exact ⟨_, htext⟩
  | comment htext _ _ _ _ _ | word htext _ _ _ _ =>
    rw [List.append_assoc, List.append_assoc] at htext
    exact ⟨_, htext⟩

/-- The words stand in order. -/
theorem Spells.ordered {text front : List Char} {comments : List Comment}
    {words : List (Offset × String)} (h : Spells text front comments words) :
    words.Pairwise (·.1 < ·.1) := by
  induction h with
  | done _ _ => exact .nil
  | comment _ _ _ _ _ _ ih => exact ih
  | word _ _ hfirst hplace next ih =>
    refine .cons (fun word hword => ?_) ih
    have hpos := utf8Len_pos_of_first hfirst
    have hle := next.bounds.2 word hword
    rw [String.utf8Len_append] at hle
    rw [Offset.lt_def]
    dsimp only
    omega

/-- Each word has a byte. -/
theorem Spells.nonempty {text front : List Char} {comments : List Comment}
    {words : List (Offset × String)} (h : Spells text front comments words) :
    ∀ word ∈ words, 0 < word.2.utf8ByteSize := by
  induction h with
  | done _ _ => simp
  | comment _ _ _ _ _ _ ih => exact ih
  | word _ _ hfirst _ _ ih =>
    refine List.forall_mem_cons.2 ⟨?_, ih⟩
    rw [utf8ByteSize_eq]
    exact utf8Len_pos_of_first hfirst

/-- The comments stand in order, and none begins in another. -/
theorem Spells.comments_ordered {text front : List Char} {comments : List Comment}
    {words : List (Offset × String)} (h : Spells text front comments words) :
    comments.Pairwise (·.span.stop ≤ ·.span.start) := by
  induction h with
  | done _ _ => exact .nil
  | comment _ _ _ _ hstop next ih =>
    refine .cons (fun c hc => ?_) ih
    rw [Offset.le_def, hstop]
    exact next.bounds.1 c hc
  | word _ _ _ _ _ ih => exact ih

/-- Each comment is the slice of the text at its span. -/
theorem Spells.comments_slice? {text : String} {front : List Char} {comments : List Comment}
    {words : List (Offset × String)} (h : Spells text.toList front comments words) :
    ∀ c ∈ comments, (LineTable.ofString text).slice? c.span = some c.text := by
  induction h with
  | done _ _ => simp
  | @comment front w rest c _ _ htext _ _ hstart hstop _ ih =>
    refine List.forall_mem_cons.2 ⟨?_, ih⟩
    refine LineTable.slice?_eq_some_iff.2 ⟨front ++ w, rest, htext, hstart.symm, ?_⟩
    rw [← String.utf8Len_append, hstop]
  | word _ _ _ _ _ ih => exact ih

/-- Whitespace in front of what does not begin with whitespace is all of that in front of it. -/
theorem exists_space_append {text front v w x rest rest' : List Char}
    (htext : text = front ++ v ++ x ++ rest) (hfirst : ∃ c ∈ x.head?, Gap.isSpace c = false)
    (htext' : text = front ++ w ++ rest') (hw : ∀ c ∈ w, Gap.isSpace c) :
    ∃ e, v = w ++ e ∧ rest' = e ++ x ++ rest := by
  rw [htext', List.append_assoc, List.append_assoc, List.append_assoc,
    List.append_cancel_left_eq] at htext
  rcases List.append_eq_append_iff.1 htext with ⟨e, rfl, rfl⟩ | ⟨e, rfl, he⟩
  · exact ⟨e, rfl, by simp⟩
  · cases e with
    | nil => exact ⟨[], by simp, by simpa using he.symm⟩
    | cons c e =>
      -- the first character behind would be whitespace
      obtain ⟨d, hd, hspace⟩ := hfirst
      obtain ⟨x', rfl⟩ := List.head?_eq_some_iff.1 hd
      obtain ⟨rfl, -⟩ := List.cons.inj he
      rw [hw d (by simp)] at hspace
      cases hspace

/-- Whitespace in front may be passed over. -/
theorem Spells.skip {text front w rest : List Char} {comments : List Comment}
    {words : List (Offset × String)} (h : Spells text front comments words)
    (htext : text = front ++ w ++ rest) (hw : ∀ c ∈ w, Gap.isSpace c) :
    Spells text (front ++ w) comments words := by
  cases h with
  | @done _ v htext' hv =>
    refine .done htext fun c hc => hv c ?_
    rw [htext', List.append_assoc, List.append_cancel_left_eq] at htext
    rw [htext]
    exact List.mem_append_right _ hc
  | comment htext' hv hfirst hstart hstop next =>
    obtain ⟨e, rfl, -⟩ := exists_space_append htext' hfirst htext hw
    rw [← List.append_assoc front] at htext' hstart hstop next
    exact .comment htext' (fun c hc => hv c (List.mem_append_right _ hc)) hfirst hstart hstop next
  | word htext' hv hfirst hplace next =>
    obtain ⟨e, rfl, -⟩ := exists_space_append htext' hfirst htext hw
    rw [← List.append_assoc front] at htext' hplace next
    exact .word htext' (fun c hc => hv c (List.mem_append_right _ hc)) hfirst hplace next

/-! ## Lexemes -/

/-- A keyword that is found spells the word under which it is found. -/
theorem Keyword.text_of_ofText? {word : String} {k : Keyword} (h : ofText? word = some k) :
    k.text = word := by
  have := List.find?_some h
  exact beq_iff_eq.1 this

namespace Lexeme

variable {cs : List Char} {kind : TokenKind} {n : Nat}

private theorem quoted_spelling {quote : Char} {litKind : LitKind} {fault : LexError}
    (h : quoted quote litKind fault cs = (token kind, n)) (herror : ∀ message, kind ≠ .error message) :
    kind.spelling = String.ofList (cs.take n) := by
  rw [quoted] at h
  split at h
  split at h <;> cases h
  · rfl
  · exact absurd rfl (herror _)

private theorem rawString_spelling (h : rawString cs = (token kind, n))
    (herror : ∀ message, kind ≠ .error message) : kind.spelling = String.ofList (cs.take n) := by
  rw [rawString] at h
  split at h <;> cases h
  · rfl
  · exact absurd rfl (herror _)

private theorem word_spelling (h : word cs = (token kind, n)) :
    kind.spelling = String.ofList (cs.take n) := by
  rw [word] at h
  cases hword : Keyword.ofText? (String.ofList (cs.takeWhile isIdentContinue)) <;>
    simp only [hword, Option.map_none, Option.map_some, Option.getD_none, Option.getD_some] at h <;>
    cases h
  · rw [take_length_takeWhile]
    rfl
  · rw [take_length_takeWhile]
    exact Keyword.text_of_ofText? hword

private theorem operator_spelling {c : Char} (h : operator c cs = (token kind, n))
    (herror : ∀ message, kind ≠ .error message) :
    kind.spelling = String.ofList ((c :: cs).take n) := by
  rw [operator] at h
  split at h <;> cases h
  · rename_i op hop
    have hprefix := List.find?_some hop
    rw [← List.prefix_iff_eq_take.1 (List.isPrefixOf_iff_prefix.1 hprefix), String.ofList_toList]
    rfl
  · exact absurd rfl (herror _)

private theorem blockComment_spelling {due : Bool} (h : blockComment due cs = (token kind, n))
    (herror : ∀ message, kind ≠ .error message) : kind.spelling = String.ofList (cs.take n) := by
  rw [blockComment] at h
  split at h
  · cases h
    exact absurd rfl (herror _)
  · split at h <;> cases h
    rfl

/-- The characters that belong to a token spell it. -/
theorem spelling_of_ofChars {due : Bool} (h : ofChars due cs = (token kind, n))
    (herror : ∀ message, kind ≠ .error message) : kind.spelling = String.ofList (cs.take n) := by
  cases cs with
  | nil =>
    rw [ofChars] at h
    cases due <;> cases h <;> rfl
  | cons c cs =>
    rw [ofChars] at h
    split at h
    · cases h
      rfl
    split at h
    · split at h <;> cases h
      rfl
    split at h
    · exact blockComment_spelling h herror
    split at h
    · cases h
      rename_i hc
      rw [hc]
      rfl
    split at h
    · exact quoted_spelling h herror
    split at h
    · exact rawString_spelling h herror
    split at h
    · exact quoted_spelling h herror
    split at h
    · exact word_spelling h
    split at h
    · rw [number] at h
      cases h
      rfl
    · exact operator_spelling h herror

/-- A token that is written takes a character. -/
theorem pos_of_isWritten {due : Bool} (h : ofChars due cs = (token kind, n))
    (hwritten : kind.isWritten) : 0 < n ∧ cs ≠ [] := by
  have hadvances := ofChars_advances due cs
  rw [h] at hadvances
  cases kind with
  | semicolon implicit =>
    cases implicit with
    | false => exact hadvances
    | true => cases hwritten
  | eof => cases hwritten
  | _ => exact hadvances

/-- Behind blanks, what is not an implicit semicolon begins with no whitespace. -/
theorem isSpace_of_ofChars {due : Bool} {c : Char} (hblank : isBlank due c = false)
    (h : (ofChars due (c :: cs)).1 ≠ token (.semicolon true)) : Gap.isSpace c = false := by
  have hnewline : ¬(due = true ∧ c = '\n') := by
    intro hc
    rw [ofChars, if_pos hc] at h
    exact h rfl
  cases due <;> simp_all [isBlank, Gap.isSpace]

end Lexeme

/-! ## Texts -/

namespace Lexer

variable {text front front' rest w m tail : List Char} {offset n : Nat} {due : Bool} {t : Token}
  {l : Lexer} {comments : List Comment} {ws : List (Offset × String)}

/-- What a token or comment behind blanks begins with is no whitespace. -/
theorem Front.first_of_ofChars {lexeme : Lexeme} (hfront : Front due rest w m tail)
    (h : Lexeme.ofChars due (m ++ tail) = (lexeme, n)) (hm : (m ++ tail).take n = m)
    (hlexeme : lexeme ≠ .token (.semicolon true)) (hn : 0 < n) (hchars : m ++ tail ≠ []) :
    ∃ c ∈ m.head?, Gap.isSpace c = false := by
  have hfirst := hfront.first
  obtain ⟨c, cs, hcs⟩ := List.exists_cons_of_ne_nil hchars
  rw [hcs] at h hm hfirst
  obtain ⟨k, rfl⟩ := Nat.exists_eq_succ_of_ne_zero hn.ne'
  have hne : (Lexeme.ofChars due (c :: cs)).1 ≠ .token (.semicolon true) := by rwa [h]
  exact ⟨c, by rw [← hm]; rfl, Lexeme.isSpace_of_ofChars (hfirst c rfl) hne⟩

/-- **A token stands in the text** behind its comments, if it is no error. -/
theorem Scans.spells (h : Scans due rest offset t l)
    (hstands : Stands text front (reading rest offset due)) (hsize : utf8Len text ≤ maxOffset)
    (herror : ∀ message, t.kind ≠ .error message) (hstands' : Stands text front' l)
    (hrest : Spells text front' comments ws) :
    Spells text front (t.comments ++ comments) (words [t] ++ ws) := by
  induction h generalizing front with
  | @token rest w m tail offset n kind hfront hlexeme hm =>
    obtain rfl := (hfront.stands_behind hlexeme hstands).unique hstands'
    have hcut := hfront.cut hstands hsize
    have hspelling : kind.spelling.toList = m := by
      rw [Lexeme.spelling_of_ofChars hlexeme herror, hm, String.toList_ofList]
    rw [words_singleton]
    split
    · rename_i hwritten
      have hn := Lexeme.pos_of_isWritten hlexeme hwritten
      have hkind : kind ≠ .semicolon true := by
        rintro rfl
        cases hwritten
      have hfirst := hfront.first_of_ofChars hlexeme hm (by simpa using hkind) hn.1 hn.2
      rw [← hspelling] at hcut hrest hfirst
      exact .word hcut.text_eq hcut.space hfirst hcut.start_eq hrest
    · rename_i hwritten
      rw [TokenKind.spelling_of_not_isWritten (Bool.eq_false_of_not_eq_true hwritten),
        String.toList_empty] at hspelling
      rw [← hspelling, List.append_nil] at hrest
      exact hrest.space hcut.space
  | @comment rest w m tail offset n kind t l hfront hlexeme hm next ih =>
    have hcut := hfront.cut hstands hsize
    have hn := pos_of_comment hlexeme
    have hfirst := hfront.first_of_ofChars hlexeme hm (by simp) hn.1 hn.2
    have hnext := ih (hfront.stands hstands due) herror hstands'
    rw [words_singleton] at hnext ⊢
    generalize Span.ofChars (offset + utf8Len w) m = span at hcut ⊢
    rw [← String.toList_ofList (l := m)] at hcut hfirst hnext
    exact .comment hcut.text_eq hcut.space hfirst hcut.start_eq hcut.stop_eq hnext

/-- **The tokens to come stand in the text**, if none is an error. -/
theorem spells_tokens (hstands : Stands text front l) (hsize : utf8Len text ≤ maxOffset)
    (herror : ∀ t ∈ l.tokens, ∀ message, t.kind ≠ .error message) :
    Spells text front (l.tokens.flatMap (·.comments)) (words l.tokens) := by
  induction htokens : l.tokens generalizing front l with
  | nil => exact .done (by rw [hstands.text_eq htokens, List.append_nil]) (by simp)
  | cons t ts ih =>
    rw [htokens] at herror
    obtain ⟨_, _, _, l', hreading, hscans, rfl⟩ := hstands.exists_scans htokens
    obtain ⟨front', hstands', -⟩ := hscans.stands hreading hsize
    have hrest := ih hstands' (fun t ht => herror t (List.mem_cons_of_mem _ ht)) rfl
    rw [List.flatMap_cons, ← List.singleton_append, words_append]
    exact hscans.spells hreading hsize (herror t List.mem_cons_self) hstands' hrest

end Lexer

/-- **The tokens of a text stand in it**, if none up to that for the end of the text is an error.
There is no token behind the end. -/
theorem spells_of_tokens {text : String} {ts us : List Token} {t : Token}
    (htokens : tokens text = ts ++ t :: us) (heof : t.kind = .eof)
    (herror : ∀ t ∈ ts, ∀ message, t.kind ≠ .error message) :
    us = [] ∧ t.span.stop.toNat = text.utf8ByteSize ∧
      Spells text.toList [] ((tokens text).flatMap (·.comments)) (words (tokens text)) := by
  have herror' : ∀ u ∈ ts ++ [t], ∀ message, u.kind ≠ .error message := by
    refine List.forall_mem_append.2 ⟨herror, List.forall_mem_singleton.2 fun message => ?_⟩
    rw [heof]
    exact TokenKind.noConfusion
  rw [tokens, Lexer.ofString] at htokens ⊢
  split at htokens
  · rename_i hsize
    have hstands : Lexer.Stands text.toList [] (.reading text.toList 0 false) := ⟨rfl, rfl⟩
    rw [utf8ByteSize_eq] at hsize ⊢
    obtain ⟨rfl, hstop⟩ := Lexer.last_of_eof hstands hsize htokens heof
    rw [if_pos hsize]
    exact ⟨rfl, hstop, Lexer.spells_tokens hstands hsize (by rwa [htokens])⟩
  · obtain ⟨u, vs, message, hrefused, hkind⟩ := Lexer.tokens_refused text.utf8ByteSize
    rw [hrefused] at htokens
    refine absurd hkind (herror' u ?_ message)
    cases ts with
    | nil => exact (List.cons.inj htokens).1 ▸ List.mem_cons_self
    | cons v ts => exact (List.cons.inj htokens).1 ▸ List.mem_cons_self

end GoTrace
