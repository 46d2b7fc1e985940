import GoTrace.Proofs.Token.Semicolons

/-!
# Lexemes of a text

Every comment and token of a text is a lexeme that stands there (`isLexed_of_mem_tokens`), so what is
proved of the lexemes that a text may begin with holds of the comments and tokens in any text.
The other way round, a character that is no whitespace lies in a comment or token; where it lies in
none that begins in front of it, a lexeme begins with it (`exists_lexed_of_outside`).
-/

namespace GoTrace

open String (utf8Len)

/-- Behind the characters `front` of a text there is a lexeme `m`, which covers `span`, and behind it
`tail`. -/
structure Lexed (text front m tail : List Char) (lexeme : Lexeme) (span : Span) : Prop where
  text_eq : text = front ++ m ++ tail
  start_eq : span.start.toNat = utf8Len front
  stop_eq : span.stop.toNat = utf8Len (front ++ m)
  found : ∃ due n, Lexeme.ofChars due (m ++ tail) = (lexeme, n) ∧ (m ++ tail).take n = m

/-- A token and the comments in front of it are lexemes of a text. -/
structure Token.IsLexed (text : List Char) (t : Token) : Prop where
  token : ∃ front m tail, Lexed text front m tail (.token t.kind) t.span
  comments : ∀ c ∈ t.comments, ∃ front m tail,
    Lexed text front m tail (.comment c.kind) c.span ∧ c.text.toList = m

/-- At the span of a comment or token, there is its lexeme. -/
theorem Token.IsLexed.exists_of_mem_spans {text : List Char} {t : Token} {span : Span}
    (h : t.IsLexed text) (hspan : span ∈ t.spans) :
    ∃ front m tail lexeme, Lexed text front m tail lexeme span ∧
      ((∃ c ∈ t.comments, lexeme = .comment c.kind ∧ c.span = span) ∨
        lexeme = .token t.kind ∧ t.span = span) := by
  rcases List.mem_append.1 hspan with hcomment | htoken
  · obtain ⟨c, hc, rfl⟩ := List.mem_map.1 hcomment
    obtain ⟨front, m, tail, hlexed, -⟩ := h.comments c hc
    exact ⟨front, m, tail, _, hlexed, .inl ⟨c, hc, rfl, rfl⟩⟩
  · obtain rfl := List.mem_singleton.1 htoken
    obtain ⟨front, m, tail, hlexed⟩ := h.token
    exact ⟨front, m, tail, _, hlexed, .inr ⟨rfl, rfl⟩⟩

namespace Lexer

variable {text front rest : List Char} {offset : Nat} {due : Bool} {t : Token} {l : Lexer}

/-- A token that is read next, and its comments, are lexemes of the text. -/
theorem Scans.isLexed (h : Scans due rest offset t l)
    (hstands : Stands text front (reading rest offset due)) (hsize : utf8Len text ≤ maxOffset) :
    t.IsLexed text := by
  induction h generalizing front with
  | @token rest w m tail offset n kind hfront hlexeme hm =>
    have hcut := hfront.cut hstands hsize
    exact ⟨⟨_, m, tail, hcut.text_eq, hcut.start_eq, hcut.stop_eq, due, n, hlexeme, hm⟩, by simp⟩
  | @comment rest w m tail offset n kind t l hfront hlexeme hm next ih =>
    have hcut := hfront.cut hstands hsize
    obtain ⟨htoken, hcomments⟩ := ih (hfront.stands hstands due)
    have hlexed : Lexed text (front ++ w) m tail (.comment kind)
        (.ofChars (offset + utf8Len w) m) :=
      ⟨hcut.text_eq, hcut.start_eq, hcut.stop_eq, due, n, hlexeme, hm⟩
    exact ⟨htoken, List.forall_mem_cons.2
      ⟨⟨_, m, tail, hlexed, String.toList_ofList⟩, hcomments⟩⟩

/-- The tokens to come are lexemes of the text, and so are their comments. -/
theorem isLexed_tokens (hstands : Stands text front l) (hsize : utf8Len text ≤ maxOffset) :
    ∀ t ∈ l.tokens, t.IsLexed text := by
  induction htokens : l.tokens generalizing front l with
  | nil => simp
  | cons t ts ih =>
    obtain ⟨_, _, _, l', hreading, hscans, rfl⟩ := hstands.exists_scans htokens
    obtain ⟨front', hstands', -⟩ := hscans.stands hreading hsize
    exact List.forall_mem_cons.2 ⟨hscans.isLexed hreading hsize, ih hstands' rfl⟩

/-- Where no text is left, there are no comments. -/
theorem Scans.comments_of_nil (h : Scans due [] offset t l) : t.comments = [] := by
  cases h with
  | token _ _ _ => rfl
  | comment hfront hlexeme _ _ =>
    obtain ⟨-, hnil⟩ := List.append_eq_nil_iff.1 (List.append_assoc .. ▸ hfront.rest_eq.symm)
    rw [hnil] at hlexeme
    cases hlexeme

/-- In a text that is too long there are no comments, and nothing but an error and the end, as nothing
of it is read. -/
theorem of_mem_refused {size : Nat} : ∀ t ∈ (refused size).tokens,
    t.comments = [] ∧ ((∃ message, t.kind = .error message) ∨ t.kind = .eof) := by
  obtain ⟨u, l, hscans, hrest⟩ := tokens_reading [] size false
  obtain ⟨rest, offset, rfl⟩ := hscans.behind
  rw [if_pos hscans.eof_of_nil, tokens_finished] at hrest
  rw [tokens]
  dsimp only [next?]
  rw [hrest]
  simp [hscans.comments_of_nil, hscans.eof_of_nil]

/-- A text that is too long has no comments. -/
theorem comments_of_refused {size : Nat} (t : Token) (ht : t ∈ (refused size).tokens) :
    t.comments = [] := (of_mem_refused t ht).1

end Lexer

/-- The tokens of a text and its comments are lexemes of it. -/
theorem isLexed_of_mem_tokens {text : String} (hsize : text.utf8ByteSize ≤ maxOffset) :
    ∀ t ∈ tokens text, t.IsLexed text.toList := by
  have hstands := Lexer.stands_ofString hsize
  rw [utf8ByteSize_eq] at hsize
  exact Lexer.isLexed_tokens hstands hsize

/-- A character that is no whitespace lies in a comment or token. -/
theorem Pieced.exists_of_not_space {text front a b : List Char} {c : Char}
    {ps : List (Span × Option String)} (h : Pieced text front ps) (htext : text = a ++ c :: b)
    (hc : Gap.isSpace c = false) (hfront : utf8Len front ≤ utf8Len a) :
    ∃ p ∈ ps, p.1.start.toNat ≤ utf8Len a ∧ utf8Len a < p.1.stop.toNat := by
  have hnot : ∀ {w : List Char}, (∀ d ∈ w, Gap.isSpace d) → c ∉ w := by
    intro w hspace hmem
    rw [hspace c hmem] at hc
    cases hc
  induction h with
  | @done front w htext' hspace =>
    have hcut : a ++ c :: b = front ++ w ++ [] := by rw [← htext, List.append_nil, htext']
    have hlt : utf8Len a < utf8Len (front ++ w) := by
      rw [← htext', htext, String.utf8Len_append, String.utf8Len_cons]
      have := c.utf8Size_pos
      omega
    exact absurd (mem_of_cut hcut hfront hlt) (hnot hspace)
  | @piece front w m rest span text? ps htext' hspace hstart hstop _ next ih =>
    have hcut : a ++ c :: b = front ++ w ++ (m ++ rest) := by
      rw [← htext, htext', List.append_assoc (front ++ w)]
    by_cases hw : utf8Len a < utf8Len (front ++ w)
    · exact absurd (mem_of_cut hcut hfront hw) (hnot hspace)
    by_cases hm : utf8Len a < utf8Len (front ++ w ++ m)
    · exact ⟨_, List.mem_cons_self, hstart ▸ Nat.le_of_not_lt hw, hstop ▸ hm⟩
    · obtain ⟨p, hp, hbounds⟩ := ih (Nat.le_of_not_lt hm)
      exact ⟨p, List.mem_cons_of_mem _ hp, hbounds⟩

/-- A character that is no whitespace begins a comment or token, if it lies in none that begins in front
of it. -/
theorem exists_lexed_of_outside {text : String} (hsize : text.utf8ByteSize ≤ maxOffset)
    {front rest : List Char} {c : Char} (htext : text.toList = front ++ c :: rest)
    (hc : Gap.isSpace c = false)
    (hout : ∀ span ∈ (tokens text).flatMap Token.spans,
      ¬(span.start.toNat < utf8Len front ∧ utf8Len front < span.stop.toNat)) :
    ∃ t ∈ tokens text, ∃ m tail lexeme span, Lexed text.toList front m tail lexeme span ∧
      m ++ tail = c :: rest ∧ m ≠ [] ∧
      ((∃ c ∈ t.comments, lexeme = .comment c.kind ∧ c.span = span) ∨
        lexeme = .token t.kind ∧ t.span = span) := by
  obtain ⟨p, hp, hstart, hstop⟩ :=
    (pieced_of_size hsize).exists_of_not_space htext hc (Nat.zero_le _)
  have hspan : p.1 ∈ (tokens text).flatMap Token.spans := by
    rw [spans_eq_map_pieces]
    exact List.mem_map_of_mem hp
  have heq : p.1.start.toNat = utf8Len front :=
    Nat.le_antisymm hstart (Nat.le_of_not_lt fun hlt => hout _ hspan ⟨hlt, hstop⟩)
  obtain ⟨t, ht, hmem⟩ := List.mem_flatMap.1 hspan
  obtain ⟨front', m, tail, lexeme, hlexed, hwhich⟩ :=
    (isLexed_of_mem_tokens hsize t ht).exists_of_mem_spans hmem
  have hcut : front ++ c :: rest = front' ++ (m ++ tail) := by
    rw [← htext, hlexed.text_eq, List.append_assoc]
  obtain ⟨rfl, hrest⟩ := cut_unique hcut (heq.symm.trans hlexed.start_eq)
  refine ⟨t, ht, m, tail, lexeme, p.1, hlexed, hrest.symm, ?_, hwhich⟩
  rintro rfl
  rw [hlexed.stop_eq, List.append_nil] at hstop
  exact Nat.lt_irrefl _ hstop

end GoTrace
