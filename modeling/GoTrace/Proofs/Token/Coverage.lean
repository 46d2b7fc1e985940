import GoTrace.Proofs.Source.Whitespace
import GoTrace.Proofs.Token.Spelling

/-!
# The text that tokens and comments cover

The comments and tokens of a text, errors among them, follow each other in it with nothing but
whitespace in front of, between and behind them. `Pieced` is this relation between a text and the
stretches that belong to comments and tokens. It is kept by each call of the lexer
(`Lexer.Scans.pieced`), so it holds of all tokens of a text, and `tokens_cover_text` says with bytes
what it comes to.

Unlike `Spells`, which knows of written tokens only, it asks for no text without errors, and it says
where the tokens stand that take no characters.
-/

namespace GoTrace

open String (utf8Len)

/-- The text of a token. An error does not say which text it is about. -/
def TokenKind.text? : TokenKind → Option String
  | error _ => none
  | kind => some kind.spelling

theorem TokenKind.text?_of_noError {kind : TokenKind} (h : ∀ message, kind ≠ .error message) :
    kind.text? = some kind.spelling := by
  cases kind with
  | error message => exact absurd rfl (h message)
  | _ => rfl

/-- The spans of the comments in front of a token, and that of the token. -/
def Token.spans (t : Token) : List Span := t.comments.map (·.span) ++ [t.span]

/-- The comments in front of a token and the token, each with its span and with its text, if that is
known. -/
def Token.pieces (t : Token) : List (Span × Option String) :=
  t.comments.map (fun c => (c.span, some c.text)) ++ [(t.span, t.kind.text?)]

/-- From behind the characters `front` on, the text is made of the pieces in order, and of
whitespace. -/
inductive Pieced (text : List Char) : (front : List Char) → List (Span × Option String) → Prop
  /-- Nothing but whitespace is left. -/
  | done {front w : List Char} (htext : text = front ++ w) (hspace : ∀ c ∈ w, Gap.isSpace c) :
      Pieced text front []
  /-- Whitespace, and behind it a piece `m`. -/
  | piece {front w m rest : List Char} {span : Span} {text? : Option String}
      {ps : List (Span × Option String)} (htext : text = front ++ w ++ m ++ rest)
      (hspace : ∀ c ∈ w, Gap.isSpace c) (hstart : span.start.toNat = utf8Len (front ++ w))
      (hstop : span.stop.toNat = utf8Len (front ++ w ++ m)) (hm : ∀ s ∈ text?, s.toList = m)
      (next : Pieced text (front ++ w ++ m) ps) : Pieced text front ((span, text?) :: ps)

/-! ## One token -/

namespace Lexer

variable {text front front' rest : List Char} {offset : Nat} {due : Bool} {t : Token} {l : Lexer}

/-- **A token and its comments are the next pieces of the text.** -/
theorem Scans.pieced {ps : List (Span × Option String)} (h : Scans due rest offset t l)
    (hstands : Stands text front (reading rest offset due)) (hsize : utf8Len text ≤ maxOffset)
    (hstands' : Stands text front' l) (hrest : Pieced text front' ps) :
    Pieced text front (t.pieces ++ ps) := by
  induction h generalizing front with
  | @token rest w m tail offset n kind hfront hlexeme hm =>
    obtain rfl := (hfront.stands_behind hlexeme hstands).unique hstands'
    have hcut := hfront.cut hstands hsize
    refine .piece hcut.text_eq hcut.space hcut.start_eq hcut.stop_eq (fun s hs => ?_) hrest
    have herror : ∀ message, kind ≠ .error message := by
      rintro message rfl
      cases hs
    rw [TokenKind.text?_of_noError herror] at hs
    obtain rfl : kind.spelling = s := Option.some.inj hs
    rw [Lexeme.spelling_of_ofChars hlexeme herror, hm, String.toList_ofList]
  | @comment rest w m tail offset n kind t l hfront hlexeme hm next ih =>
    have hcut := hfront.cut hstands hsize
    refine .piece hcut.text_eq hcut.space hcut.start_eq hcut.stop_eq ?_
      (ih (hfront.stands hstands due) hstands')
    rintro _ ⟨⟩
    exact String.toList_ofList

/-- **The tokens to come are pieces of the text**, with their comments. -/
theorem pieced_tokens (hstands : Stands text front l) (hsize : utf8Len text ≤ maxOffset) :
    Pieced text front (l.tokens.flatMap Token.pieces) := by
  induction htokens : l.tokens generalizing front l with
  | nil => exact .done (by rw [hstands.text_eq htokens, List.append_nil]) (by simp)
  | cons t ts ih =>
    obtain ⟨_, _, _, l', hreading, hscans, rfl⟩ := hstands.exists_scans htokens
    obtain ⟨front', hstands', -⟩ := hscans.stands hreading hsize
    rw [List.flatMap_cons]
    exact hscans.pieced hreading hsize hstands' (ih hstands' rfl)

end Lexer

/-! ## What the pieces cover -/

section

variable {text front : List Char} {ps : List (Span × Option String)}

/-- The pieces lie behind the characters in front, and each in the text. -/
theorem Pieced.bounds (h : Pieced text front ps) :
    utf8Len front ≤ utf8Len text ∧ ∀ p ∈ ps, utf8Len front ≤ p.1.start.toNat ∧
      p.1.start.toNat ≤ p.1.stop.toNat ∧ p.1.stop.toNat ≤ utf8Len text := by
  induction h with
  | done htext _ =>
    rw [htext, String.utf8Len_append]
    exact ⟨Nat.le_add_right _ _, by simp⟩
  | piece htext _ hstart hstop _ next ih =>
    obtain ⟨hle, hall⟩ := ih
    simp only [String.utf8Len_append] at hle hall hstart hstop
    refine ⟨by omega, List.forall_mem_cons.2 ⟨by dsimp only; omega, fun p hp => ?_⟩⟩
    have := hall p hp
    omega

/-- Pieces do not overlap, and they stand in order. -/
theorem Pieced.pairwise (h : Pieced text front ps) :
    ps.Pairwise fun p q => p.1.stop ≤ q.1.start := by
  induction h with
  | done _ _ => exact .nil
  | piece _ _ _ hstop _ next ih =>
    refine .cons (fun q hq => ?_) ih
    have := (next.bounds.2 q hq).1
    rwa [← hstop] at this

end

section

variable {text : String} {front : List Char} {ps : List (Span × Option String)}

/-- A piece is the slice of the text at its span, and its text is that slice. -/
theorem Pieced.slice? (h : Pieced text.toList front ps) : ∀ p ∈ ps,
    ∃ found, (LineTable.ofString text).slice? p.1 = some found ∧ ∀ s ∈ p.2, s = found := by
  induction h with
  | done _ _ => simp
  | @piece front w m rest span text? ps htext _ hstart hstop hm next ih =>
    refine List.forall_mem_cons.2 ⟨⟨String.ofList m, ?_, fun s hs => ?_⟩, ih⟩
    · refine LineTable.slice?_eq_some_iff.2 ⟨front ++ w, rest, ?_, hstart.symm, ?_⟩
      · rw [String.toList_ofList]
        exact htext
      · rw [String.toList_ofList, ← String.utf8Len_append]
        exact hstop.symm
    · rw [← String.toList_inj, String.toList_ofList, hm s hs]

/-- Every byte of the text that lies in no piece is whitespace. -/
theorem Pieced.space_of_outside (h : Pieced text.toList front ps) {i : Nat}
    (hfront : utf8Len front ≤ i) (hi : i < text.utf8ByteSize)
    (hout : ∀ p ∈ ps, ¬(p.1.start.toNat ≤ i ∧ i < p.1.stop.toNat)) :
    ∃ h : i < text.toByteArray.size, text.toByteArray[i] ∈ spaceBytes := by
  rw [utf8ByteSize_eq] at hi
  induction h with
  | @done front w htext hspace =>
    have htext' : text.toList = front ++ w ++ [] := by rw [List.append_nil, htext]
    exact space_of_blank htext' hspace hfront (htext ▸ hi)
  | @piece front w m rest span text? ps htext hspace hstart hstop _ next ih =>
    by_cases hw : i < utf8Len (front ++ w)
    · rw [List.append_assoc _ m] at htext
      exact space_of_blank htext hspace hfront hw
    · refine ih ?_ fun p hp => hout p (List.mem_cons_of_mem _ hp)
      have hnot : ¬(span.start.toNat ≤ i ∧ i < span.stop.toNat) := hout _ List.mem_cons_self
      rw [hstart, hstop] at hnot
      omega

end

/-! ## Texts -/

/-- The pieces of a text that is not too long. -/
theorem pieced_of_size {text : String} (hsize : text.utf8ByteSize ≤ maxOffset) :
    Pieced text.toList [] ((tokens text).flatMap Token.pieces) := by
  have hstands := Lexer.stands_ofString hsize
  rw [utf8ByteSize_eq] at hsize
  exact Lexer.pieced_tokens hstands hsize

/-- The spans of tokens and their comments are those of their pieces. -/
theorem spans_eq_map_pieces (ts : List Token) :
    ts.flatMap Token.spans = (ts.flatMap Token.pieces).map Prod.fst := by
  rw [List.map_flatMap]
  congr 1
  funext t
  simp [Token.spans, Token.pieces, Function.comp_def]

/-- The end of a text that is not too long stands at its end. -/
theorem stop_of_eof {text : String} (hsize : text.utf8ByteSize ≤ maxOffset) {t : Token}
    (ht : t ∈ tokens text) (heof : t.kind = .eof) : t.span.stop.toNat = text.utf8ByteSize := by
  obtain ⟨before, after, htokens⟩ := List.append_of_mem ht
  have hstands := Lexer.stands_ofString hsize
  rw [utf8ByteSize_eq] at hsize ⊢
  exact (Lexer.last_of_eof hstands hsize htokens heof).2

/-- The ends of a slice lie between characters, or at an end of the text. -/
theorem isValid_of_slice? {text m : String} {span : Span}
    (h : (LineTable.ofString text).slice? span = some m) :
    span.start ≤ span.stop ∧ String.Pos.Raw.IsValid text ⟨span.start.toNat⟩ ∧
      String.Pos.Raw.IsValid text ⟨span.stop.toNat⟩ := by
  obtain ⟨a, b, htext, hstart, hstop⟩ := LineTable.slice?_eq_some_iff.1 h
  refine ⟨?_, ?_, ?_⟩
  · rw [Offset.le_def]
    omega
  · rw [← String.Pos.Raw.isValid_eq_true_iff, isValid_iff_cut]
    exact ⟨a, m.toList ++ b, by rw [← List.append_assoc]; exact htext, hstart⟩
  · rw [← String.Pos.Raw.isValid_eq_true_iff, isValid_iff_cut]
    exact ⟨a ++ m.toList, b, htext, by rw [String.utf8Len_append, hstop]⟩

/-- A comment or token of a text with a known text is the slice at its span. -/
theorem slice?_of_mem_pieces {text s : String} (hsize : text.utf8ByteSize ≤ maxOffset) {t : Token}
    (ht : t ∈ tokens text) {p : Span × Option String} (hp : p ∈ t.pieces) (hs : s ∈ p.2) :
    (LineTable.ofString text).slice? p.1 = some s := by
  obtain ⟨found, hfound, htext⟩ :=
    (pieced_of_size hsize).slice? p (List.mem_flatMap.2 ⟨t, ht, hp⟩)
  rw [hfound, htext s hs]

/-- A token of a text that is no error is the slice at its span. -/
theorem slice?_of_mem_tokens {text : String} (hsize : text.utf8ByteSize ≤ maxOffset) {t : Token}
    (ht : t ∈ tokens text) (herror : ∀ message, t.kind ≠ .error message) :
    (LineTable.ofString text).slice? t.span = some t.kind.spelling := by
  refine slice?_of_mem_pieces hsize ht (p := (t.span, t.kind.text?)) (by simp [Token.pieces]) ?_
  exact TokenKind.text?_of_noError herror

/-- An implicit semicolon and the end of a text take no bytes. -/
theorem start_eq_stop_of_mem_tokens {text : String} (hsize : text.utf8ByteSize ≤ maxOffset)
    {t : Token} (ht : t ∈ tokens text) (hwritten : t.kind.isWritten = false) :
    t.span.start = t.span.stop := by
  have herror : ∀ message, t.kind ≠ .error message := by
    intro message hkind
    rw [hkind] at hwritten
    cases hwritten
  obtain ⟨a, b, -, hstart, hstop⟩ :=
    LineTable.slice?_eq_some_iff.1 (slice?_of_mem_tokens hsize ht herror)
  rw [TokenKind.spelling_of_not_isWritten hwritten] at hstop
  ext
  rw [← hstart, ← hstop]
  rfl

/-- **The tokens of a text cover it.** In a text that is not too long, the comments and tokens,
errors among them, stand in order and without overlap, with their ends between characters; each
comment, and each token that is no error, is the slice of the text at its span; an implicit
semicolon and the end take no bytes, and the end stands at the end of the text; and every byte in
none of them is whitespace. -/
theorem tokens_cover_text {text : String} (hsize : text.utf8ByteSize ≤ maxOffset) :
    ((tokens text).flatMap Token.spans).Pairwise (·.stop ≤ ·.start) ∧
      (∀ span ∈ (tokens text).flatMap Token.spans, span.start ≤ span.stop ∧
        String.Pos.Raw.IsValid text ⟨span.start.toNat⟩ ∧
        String.Pos.Raw.IsValid text ⟨span.stop.toNat⟩) ∧
      (∀ t ∈ tokens text,
        (∀ c ∈ t.comments, (LineTable.ofString text).slice? c.span = some c.text) ∧
        ((∀ message, t.kind ≠ .error message) →
          (LineTable.ofString text).slice? t.span = some t.kind.spelling) ∧
        (t.kind.isWritten = false → t.span.start = t.span.stop) ∧
        (t.kind = .eof → t.span.start.toNat = text.utf8ByteSize)) ∧
      ∀ i < text.utf8ByteSize,
        (∀ span ∈ (tokens text).flatMap Token.spans,
          ¬(span.start.toNat ≤ i ∧ i < span.stop.toNat)) →
        ∃ h : i < text.toByteArray.size, text.toByteArray[i] ∈ spaceBytes := by
  have hpieces := pieced_of_size hsize
  rw [spans_eq_map_pieces, List.pairwise_map]
  refine ⟨hpieces.pairwise, ?_, fun t ht => ?_, fun i hi hout => ?_⟩
  · intro span hspan
    obtain ⟨p, hp, rfl⟩ := List.mem_map.1 hspan
    obtain ⟨found, hfound, -⟩ := hpieces.slice? p hp
    exact isValid_of_slice? hfound
  · have hempty := start_eq_stop_of_mem_tokens hsize ht
    refine ⟨fun c hc => ?_, slice?_of_mem_tokens hsize ht, hempty, fun heof => ?_⟩
    · refine slice?_of_mem_pieces hsize ht (p := (c.span, some c.text)) ?_ rfl
      exact List.mem_append_left _ (List.mem_map_of_mem (f := fun c => (c.span, some c.text)) hc)
    · rw [hempty (by rw [heof]; rfl)]
      exact stop_of_eof hsize ht heof
  · refine hpieces.space_of_outside (Nat.zero_le i) hi fun p hp => hout _ ?_
    exact List.mem_map_of_mem hp

/-- A text with returns in front of newlines, a comment over two lines behind a name, a character of
two bytes, and a literal that is not closed. -/
def openText : String := "a/*\n*/b // é\r\r\n\"open\r\n"

/-- The tokens of `openText`, an error among them, cover it. -/
theorem tokens_cover_openText :
    openText.utf8ByteSize ≤ maxOffset ∧
      (∃ t ∈ tokens openText, t.kind = .error LexError.stringNotTerminated.message) ∧
      ((tokens openText).flatMap Token.spans).Pairwise (·.stop ≤ ·.start) ∧
      ∀ i < openText.utf8ByteSize,
        (∀ span ∈ (tokens openText).flatMap Token.spans,
          ¬(span.start.toNat ≤ i ∧ i < span.stop.toNat)) →
        ∃ h : i < openText.toByteArray.size, openText.toByteArray[i] ∈ spaceBytes := by
  have hsize : openText.utf8ByteSize ≤ maxOffset := by decide +kernel
  have herror : (tokens openText).any
      (·.kind == .error LexError.stringNotTerminated.message) := by decide +kernel
  obtain ⟨t, ht, hkind⟩ := List.any_eq_true.1 herror
  obtain ⟨hpairwise, -, -, hspace⟩ := tokens_cover_text hsize
  exact ⟨hsize, ⟨t, ht, beq_iff_eq.1 hkind⟩, hpairwise, hspace⟩

end GoTrace
