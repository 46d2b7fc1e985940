import GoTrace.Proofs.Token.Lexed

/-!
# The sequence of tokens

A lexer gives out a finite sequence of tokens and then nothing more (`Lexer.next?_after`). For the
tokens of a text that is not too long, `sequence_of_tokens` says how long the sequence is and which
tokens of no width stand in it: the end is the last and no other, and no implicit semicolon follows
another. The bound counts two tokens for each character, itself and a semicolon in front of it, and
the end; it is the bound that brings the lexer to its end (`Lexer.bound`).
-/

namespace GoTrace

open String (utf8Len)

namespace Lexer

variable {due : Bool} {rest : List Char} {offset : Nat} {t : Token} {l : Lexer}

/-! ## Calls of the lexer -/

/-- The lexer behind its next `n` tokens, or behind all if there are fewer. -/
def after : Nat → Lexer → Lexer
  | 0, l => l
  | n + 1, l =>
    match l.next? with
    | none => l
    | some (_, l) => l.after n

/-- The tokens to come are the next one and those behind it. -/
theorem tokens_eq (l : Lexer) : l.tokens =
    match l.next? with
    | none => []
    | some (t, l') => t :: l'.tokens := by
  rw [tokens]
  split <;> simp_all

/-- **The lexer gives out its tokens to come**, one with each call, and then nothing. -/
theorem next?_after (l : Lexer) (n : Nat) : (l.after n).next?.map Prod.fst = l.tokens[n]? := by
  induction n generalizing l with
  | zero =>
    rw [after, tokens_eq]
    cases l.next? <;> rfl
  | succ n ih =>
    rw [after, tokens_eq]
    cases h : l.next? with
    | none => simp [h]
    | some next => exact ih next.2

/-- No more tokens come than the bound says. -/
theorem length_tokens_le (l : Lexer) : l.tokens.length ≤ l.bound := by
  fun_induction tokens l with
  | case1 => exact Nat.zero_le _
  | case2 l t l' h ih =>
    have hless := bound_next? h
    rw [List.length_cons]
    omega

/-! ## The tokens to come -/

/-- A token is the end, and no tokens come behind it, or tokens come from where it can end a
statement or not. -/
theorem exists_tokens_reading (rest : List Char) (offset : Nat) (due : Bool) :
    ∃ t ts, (reading rest offset due).tokens = t :: ts ∧
      (due = false → t.kind ≠ .semicolon true) ∧
      (t.kind = .eof ∧ ts = [] ∨ t.kind ≠ .eof ∧
        ∃ rest' offset', ts = (reading rest' offset' t.kind.endsStatement).tokens) := by
  obtain ⟨t, l, hscans, hfirst⟩ := tokens_reading rest offset due
  obtain ⟨rest', offset', rfl⟩ := hscans.behind
  refine ⟨t, _, hfirst, ?_, ?_⟩
  · rintro rfl
    exact hscans.ne_semicolon
  · split
    · rename_i heof
      exact .inl ⟨heof, tokens_finished⟩
    · rename_i hgoesOn
      exact .inr ⟨hgoesOn, rest', offset', rfl⟩

/-- The last token to come is the end, and no other. -/
theorem exists_end_of_reading (rest : List Char) (offset : Nat) (due : Bool) :
    ∃ front t, (reading rest offset due).tokens = front ++ [t] ∧ t.kind = .eof ∧
      ∀ u ∈ front, u.kind ≠ .eof := by
  induction hts : (reading rest offset due).tokens generalizing rest offset due with
  | nil =>
    obtain ⟨t, ts, hfirst, -⟩ := exists_tokens_reading rest offset due
    rw [hts] at hfirst
    cases hfirst
  | cons t ts ih =>
    obtain ⟨u, us, hfirst, -, hrest⟩ := exists_tokens_reading rest offset due
    obtain ⟨rfl, rfl⟩ := List.cons.inj (hts.symm.trans hfirst)
    rcases hrest with ⟨heof, rfl⟩ | ⟨hkind, rest', offset', rfl⟩
    · exact ⟨[], t, rfl, heof, List.forall_mem_nil _⟩
    · obtain ⟨front, last, hlast, heof, hfront⟩ := ih rest' offset' _ rfl
      exact ⟨t :: front, last, by rw [hlast, List.cons_append], heof,
        List.forall_mem_cons.2 ⟨hkind, hfront⟩⟩

/-- Behind an implicit semicolon none is due, so none follows. -/
theorem isChain_tokens (rest : List Char) (offset : Nat) (due : Bool) :
    (reading rest offset due).tokens.IsChain fun t u =>
      t.kind = .semicolon true → u.kind ≠ .semicolon true := by
  induction hts : (reading rest offset due).tokens generalizing rest offset due with
  | nil => exact .nil
  | cons t ts ih =>
    obtain ⟨u, us, hfirst, -, hrest⟩ := exists_tokens_reading rest offset due
    obtain ⟨rfl, rfl⟩ := List.cons.inj (hts.symm.trans hfirst)
    rcases hrest with ⟨-, rfl⟩ | ⟨-, rest', offset', rfl⟩
    · exact .singleton t
    · obtain ⟨u, us, hnext, hnone, -⟩ := exists_tokens_reading rest' offset' t.kind.endsStatement
      have hchain := ih rest' offset' _ rfl
      rw [hnext] at hchain ⊢
      refine .cons_cons (fun ht => hnone ?_) hchain
      rw [ht]
      rfl

end Lexer

/-- A lexeme that stands in a text takes a byte, unless it is an implicit semicolon or the end. -/
theorem Lexed.start_lt_stop {text front m tail : List Char} {kind : TokenKind} {span : Span}
    (h : Lexed text front m tail (.token kind) span) (hsemicolon : kind ≠ .semicolon true)
    (heof : kind ≠ .eof) : span.start < span.stop := by
  obtain ⟨due, n, hlexeme, hm⟩ := h.found
  have hadvances := Lexeme.ofChars_advances due (m ++ tail)
  rw [hlexeme] at hadvances
  unfold Lexeme.Advances at hadvances
  have hne : 0 < n ∧ m ++ tail ≠ [] := by
    split at hadvances <;> simp_all
  have hmne : m ≠ [] := by
    rw [← hm, Ne, List.take_eq_nil_iff, not_or]
    exact ⟨Nat.pos_iff_ne_zero.1 hne.1, hne.2⟩
  have hpos : utf8Len m ≠ 0 := fun hzero => hmne (String.utf8Len_eq_zero.1 hzero)
  rw [Offset.lt_def, h.start_eq, h.stop_eq, String.utf8Len_append]
  omega

/-- **The sequence of tokens.** Of a text that is not too long, the lexer gives out the tokens one with
each call and then nothing more. They are at most twice as many as the text has bytes, and one; the
last of them is the end, and no other; every token but the end and implicit semicolons takes a byte;
and no implicit semicolon follows another. -/
theorem sequence_of_tokens (text : String) (hsize : text.utf8ByteSize ≤ maxOffset) :
    (∀ n, ((Lexer.ofString text).after n).next?.map Prod.fst = (tokens text)[n]?) ∧
      (tokens text).length ≤ 2 * text.utf8ByteSize + 1 ∧
      (∃ front t, tokens text = front ++ [t] ∧ t.kind = .eof ∧ ∀ u ∈ front, u.kind ≠ .eof) ∧
      (∀ t ∈ tokens text, t.kind ≠ .semicolon true → t.kind ≠ .eof →
        t.span.start < t.span.stop) ∧
      (tokens text).IsChain fun t u => t.kind = .semicolon true → u.kind ≠ .semicolon true := by
  have hreading : tokens text = (Lexer.reading text.toList 0 false).tokens := by
    rw [tokens, Lexer.ofString, if_pos hsize]
  refine ⟨Lexer.next?_after _, ?_, ?_, fun t ht hsemicolon heof => ?_, ?_⟩
  · have hlength := Lexer.length_tokens_le (.reading text.toList 0 false)
    have hbytes := length_le_utf8Len text.toList
    rw [← hreading, Lexer.bound, if_neg Bool.false_ne_true] at hlength
    rw [utf8ByteSize_eq]
    omega
  · rw [hreading]
    exact Lexer.exists_end_of_reading _ _ _
  · obtain ⟨front, m, tail, hlexed⟩ := (isLexed_of_mem_tokens hsize t ht).token
    exact hlexed.start_lt_stop hsemicolon heof
  · rw [hreading]
    exact Lexer.isChain_tokens _ _ _

/-- A text that gives the most tokens for its bytes: a name, and the end. -/
def nameText : String := "a"

/-- The lexer gives out three tokens for the one byte of `nameText`, the name, an implicit semicolon
and the end, and then nothing more. -/
theorem sequence_of_nameText : nameText.utf8ByteSize ≤ maxOffset ∧
    (tokens nameText).length = 2 * nameText.utf8ByteSize + 1 ∧
    (tokens nameText).map (·.kind) = [.ident "a", .semicolon true, .eof] ∧
    ∀ n, 3 ≤ n → ((Lexer.ofString nameText).after n).next? = none := by
  have hsize : nameText.utf8ByteSize ≤ maxOffset := by decide
  have hkinds : (tokens nameText).map (·.kind) = [.ident "a", .semicolon true, .eof] := by
    decide +kernel
  have hlength : (tokens nameText).length = 3 := by
    rw [← List.length_map (·.kind), hkinds]
    rfl
  obtain ⟨hcalls, -⟩ := sequence_of_tokens nameText hsize
  refine ⟨hsize, hlength, hkinds, fun n hn => ?_⟩
  rw [← Option.map_eq_none_iff, hcalls, List.getElem?_eq_none_iff, hlength]
  exact hn

end GoTrace
