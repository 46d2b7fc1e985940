import Mathlib.Data.List.Induction
import GoTrace.Proofs.Token.Lexed

/-!
# Where literals in quotes end

A character is written between single quotes and a string between double quotes. The closing quote is
the first behind the opening one that is not escaped, which is to say that no odd number of
backslashes stands directly in front of it. A newline leaves a literal open, but only if it is not
escaped either: a backslash takes whatever is behind it, so `quotedLiterals_of_tokens` finds escaped
newlines in literals, and no others.

The argument goes through `quotedLength` once, from the front, in steps that leave no backslash behind
them that escapes (`LiteralBody.char`, `LiteralBody.escape`). Counting backslashes from the back then
gives the same answer, as what stands in front of such a step does not matter (`escapes_append`).
-/

namespace GoTrace

open String (utf8Len)

/-- How a literal in quotes is written. -/
inductive QuoteStyle
  /-- A character in single quotes. -/
  | single
  /-- A string in double quotes. -/
  | double

namespace QuoteStyle

/-- The quote. -/
def mark : QuoteStyle → Char
  | single => '\''
  | double => '"'

/-- The kind of the literal. -/
def kind : QuoteStyle → LitKind
  | single => .char
  | double => .string

/-- What is wrong if the literal is not closed. -/
def fault : QuoteStyle → LexError
  | single => .runeNotTerminated
  | double => .stringNotTerminated

end QuoteStyle

/-! ## Escapes -/

/-- The number of backslashes that the characters end with. -/
def backslashesAtEnd (cs : List Char) : Nat := (cs.reverse.takeWhile (· == '\\')).length

/-- Behind these characters of a literal the next one is escaped: an odd number of backslashes
stands directly in front of it. -/
def Escapes (cs : List Char) : Prop := backslashesAtEnd cs % 2 = 1

theorem not_escapes_nil : ¬Escapes [] := by simp [Escapes, backslashesAtEnd]

/-- A backslash escapes unless it is escaped itself, and nothing else escapes. -/
theorem escapes_concat (cs : List Char) (c : Char) :
    Escapes (cs ++ [c]) ↔ c = '\\' ∧ ¬Escapes cs := by
  rw [Escapes, Escapes, backslashesAtEnd, backslashesAtEnd, List.reverse_append,
    List.reverse_singleton, List.singleton_append, List.takeWhile_cons]
  by_cases hc : c = '\\'
  · simp only [hc, beq_self_eq_true, if_true, List.length_cons, true_and]
    omega
  · simp [hc]

/-- Characters that escape nothing may be left out in front. -/
theorem escapes_append {front cs : List Char} (hfront : ¬Escapes front) :
    Escapes (front ++ cs) ↔ Escapes cs := by
  induction cs using List.reverseRecOn with
  | nil =>
    rw [List.append_nil]
    exact iff_of_false hfront not_escapes_nil
  | append_singleton cs c ih => rw [← List.append_assoc, escapes_concat, escapes_concat, ih]

/-- The characters `cs` behind an opening quote are `body` and then `tail`: the first quote or newline
that is not escaped begins `tail`, and where there is none, `body` is all of them. -/
structure LiteralBody (quote : Char) (cs body tail : List Char) : Prop where
  eq : cs = body ++ tail
  escaped : ∀ front c back, body = front ++ c :: back → c = quote ∨ c = '\n' → Escapes front
  stop : ∀ c ∈ tail.head?, (c = quote ∨ c = '\n') ∧ ¬Escapes body

namespace LiteralBody

variable {quote : Char} {cs body tail : List Char}

/-- Nothing is in front of a quote or newline that the characters begin with. -/
theorem nil (h : ∀ c ∈ cs.head?, c = quote ∨ c = '\n') : LiteralBody quote cs [] cs :=
  ⟨rfl, by simp, fun c hc => ⟨h c hc, not_escapes_nil⟩⟩

/-- Characters without an end of the literal may be put in front, if they escape nothing behind
them. -/
theorem append (h : LiteralBody quote cs body tail) (front : List Char) (hfront : ¬Escapes front)
    (hescaped : ∀ front' c back, front = front' ++ c :: back → c = quote ∨ c = '\n' →
      Escapes front') : LiteralBody quote (front ++ cs) (front ++ body) tail := by
  refine ⟨by rw [h.eq, List.append_assoc], fun front' c back heq hc => ?_, fun c hc => ?_⟩
  · rcases List.append_eq_append_iff.1 heq with ⟨e, rfl, hbody⟩ | ⟨e, rfl, hbody⟩
    · exact (escapes_append hfront).2 (h.escaped e c back hbody hc)
    · cases e with
      | nil =>
        rw [List.append_nil] at hfront
        exact absurd (h.escaped [] c back hbody.symm hc) not_escapes_nil
      | cons d e =>
        obtain ⟨rfl, -⟩ := List.cons.inj hbody
        exact hescaped front' c e rfl hc
  · rw [escapes_append hfront]
    exact h.stop c hc

/-- A character that is neither a backslash nor ends the literal may be put in front. -/
theorem char {c : Char} (h : LiteralBody quote cs body tail) (hc : c ≠ '\\')
    (hstop : ¬(c = quote ∨ c = '\n')) : LiteralBody quote (c :: cs) (c :: body) tail := by
  refine h.append [c] (fun hescapes => ?_) fun front' d back heq hd => ?_
  · exact hc ((escapes_concat [] c).1 hescapes).1
  · obtain ⟨rfl, hback⟩ := List.append_eq_singleton_iff.1 heq.symm |>.resolve_right (by simp)
    cases hback
    exact absurd hd hstop

/-- A backslash may be put in front with any character behind it. -/
theorem escape (h : LiteralBody quote cs body tail) (hquote : quote ≠ '\\') (d : Char) :
    LiteralBody quote ('\\' :: d :: cs) ('\\' :: d :: body) tail := by
  have hescapes : Escapes ['\\'] := (escapes_concat [] _).2 ⟨rfl, not_escapes_nil⟩
  refine h.append ['\\', d] (fun hboth => ?_) fun front' c back heq hc => ?_
  · exact ((escapes_concat ['\\'] d).1 hboth).2 hescapes
  · match front', heq with
    | [], heq =>
      obtain ⟨rfl, -⟩ := List.cons.inj heq
      exact absurd hc (by simp [hquote.symm])
    | [_], heq =>
      obtain ⟨rfl, -⟩ := List.cons.inj heq
      exact hescapes
    | _ :: _ :: _, heq => simp at heq

end LiteralBody

namespace Lexeme

/-- **A literal goes on up to the first quote or newline that is not escaped.** -/
theorem literalBody_of_quotedLength (quote : Char) (hquote : quote ≠ '\\') (hnewline : quote ≠ '\n')
    (cs : List Char) (n : Nat) : ∃ body tail, LiteralBody quote cs body tail ∧
      quotedLength quote cs n = if tail.head? = some quote then (n + body.length + 1, true)
        else (n + body.length, false) := by
  fun_induction quotedLength quote cs n with
  | case1 n => exact ⟨[], [], .nil (by simp), rfl⟩
  | case2 n =>
    refine ⟨['\\'], [], ⟨rfl, fun front c back heq hc => ?_, by simp⟩, rfl⟩
    obtain ⟨rfl, hback⟩ := List.append_eq_singleton_iff.1 heq.symm |>.resolve_right (by simp)
    cases hback
    exact absurd hc (by simp [hquote.symm])
  | case3 d cs n ih =>
    obtain ⟨body, tail, hbody, hlength⟩ := ih
    refine ⟨'\\' :: d :: body, tail, hbody.escape hquote d, ?_⟩
    rw [hlength, List.length_cons, List.length_cons]
    split <;> congr 1 <;> omega
  | case4 cs n =>
    refine ⟨[], '\n' :: cs, .nil (by simp), ?_⟩
    rw [if_neg (by simpa using hnewline.symm)]
    rfl
  | case5 cs n =>
    exact ⟨[], quote :: cs, .nil (by simp), (if_pos rfl).symm⟩
  | case6 c cs n hlone hpair hline hclose ih =>
    obtain ⟨body, tail, hbody, hlength⟩ := ih
    have hc : c ≠ '\\' := by
      rintro rfl
      cases cs with
      | nil => exact hlone rfl rfl
      | cons d cs => exact hpair d cs rfl rfl
    refine ⟨c :: body, tail, hbody.char hc (by simp [hline, hclose]), ?_⟩
    rw [hlength, List.length_cons]
    split <;> congr 1 <;> omega

/-- A quote begins a literal, closed or not. -/
theorem ofChars_mark (style : QuoteStyle) (due : Bool) (rest : List Char) :
    ofChars due (style.mark :: rest) =
      quoted style.mark style.kind style.fault (style.mark :: rest) := by
  cases style <;> simp [ofChars, QuoteStyle.mark, QuoteStyle.kind, QuoteStyle.fault]

/-- A number is no character. -/
private theorem numberLength_ne_char (cs : List Char) : (numberLength cs).1 ≠ .char := by
  have hdecimal : ∀ cs, (decimalLength cs).1 ≠ .char := by
    intro cs
    rw [decimalLength]
    dsimp only
    split <;> exact LitKind.noConfusion
  unfold numberLength
  split
  · split
    · exact LitKind.noConfusion
    · exact hdecimal _
  · exact hdecimal _

/-- A character literal begins with a single quote. -/
theorem head?_of_char {due : Bool} {cs : List Char} {s : String} {n : Nat}
    (h : ofChars due cs = (token (.literal .char s), n)) : cs.head? = some '\'' := by
  cases cs with
  | nil => cases due <;> cases h
  | cons c cs =>
    rw [ofChars] at h
    split at h
    · cases h
    split at h
    · split at h <;> cases h
    split at h
    · rw [blockComment] at h
      split at h
      · cases h
      · split at h <;> cases h
    split at h
    · cases h
    split at h
    · rw [quoted] at h
      split at h
      split at h <;> cases h
    split at h
    · rw [rawString] at h
      split at h <;> cases h
    split at h
    · rename_i hc
      rw [hc]
      rfl
    split at h
    · rw [word] at h
      cases hword : Keyword.ofText? (String.ofList ((c :: cs).takeWhile isIdentContinue)) <;>
        simp [hword] at h
    split at h
    · rw [number, Prod.mk.injEq, token.injEq, TokenKind.literal.injEq] at h
      exact absurd h.1.1 (numberLength_ne_char _)
    · rw [operator] at h
      split at h <;> cases h

end Lexeme

/-- A token is a literal in quotes, and `s` is its text. A string in backquotes is none. -/
def Token.IsQuoted (style : QuoteStyle) (s : String) (t : Token) : Prop :=
  t.kind = .literal style.kind s ∧ (style = .double → s.toList.head? = some '"')

section

variable {text front m tail rest : List Char} {lexeme : Lexeme} {span : Span} {style : QuoteStyle}

/-- **A quote begins a literal up to the next quote that is not escaped**, or an error up to a newline
that is not escaped, whichever comes first. -/
theorem Lexed.of_mark (h : Lexed text front m tail lexeme span)
    (hrest : m ++ tail = style.mark :: rest) :
    ∃ body behind, LiteralBody style.mark rest body behind ∧
      if behind.head? = some style.mark then
        m = style.mark :: (body ++ [style.mark]) ∧
          lexeme = .token (.literal style.kind (String.ofList m))
      else m = style.mark :: body ∧ lexeme = .token (.error style.fault.message) := by
  obtain ⟨due, n, hlexeme, hm⟩ := h.found
  obtain ⟨body, behind, hbody, hlength⟩ := Lexeme.literalBody_of_quotedLength style.mark
    (by cases style <;> decide) (by cases style <;> decide) rest 1
  rw [hrest] at hlexeme hm
  rw [Lexeme.ofChars_mark, Lexeme.quoted, List.drop_one, List.tail_cons, hlength] at hlexeme
  refine ⟨body, behind, hbody, ?_⟩
  split
  · rename_i hclosed
    obtain ⟨behind, rfl⟩ := List.head?_eq_some_iff.1 hclosed
    rw [if_pos hclosed] at hlexeme
    cases hlexeme
    refine ⟨?_, by rw [hm]⟩
    have hcut : rest = (body ++ [style.mark]) ++ behind := by rw [hbody.eq, List.append_cons]
    rw [← hm, hcut, Nat.add_assoc, Nat.add_comm 1, List.take_succ_cons, List.take_left' (by simp)]
  · rename_i hopen
    rw [if_neg hopen] at hlexeme
    cases hlexeme
    refine ⟨?_, rfl⟩
    rw [← hm, hbody.eq, Nat.add_comm 1, List.take_succ_cons, List.take_left]

/-- A literal in quotes is a lexeme that begins with its quote. -/
theorem Token.IsQuoted.of_lexed {t : Token} {s : String} (h : t.IsQuoted style s)
    (hlexed : Lexed text front m tail (.token t.kind) span) :
    s.toList = m ∧ ∃ rest, m ++ tail = style.mark :: rest := by
  obtain ⟨hkind, hdouble⟩ := h
  rw [hkind] at hlexed
  obtain ⟨due, n, hlexeme, hm⟩ := hlexed.found
  have hspelling := Lexeme.spelling_of_ofChars hlexeme fun _ => TokenKind.noConfusion
  obtain rfl : s = String.ofList m := by rw [← hm]; exact hspelling
  rw [String.toList_ofList] at hdouble
  refine ⟨String.toList_ofList, ?_⟩
  cases style with
  | single => exact ⟨_, List.eq_cons_of_mem_head? (Lexeme.head?_of_char hlexeme)⟩
  | double =>
    obtain ⟨m', rfl⟩ := List.head?_eq_some_iff.1 (hdouble rfl)
    exact ⟨m' ++ tail, rfl⟩

end

/-- **Literals in quotes end at the first quote that is not escaped.** In every text, a literal in
quotes is the slice at its span, and its closing quote is the first behind the opening one that is
not escaped; a newline in it is escaped. In a text that is not too long, a quote that lies in no
comment or token begins such a literal, or else an error, which goes up to the first newline that is
not escaped, or to the end of the text. -/
theorem quotedLiterals_of_tokens (text : String) :
    (∀ t ∈ tokens text, ∀ style s, t.IsQuoted style s →
      ∃ front body rest, text.toList = front ++ s.toList ++ rest ∧
        t.span.start.toNat = utf8Len front ∧ t.span.stop.toNat = utf8Len (front ++ s.toList) ∧
        s.toList = style.mark :: (body ++ [style.mark]) ∧
        LiteralBody style.mark (body ++ style.mark :: rest) body (style.mark :: rest)) ∧
      (text.utf8ByteSize ≤ maxOffset → ∀ (style : QuoteStyle) front rest,
        text.toList = front ++ style.mark :: rest →
        (∀ span ∈ (tokens text).flatMap Token.spans,
          ¬(span.start.toNat < utf8Len front ∧ utf8Len front < span.stop.toNat)) →
        ∃ t ∈ tokens text, t.span.start.toNat = utf8Len front ∧
          ∃ body behind, LiteralBody style.mark rest body behind ∧
            if behind.head? = some style.mark then
              t.IsQuoted style (String.ofList (style.mark :: (body ++ [style.mark]))) ∧
                t.span.stop.toNat = utf8Len (front ++ style.mark :: (body ++ [style.mark]))
            else t.kind = .error style.fault.message ∧
              t.span.stop.toNat = utf8Len (front ++ style.mark :: body)) := by
  constructor
  · intro t ht style s hquoted
    by_cases hsize : text.utf8ByteSize ≤ maxOffset
    · obtain ⟨front, m, tail, hlexed⟩ := (isLexed_of_mem_tokens hsize t ht).token
      obtain ⟨rfl, rest, hrest⟩ := hquoted.of_lexed hlexed
      obtain ⟨body, behind, hbody, hform⟩ := hlexed.of_mark hrest
      split at hform
      · rename_i hclosed
        obtain ⟨behind, rfl⟩ := List.head?_eq_some_iff.1 hclosed
        obtain ⟨hs, -⟩ := hform
        refine ⟨front, body, tail, hlexed.text_eq, hlexed.start_eq, hlexed.stop_eq, hs, ?_⟩
        have hcut : rest = body ++ style.mark :: tail := by
          rw [hs, List.cons_append, ← List.append_cons] at hrest
          exact (List.cons.inj hrest).2.symm
        obtain rfl : behind = tail := by
          have heq := hbody.eq
          rw [hcut, List.append_cancel_left_eq] at heq
          exact (List.cons.inj heq).2.symm
        exact hcut ▸ hbody
      · rw [hquoted.1] at hform
        cases hform.2
    · rw [tokens, Lexer.ofString, if_neg hsize] at ht
      obtain ⟨-, ⟨message, hkind⟩ | hkind⟩ := Lexer.of_mem_refused t ht <;>
      · rw [hquoted.1] at hkind
        cases hkind
  · intro hsize style front rest htext hout
    obtain ⟨t, ht, m, tail, lexeme, span, hlexed, hrest, -, hwhich⟩ :=
      exists_lexed_of_outside hsize htext (by cases style <;> decide) hout
    obtain ⟨body, behind, hbody, hform⟩ := hlexed.of_mark hrest
    -- the lexeme is a token in either case
    have hkind : lexeme = .token t.kind ∧ t.span = span := by
      rcases hwhich with ⟨c, -, rfl, -⟩ | htoken
      · split at hform <;> cases hform.2
      · exact htoken
    obtain ⟨rfl, rfl⟩ := hkind
    refine ⟨t, ht, hlexed.start_eq, body, behind, hbody, ?_⟩
    split at hform <;> obtain ⟨rfl, hlexeme⟩ := hform
    · rw [if_pos ‹_›]
      exact ⟨⟨Lexeme.token.inj hlexeme, by rintro rfl; simp [QuoteStyle.mark]⟩, hlexed.stop_eq⟩
    · rw [if_neg ‹_›]
      exact ⟨Lexeme.token.inj hlexeme, hlexed.stop_eq⟩

/-- A text with a string that holds an escaped newline and an escaped quote, and with a character that
is not closed. -/
def escapedText : String := "\"a\\\n\\\"b\" 'c"

/-- In `escapedText` the string ends at its third quote, and the character is an error. -/
theorem quotedLiterals_of_escapedText :
    escapedText.utf8ByteSize ≤ maxOffset ∧
      (∃ t ∈ tokens escapedText, t.IsQuoted .double "\"a\\\n\\\"b\"" ∧
        ∃ body rest, LiteralBody '"' (body ++ '"' :: rest) body ('"' :: rest) ∧ '\n' ∈ body) ∧
      ∃ t ∈ tokens escapedText, t.kind = .error LexError.runeNotTerminated.message ∧
        t.span.start.toNat = 9 ∧ t.span.stop.toNat = 11 := by
  have hsize : escapedText.utf8ByteSize ≤ maxOffset := by decide +kernel
  obtain ⟨hliterals, hopening⟩ := quotedLiterals_of_tokens escapedText
  refine ⟨hsize, ?_, ?_⟩
  · have hstring : (tokens escapedText).any fun t =>
        t.kind == .literal .string "\"a\\\n\\\"b\"" := by decide +kernel
    obtain ⟨t, ht, hkind⟩ := List.any_eq_true.1 hstring
    have hquoted : t.IsQuoted .double "\"a\\\n\\\"b\"" :=
      ⟨beq_iff_eq.1 hkind, fun _ => by decide⟩
    obtain ⟨_, body, rest, -, -, -, hs, hends⟩ := hliterals t ht .double _ hquoted
    have hmem : '\n' ∈ "\"a\\\n\\\"b\"".toList := by decide
    rw [hs] at hmem
    exact ⟨t, ht, hquoted, body, rest, hends, by simpa [QuoteStyle.mark] using hmem⟩
  · have hout : ∀ span ∈ (tokens escapedText).flatMap Token.spans,
        ¬(span.start.toNat < 9 ∧ 9 < span.stop.toNat) := by decide +kernel
    obtain ⟨t, ht, hstart, body, behind, hbody, hform⟩ :=
      hopening hsize .single "\"a\\\n\\\"b\" ".toList ['c'] (by decide +kernel) hout
    -- there is no end of the literal among the characters that are left
    obtain rfl : behind = [] := by
      cases behind with
      | nil => rfl
      | cons c behind =>
        obtain ⟨hc, -⟩ := hbody.stop c rfl
        have hmem : c ∈ ['c'] := by
          rw [hbody.eq]
          exact List.mem_append_cons_self
        rw [List.mem_singleton.1 hmem] at hc
        exact absurd hc (by decide)
    obtain rfl : body = ['c'] := by simpa using hbody.eq.symm
    exact ⟨t, ht, hform.1, hstart, hform.2⟩

/-- Literals in quotes may hold newlines. -/
theorem not_forall_newline_not_mem_quoted :
    ¬∀ text : String, ∀ t ∈ tokens text, ∀ style s, t.IsQuoted style s → '\n' ∉ s.toList := by
  intro h
  have hstring : (tokens "\"\\\n\"").any fun t => t.kind == .literal .string "\"\\\n\"" := by
    decide +kernel
  obtain ⟨t, ht, hkind⟩ := List.any_eq_true.1 hstring
  exact h _ t ht .double _ ⟨beq_iff_eq.1 hkind, fun _ => by decide⟩ (by decide)

end GoTrace
