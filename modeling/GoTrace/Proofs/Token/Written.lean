import GoTrace.Token.Basic

/-!
# Written tokens

Implicit semicolons and the end of the text stand in a list of tokens but not in the text. All other
tokens are written, and `TokenKind.spelling` is how.

Three dots behind an argument are *stray* if another argument follows: a comma is behind them and no
closing bracket behind that. The grammar lets them pass, and the tree forgets them.
-/

namespace GoTrace

/-- How a token is spelled. Implicit semicolons, the end of the text and errors have no spelling. -/
def TokenKind.spelling : TokenKind → String
  | ident name => name
  | literal _ text => text
  | keyword word => word.text
  | operator op => op.text
  | semicolon implicit => if implicit then "" else ";"
  | eof | error _ => ""

/-- Whether a token stands in the text. -/
def TokenKind.isWritten : TokenKind → Bool
  | ident _ | literal _ _ | keyword _ | operator _ | error _ => true
  | semicolon implicit => !implicit
  | eof => false

/-- Whether a token may begin a construct: it is written, and neither a comma nor a closing round
bracket. -/
def TokenKind.opens : TokenKind → Bool
  | operator op => op != .comma && op != .rparen
  | kind => kind.isWritten

/-- Whether a token is written and not three dots. -/
def TokenKind.isPlain : TokenKind → Bool
  | operator op => op != .ellipsis
  | kind => kind.isWritten

/-- A token that is not written has no spelling. -/
theorem TokenKind.spelling_of_not_isWritten {kind : TokenKind} (h : kind.isWritten = false) :
    kind.spelling = "" := by
  cases kind <;> simp_all [isWritten, spelling]

/-- The tokens that stand in the text. -/
def written (tokens : List Token) : List Token := tokens.filter (·.kind.isWritten)

/-- A written token is kept. -/
theorem written_cons {t : Token} {ts : List Token} (h : t.kind.isWritten) :
    written (t :: ts) = t :: written ts :=
  List.filter_cons_of_pos h

/-- A token that is not written is left out. -/
theorem written_cons_of_not {t : Token} {ts : List Token} (h : t.kind.isWritten = false) :
    written (t :: ts) = written ts :=
  List.filter_cons_of_neg (by simp [h])

/-- The place and the text of a token. -/
def Token.word (t : Token) : Offset × String := (t.span.start, t.kind.spelling)

/-- The places and texts of the tokens that stand in the text. -/
def words (tokens : List Token) : List (Offset × String) := (written tokens).map Token.word

/-- A written token is kept. -/
theorem words_cons {t : Token} {ts : List Token} (h : t.kind.isWritten) :
    words (t :: ts) = t.word :: words ts := by
  rw [words, written_cons h, List.map_cons, words]

/-- A token that is not written is left out. -/
theorem words_cons_of_not {t : Token} {ts : List Token} (h : t.kind.isWritten = false) :
    words (t :: ts) = words ts := by
  rw [words, written_cons_of_not h, words]

/-- The words of one token. -/
theorem words_singleton {t : Token} :
    words [t] = if t.kind.isWritten then [t.word] else [] := by
  split
  · rename_i h
    rw [words_cons h]
    rfl
  · rename_i h
    rw [words_cons_of_not (by simpa using h)]
    rfl

/-- The words of two lists of tokens follow each other. -/
theorem words_append {ts us : List Token} : words (ts ++ us) = words ts ++ words us := by
  rw [words, written, List.filter_append, List.map_append, ← written, ← written, ← words, ← words]

/-- A plain token is written. -/
theorem TokenKind.isWritten_of_isPlain {kind : TokenKind} (h : kind.isPlain) : kind.isWritten := by
  cases kind with
  | operator op => rfl
  | _ => exact h

/-- A token that begins a construct is written. -/
theorem TokenKind.isWritten_of_opens {kind : TokenKind} (h : kind.opens) : kind.isWritten := by
  cases kind with
  | operator op => rfl
  | _ => exact h

/-- A plain token is not three dots. -/
theorem TokenKind.ne_ellipsis_of_isPlain {kind : TokenKind} (h : kind.isPlain) :
    kind ≠ .operator .ellipsis := by
  rintro rfl
  simp [TokenKind.isPlain] at h

/-! ## Dots behind arguments -/

/-- Whether the first of some written tokens are stray dots: three dots with a comma behind them,
and no closing bracket behind that. -/
def strayDots : List Token → Bool
  | dots :: comma :: next :: _ =>
    dots.kind == .operator .ellipsis && comma.kind == .operator .comma &&
      next.kind != .operator .rparen
  | _ => false

/-- Whether no dots among some written tokens are stray. -/
def dotsLast : List Token → Bool
  | [] => true
  | t :: ts => !strayDots (t :: ts) && dotsLast ts

/-- Dots are not stray if none are from some token on. -/
theorem strayDots_of_dotsLast {ts : List Token} (h : dotsLast ts) : strayDots ts = false := by
  cases ts with
  | nil => rfl
  | cons t ts =>
    rw [dotsLast, Bool.and_eq_true, Bool.not_eq_true'] at h
    exact h.1

/-- Tokens without stray dots have none from any place on. -/
theorem dotsLast_of_append {ts us : List Token} (h : dotsLast (ts ++ us)) : dotsLast us := by
  induction ts with
  | nil => exact h
  | cons t ts ih =>
    rw [List.cons_append, dotsLast, Bool.and_eq_true] at h
    exact ih h.2

/-- Tokens with stray dots have them at some place. -/
theorem exists_strayDots {ts : List Token} (h : dotsLast ts = false) :
    ∃ us vs, ts = us ++ vs ∧ strayDots vs := by
  induction ts with
  | nil => simp [dotsLast] at h
  | cons t ts ih =>
    rw [dotsLast, Bool.and_eq_false_iff, Bool.not_eq_false'] at h
    rcases h with h | h
    · exact ⟨[], t :: ts, rfl, h⟩
    · obtain ⟨us, vs, rfl, hvs⟩ := ih h
      exact ⟨t :: us, vs, rfl, hvs⟩

end GoTrace
