import GoTrace.Proofs.Grammar.ProgramRules
import Mathlib.Computability.StateTransition

/-!
# Parsers step by step

A machine runs the programs of parsers with a stack, so that what is on the stack while a text is
parsed can be spoken of. It has no fuel: a loop goes on for as long as its turns say so, and that it
ends at all is a theorem (`parseTokens_ends`).

How high the stack may grow is written into its type. A stack belongs to a number of levels that may
still be gone down, and to the height of the programs that may run on it: each frame takes one of
that height, and a rule that goes one level deeper is given the full height again. So no step can
build a stack that is too high, whatever the tokens are.
-/

namespace GoTrace

open GoTrace.Parser StateTransition

/-- The height of the highest program of a rule, above the last level. -/
abbrev maxHeight : Nat := 33

/-- What a rule does one level deeper. -/
@[reducible]
def NestedRule.body (d : Nat) {α : Type} :
    (r : NestedRule α) → Program d maxHeight (r.parser (.level (d + 1)))
  | .type => (inferInstance : Program d maxHeight (Grammar.type (.level d)))
  | .expr => (inferInstance : Program d maxHeight (Grammar.expr (.level d)))
  | .operand => (inferInstance : Program d maxHeight (Grammar.unary (.level d)))
  | .literal type? => (inferInstance : Program d maxHeight (Grammar.literal (.level d) type?))
  | .block => (inferInstance : Program d maxHeight (Grammar.block (.level d)))
  | .ifStmt => (inferInstance : Program d maxHeight (Grammar.ifStmt (.level d)))
  | .stmt => (inferInstance : Program d maxHeight (Grammar.stmt (.level d)))
  | .stmts => (inferInstance : Program d maxHeight (Grammar.stmts (.level d)))

/-- What is to be done with a value of a type, to have one of type `ω` in the end. Programs of this
height run on the stack, and may go `depth` levels deeper. -/
inductive Stack (ω : Type) : (depth height : Nat) → Type → Type 1
  /-- Nothing is left to do. -/
  | empty : Stack ω maxNesting maxHeight ω
  /-- What comes second in a sequence waits for what comes first. -/
  | behind {d n : Nat} {α β : Type} {f : α → Parser β} (rest : ∀ a, Program d (n + 1) (f a))
      (ctx : ParseContext) (below : Stack ω d (n + 1) β) : Stack ω d n α
  /-- A rule was called. -/
  | rule {d n : Nat} {α : Type} (below : Stack ω d (n + 1) α) : Stack ω d n α
  /-- A turn of a loop was begun at `s`, in front of the tokens `start`. -/
  | turn {d n : Nat} {σ β : Type} {step : σ → Parser (Turn σ β)} (exit : σ → β)
      (steps : ∀ s, Program d n (step s)) (ctx : ParseContext) (s : σ) (start : List Token)
      (below : Stack ω d (n + 1) β) : Stack ω d n (Turn σ β)
  /-- A rule went one level deeper. -/
  | nested {d n : Nat} {α : Type} (below : Stack ω (d + 1) n α) : Stack ω d maxHeight α

/-- What the machine is about to do. -/
inductive Config (ω : Type) : Type 1
  /-- To run a program. -/
  | run {d n : Nat} {α : Type} {p : Parser α} (program : Program d n p) (ctx : ParseContext)
      (st : ParseState) (stack : Stack ω d n α)
  /-- To give a value to the stack. -/
  | give {d n : Nat} {α : Type} (a : α) (st : ParseState) (stack : Stack ω d n α)
  /-- Nothing, as an error was found. -/
  | fail (e : ParseError) (st : ParseState)

/-! ## Steps -/

section

variable {ω α : Type} {d n : Nat}

/-- Behind a parser that is not taken apart, its value is given to the stack. -/
def Config.ofResult (st : ParseState) (stack : Stack ω d n α) :
    Except ParseError (α × ParseState) → Config ω
  | .ok (a, st') => .give a st' stack
  | .error e => .fail e st

/-- The first step of a program. Where no level is left, the rules that would go one level deeper
only fail. -/
def Program.enter {p : Parser α} (ctx : ParseContext) (st : ParseState) :
    Program d n p → Stack ω d n α → Config ω
  | .atom _, stack => .ofResult st stack ((p.run ctx).run st)
  | .seq first rest, stack => .run first ctx st (.behind rest ctx stack)
  | .call body, stack => .run body ctx st (.rule stack)
  | .withLiterals allowed body, stack => .run body ⟨allowed⟩ st (.rule stack)
  | .loop exit s steps _, stack => .run (steps s) ctx st (.turn exit steps ctx s st.tokens stack)
  | .nested r, stack =>
    match d with
    | 0 => .ofResult st stack ((p.run ctx).run st)
    | d + 1 => .run (r.body d) ctx st (.nested stack)

/-- What the frame on top does with a value. -/
def Stack.resume (st : ParseState) : Stack ω d n α → α → Option (Config ω)
  | .empty, _ => none
  | .behind rest ctx below, a => some (.run (rest a) ctx st below)
  | .rule below, a => some (.give a st below)
  | .turn exit steps ctx _ _ below, .goOn s =>
    some (.run (steps s) ctx st (.turn exit steps ctx s st.tokens below))
  | .turn _ _ _ _ _ below, .stop b => some (.give b st below)
  | .nested below, a => some (.give a st below)

namespace Config

/-- The next step, if there is one. -/
def next? : Config ω → Option (Config ω)
  | .run program ctx st stack => some (program.enter ctx st stack)
  | .give a st stack => stack.resume st a
  | .fail _ _ => none

/-- The tokens still to be read. -/
def tokens : Config ω → List Token
  | .run _ _ st _ | .give _ st _ | .fail _ st => st.tokens

end Config

/-- Where no level is left, no token is taken to find that out. -/
theorem NestedRule.sees_refusing (r : NestedRule α) : (r.parser (.level 0)).Sees 1 := by
  cases r <;> exact sees_failHere

end

/-! ## Frames -/

/-- The kinds of frames. -/
inductive Frame
  | behind
  | rule
  | turn
  | nested
  deriving DecidableEq

section

variable {ω α : Type} {d n : Nat}

namespace Stack

/-- The kinds of the frames of a stack, the last one first. -/
def frames {d n : Nat} {α : Type} : Stack ω d n α → List Frame
  | .empty => []
  | .behind _ _ below => .behind :: below.frames
  | .rule below => .rule :: below.frames
  | .turn _ _ _ _ _ below => .turn :: below.frames
  | .nested below => .nested :: below.frames

/-- As many rules went one level deeper as there are levels less. -/
theorem count_nested (stack : Stack ω d n α) : stack.frames.count .nested + d = maxNesting := by
  induction stack with
  | empty => exact Nat.zero_add _
  | nested below ih =>
    rw [frames, List.count_cons_self]
    omega
  | _ => assumption

/-- What a frame takes of the room on top of a level. -/
private theorem length_add_le_of_cons {frames rest : List Frame} {frame : Frame}
    (h : frames <+: frame :: rest) (hlevel : .nested ∉ frames)
    (hrest : ∀ {above : List Frame}, above <+: rest → .nested ∉ above →
      above.length + (n + 1) ≤ maxHeight) : frames.length + n ≤ maxHeight := by
  rcases List.prefix_cons_iff.1 h with rfl | ⟨above, rfl, habove⟩
  · have hnil := hrest (List.nil_prefix) List.not_mem_nil
    rw [List.length_nil] at hnil ⊢
    omega
  · have hcons := hrest habove fun hmem => hlevel (List.mem_cons_of_mem _ hmem)
    rw [List.length_cons]
    omega

/-- The frames on top of the last level leave room for the programs that run there. -/
theorem length_add_le_of_prefix (stack : Stack ω d n α) {frames : List Frame}
    (h : frames <+: stack.frames) (hlevel : .nested ∉ frames) : frames.length + n ≤ maxHeight := by
  induction stack generalizing frames with
  | empty =>
    rw [List.prefix_nil.1 h, List.length_nil, Nat.zero_add]
  | behind rest ctx below ih => exact length_add_le_of_cons h hlevel ih
  | rule below ih => exact length_add_le_of_cons h hlevel ih
  | turn exit steps ctx s start below ih => exact length_add_le_of_cons h hlevel ih
  | nested below ih =>
    rcases List.prefix_cons_iff.1 h with rfl | ⟨above, rfl, -⟩
    · rw [List.length_nil, Nat.zero_add]
    · exact absurd List.mem_cons_self hlevel

/-- What is below a frame is a stack. -/
private theorem exists_of_suffix (stack : Stack ω d n α) {frames : List Frame}
    (h : frames <:+ stack.frames) :
    ∃ (d n : Nat) (α : Type) (below : Stack ω d n α), below.frames = frames := by
  induction stack with
  | empty => exact ⟨_, _, _, .empty, (List.suffix_nil.1 h).symm⟩
  | behind rest ctx below ih =>
    exact (List.suffix_cons_iff.1 h).elim (fun h => ⟨_, _, _, .behind rest ctx below, h.symm⟩) ih
  | rule below ih =>
    exact (List.suffix_cons_iff.1 h).elim (fun h => ⟨_, _, _, .rule below, h.symm⟩) ih
  | turn exit steps ctx s start below ih =>
    exact (List.suffix_cons_iff.1 h).elim
      (fun h => ⟨_, _, _, .turn exit steps ctx s start below, h.symm⟩) ih
  | nested below ih =>
    exact (List.suffix_cons_iff.1 h).elim (fun h => ⟨_, _, _, .nested below, h.symm⟩) ih

/-- Anywhere on the stack, the frames between two levels are few. -/
theorem length_le_of_infix (stack : Stack ω d n α) {frames : List Frame}
    (h : frames <:+: stack.frames) (hlevel : .nested ∉ frames) : frames.length ≤ maxHeight := by
  obtain ⟨all, hprefix, hsuffix⟩ := List.infix_iff_prefix_suffix.1 h
  obtain ⟨_, _, _, below, rfl⟩ := stack.exists_of_suffix hsuffix
  exact (Nat.le_add_right _ _).trans (below.length_add_le_of_prefix hprefix hlevel)

/-- With a level goes at most its full height. -/
theorem length_frames_le (stack : Stack ω d n α) :
    stack.frames.length + n + d * (maxHeight + 1) ≤ maxHeight + maxNesting * (maxHeight + 1) := by
  induction stack with
  | empty => exact le_of_eq (by rw [frames, List.length_nil, Nat.zero_add])
  | nested below ih =>
    rw [frames, List.length_cons]
    rw [Nat.succ_mul] at ih
    omega
  | _ =>
    rw [frames, List.length_cons]
    omega

end Stack

namespace Config

/-- The kinds of the frames on the stack. -/
def frames : Config ω → List Frame
  | .run _ _ _ stack | .give _ _ stack => stack.frames
  | .fail _ _ => []

/-- What is on the stack is bounded by numbers that depend on nothing. -/
structure Bounded (c : Config ω) : Prop where
  /-- As many rules have gone one level deeper as there are levels, at most. -/
  levels : c.frames.count .nested ≤ maxNesting
  /-- Between two of these, and below the first and on top of the last, there are few frames, and so
  there are few calls of rules. -/
  between : ∀ {frames : List Frame}, frames <:+: c.frames → .nested ∉ frames →
    frames.length ≤ maxHeight
  /-- So the stack is not high. -/
  length : c.frames.length ≤ (maxNesting + 1) * (maxHeight + 1)

theorem bounded_of_frames {c : Config ω} (stack : Stack ω d n α) (h : c.frames = stack.frames) :
    c.Bounded where
  levels := by
    rw [h]
    exact Nat.le_of_add_right_le (le_of_eq stack.count_nested)
  between hinfix hlevel := stack.length_le_of_infix (h ▸ hinfix) hlevel
  length := by
    have hlength := stack.length_frames_le
    rw [h, Nat.succ_mul]
    omega

/-- Whatever the machine does, its stack is bounded. -/
theorem bounded (c : Config ω) : c.Bounded := by
  cases c with
  | run program ctx st stack => exact bounded_of_frames stack rfl
  | give a st stack => exact bounded_of_frames stack rfl
  | fail e st => exact bounded_of_frames .empty rfl

end Config

end

end GoTrace
