import GoTrace.Proofs.Grammar.LocalRules

/-!
# How parsers are put together

A parser is a function, and of a function one cannot ask how deep its calls nest while it runs. A
`Program` for a parser says how it is put together: from looks at the next tokens and from the taking
of a token, in sequences, calls of rules and loops, and from the eight rules that go one level deeper.
It belongs to one parser, the one in its type, so it is not another definition of it.

Two things are told of a program by its type. It has a height, which bounds how many frames it puts
on a stack above the last level; and each turn of a loop takes a token, but for the one that finds
the loop done and leaves with what is there. Programs are found by the search for instances, as they
follow the parsers as these are written.
-/

namespace GoTrace

/-- One of the rules that go one level deeper, by what it returns. -/
inductive NestedRule : Type → Type
  | type : NestedRule Expr
  | expr : NestedRule Expr
  | operand : NestedRule Expr
  | literal (type? : Option Expr) : NestedRule Expr
  | block : NestedRule Block
  | ifStmt : NestedRule Stmt
  | stmt : NestedRule Stmt
  | stmts : NestedRule (List Stmt)

/-- The rule among those given. -/
def NestedRule.parser (rules : Nested) {α : Type} : NestedRule α → Parser α
  | type => rules.type
  | expr => rules.expr
  | operand => rules.operand
  | literal type? => rules.literal type?
  | block => rules.block
  | ifStmt => rules.ifStmt
  | stmt => rules.stmt
  | stmts => rules.stmts

namespace Parser

variable {α : Type} {p : Parser α} {n : Nat}

/-- The parser takes no token, and does the same if there are no tokens behind the next `n`. -/
def Sees (n : Nat) (p : Parser α) : Prop :=
  ∀ ctx st, (p.run ctx).run st =
    (fun result => (result.1, st)) <$> (p.run ctx).run { st with tokens := st.tokens.take n }

theorem Peeks.sees {v : ParseState → α} (h : p.Peeks v)
    (hv : ∀ st : ParseState, v { st with tokens := st.tokens.take n } = v st) : p.Sees n := by
  intro ctx st
  rw [h, h, hv]
  rfl

theorem sees_peekSecondKind? : peekSecondKind?.Sees 2 :=
  peeks_peekSecondKind?.sees fun ⟨tokens, _, _⟩ => by rcases tokens with _ | ⟨_, _ | _⟩ <;> rfl

theorem sees_peekSpan : peekSpan.Sees 1 :=
  peeks_peekSpan.sees fun ⟨tokens, _, _⟩ => by cases tokens <;> rfl

theorem sees_unexpected {expected : Expectation} : (unexpected expected : Parser α).Sees 1 :=
  fun _ ⟨tokens, _, _⟩ => by cases tokens <;> rfl

theorem sees_failHere {fault : ParseFault} : (failHere fault : Parser α).Sees 1 :=
  fun _ ⟨tokens, _, _⟩ => by cases tokens <;> rfl

theorem sees_fromExcept {x : Except ParseError α} : (fromExcept x).Sees 0 :=
  fun _ _ => by cases x <;> rfl

end Parser

/-- The kind of the next token is there if the next token is. -/
theorem ParseState.nextKind?_take (st : ParseState) :
    ParseState.nextKind? { st with tokens := st.tokens.take 1 } = st.nextKind? := by
  obtain ⟨_ | _, _, _⟩ := st <;> rfl

open GoTrace.Parser

/-- What is not taken apart further: a look at the next tokens, or at whether there are any, and the
taking of a token. -/
inductive Atom : {α : Type} → Parser α → Type 1
  | look {α : Type} {p : Parser α} (n : Nat) (h : p.Sees n) : Atom p
  | atEnd : Atom Parser.atEnd
  | take : Atom Parser.take

/-- How a parser is put together, where the rules may go `depth` levels deeper. The number bounds the
frames that it puts on a stack above the last level. -/
class inductive Program (depth : Nat) : (height : Nat) → {α : Type} → Parser α → Type 1
  /-- A look at the next tokens, or the taking of one. -/
  | atom {n : Nat} {α : Type} {p : Parser α} (h : Atom p) : Program depth n p
  /-- A sequence. What comes second waits on the stack, and the stack is as before when it runs. -/
  | seq {n : Nat} {α β : Type} {p : Parser α} {f : α → Parser β} (first : Program depth n p)
      (rest : ∀ a, Program depth (n + 1) (f a)) : Program depth (n + 1) (p >>= f)
  /-- The call of a rule. -/
  | call {n : Nat} {α : Type} {p : Parser α} (body : Program depth n p) : Program depth (n + 1) p
  /-- The call of a rule with composite literals allowed or not. -/
  | withLiterals {n : Nat} {α : Type} {p : Parser α} (allowed : Bool) (body : Program depth n p) :
      Program depth (n + 1) (withLiterals allowed p)
  /-- A loop. A turn takes a token unless it leaves the loop with what `exit` says. -/
  | loop {n : Nat} {σ β : Type} {step : σ → Parser (Turn σ β)} (exit : σ → β) (s : σ)
      (steps : ∀ s, Program depth n (step s))
      (moves : ∀ s, (step s).LocalIf (· ≠ .stop (exit s))) : Program depth (n + 1) (iterate step s)
  /-- A rule that goes one level deeper. -/
  | nested {n : Nat} {α : Type} (r : NestedRule α) : Program depth n (r.parser (.level depth))

namespace Program

variable {d n : Nat} {α β : Type} {p : Parser α}

/-- A program may be said to be higher than it is. -/
@[reducible]
def raise {n : Nat} {α : Type} {p : Parser α} : Program d n p → Program d (n + 1) p
  | .atom h => .atom h
  | .seq first rest => .seq first.raise fun a => (rest a).raise
  | .call body => .call body.raise
  | .withLiterals allowed body => .withLiterals allowed body.raise
  | .loop exit s steps moves => .loop exit s (fun s => (steps s).raise) moves
  | .nested r => .nested r

@[reducible]
def lift (h : Program d n p) : (k : Nat) → Program d (n + k) p
  | 0 => h
  | k + 1 => (h.lift k).raise

/-! ## Sequences and choices -/

instance {f : α → Parser β} [first : Program d n p] [rest : ∀ a, Program d (n + 1) (f a)] :
    Program d (n + 1) (p >>= f) := .seq first rest

instance {g : α → β} [h : Program d (n + 1) (p >>= fun a => pure (g a))] :
    Program d (n + 1) (g <$> p) := h

instance {allowed : Bool} [h : Program d n p] : Program d (n + 1) (Parser.withLiterals allowed p) :=
  .withLiterals allowed h

instance {c : Prop} [h : Decidable c] {q : Parser α} [hp : Program d n p] [hq : Program d n q] :
    Program d n (if c then p else q) :=
  match h with
  | .isTrue _ => hp
  | .isFalse _ => hq

/-! ## Parsers that are not taken apart -/

instance {a : α} : Program d n (pure a : Parser α) := .atom (.look 0 fun _ _ => rfl)

instance : Program d n (read : Parser ParseContext) := .atom (.look 0 fun _ _ => rfl)

instance : Program d n peekKind? :=
  .atom (.look 1 (peeks_peekKind?.sees ParseState.nextKind?_take))

instance : Program d n peekSecondKind? := .atom (.look 2 sees_peekSecondKind?)

instance : Program d n peekSpan := .atom (.look 1 sees_peekSpan)

instance : Program d n peekOp? :=
  .atom (.look 1 (peeks_peekOp?.sees fun st => by rw [st.nextKind?_take]))

instance : Program d n peekKeyword? :=
  .atom (.look 1 (peeks_peekKeyword?.sees fun st => by rw [st.nextKind?_take]))

instance {o : Operator} : Program d n (nextIsOp o) :=
  .atom (.look 1 ((peeks_nextIsOp o).sees fun st => by rw [st.nextKind?_take]))

instance {word : Keyword} : Program d n (nextIsKeyword word) :=
  .atom (.look 1 ((peeks_nextIsKeyword word).sees fun st => by rw [st.nextKind?_take]))

instance : Program d n nextIsIdent :=
  .atom (.look 1 (peeks_nextIsIdent.sees fun st => by rw [st.nextKind?_take]))

instance : Program d n nextIsString :=
  .atom (.look 1 (peeks_nextIsString.sees fun st => by rw [st.nextKind?_take]))

instance : Program d n nextIsWrittenSemicolon :=
  .atom (.look 1 (peeks_nextIsWrittenSemicolon.sees fun st => by rw [st.nextKind?_take]))

instance : Program d n atEnd := .atom .atEnd

instance {span : Span} {fault : ParseFault} : Program d n (failAt span fault : Parser α) :=
  .atom (.look 0 fun _ _ => rfl)

instance {fault : ParseFault} : Program d n (failHere fault : Parser α) :=
  .atom (.look 1 sees_failHere)

instance {expected : Expectation} : Program d n (unexpected expected : Parser α) :=
  .atom (.look 1 sees_unexpected)

instance {x : Except ParseError α} : Program d n (fromExcept x) := .atom (.look 0 sees_fromExcept)

instance : Program d n take := .atom .take

/-! ## Rules of every grammar -/

instance : Program d (n + 2) takePlace := by
  unfold takePlace
  exact .call inferInstance

instance {o : Operator} : Program d (n + 4) (takeOp? o) := by
  unfold takeOp?
  exact .call inferInstance

instance {o : Operator} : Program d (n + 3) (expectOp o) := by
  unfold expectOp
  exact .call inferInstance

instance {word : Keyword} : Program d (n + 3) (expectKeyword word) := by
  unfold expectKeyword
  exact .call inferInstance

instance : Program d (n + 3) expectWrittenSemicolon := by
  unfold expectWrittenSemicolon
  exact .call inferInstance

-- kind by kind, so that there are no casts in the programs of the rules that all others use
instance : Program d (n + 4) expectIdent := by
  refine .call (.seq inferInstance fun kind? => ?_)
  rcases kind? with _ | kind
  · infer_instance
  · cases kind <;> infer_instance

instance : Program d (n + 4) expectLiteral := by
  refine .call (.seq inferInstance fun kind? => ?_)
  rcases kind? with _ | kind
  · infer_instance
  · cases kind <;> infer_instance

instance {close : Operator} : Program d (n + 2) (endOfLine close) := by
  refine .call (.seq inferInstance fun kind? => ?_)
  rcases kind? with _ | kind
  · infer_instance
  · cases kind with
    | semicolon implicit => cases implicit <;> infer_instance
    | _ => infer_instance

instance : Program d (n + 2) endOfDecl := by
  refine .call (.seq inferInstance fun kind? => ?_)
  rcases kind? with _ | kind
  · infer_instance
  · cases kind with
    | semicolon implicit => cases implicit <;> infer_instance
    | _ => infer_instance

/-! ## Loops over items -/

instance {done : Parser Bool} {item : Parser (α × Bool)} {items : Array α} [Program d n done]
    [Program d n item] : Program d (n + 1) (collectStep done item items) := by
  unfold collectStep
  infer_instance

variable {done : Parser Bool}

/-- A loop over items leaves with those read, or behind one more. -/
abbrev collect {item : Parser (α × Bool)} [Program d n done] [Program d n item]
    (hdone : done.Local) (hitem : item.Moves) : Program d (n + 2) (Parser.collect done item) :=
  .loop Array.toList #[] inferInstance fun _ => localIf_collectStep hdone hitem fun h => h rfl

abbrev many {item : Parser α} [Program d (n + 1) done] [Program d n item] (hdone : done.Local)
    (hitem : item.Moves) : Program d (n + 3) (Parser.many done item) :=
  collect hdone (hitem.bind fun _ => local_pure)

/-- Items with commas between them. -/
abbrev commaSeparated {item : Parser α} [first : Program d n item] (hitem : item.Moves) :
    Program d (n + 8) (Parser.commaSeparated item) :=
  have : Program d (n + 2) item := first.lift 2
  have : Program d (n + 6) item := first.lift 6
  have : Program d (n + 6) (Parser.many (do return !(← nextIsOp .comma)) do
      let comma ← takePlace
      return (comma, ← item)) :=
    many ((local_nextIsOp .comma).bind fun _ => local_pure)
      (moves_takePlace.bind fun _ => hitem.local.bind fun _ => local_pure)
  .call (.seq inferInstance fun _ => inferInstance)

end Program

end GoTrace
