import GoTrace.Proofs.Grammar.LocalRules

/-!
# The last token that a declaration takes

An implicit semicolon behind a declaration is left for the rule that ends the line: the last token
that a declaration takes is written. `Parser.Tight` says so of a parser that takes tokens, and
`Parser.Solid` of one that may take none. Blocks and composite literals end with a brace, so nothing
has to be said of the statements and elements in them.
-/

namespace GoTrace

/-- From `st` to `st'` tokens are taken, the last of which is written. -/
def EndsWritten (st st' : ParseState) : Prop :=
  ∃ ts t, Passes st (ts ++ [t]) st' ∧ t.kind.isWritten

/-- It does not matter what is taken before. -/
theorem EndsWritten.behind {st st₁ st' : ParseState} {ts : List Token} (h : EndsWritten st₁ st')
    (hts : Passes st ts st₁) : EndsWritten st st' := by
  obtain ⟨us, t, hus, ht⟩ := h
  exact ⟨ts ++ us, t, by rw [List.append_assoc]; exact hts.append hus, ht⟩

theorem EndsWritten.trans {st st₁ st' : ParseState} (h : EndsWritten st st₁)
    (h' : EndsWritten st₁ st') : EndsWritten st st' := by
  obtain ⟨ts, t, hts, -⟩ := h
  exact h'.behind hts

/-- A token of a written kind is taken. -/
theorem Marks.endsWritten {kind : TokenKind} {place : Offset} {st st' : ParseState}
    (h : Marks kind place st st') (hkind : kind.isWritten) : EndsWritten st st' := by
  obtain ⟨t, ht, rfl, -⟩ := h
  exact ⟨[], t, .cons ht .nil, hkind⟩

namespace Parser

variable {α β σ : Type}

/-- If a parser takes tokens, the last of them is written. -/
def Solid (p : Parser α) : Prop :=
  ∀ ⦃ctx st a st'⦄, p.Yields ctx st a st' → st = st' ∨ EndsWritten st st'

/-- A parser takes tokens, and the last of them is written. -/
def Tight (p : Parser α) : Prop :=
  ∀ ⦃ctx st a st'⦄, p.Yields ctx st a st' → EndsWritten st st'

variable {p : Parser α} {f : α → Parser β}

theorem Tight.solid (h : p.Tight) : p.Solid := fun _ _ _ _ hyields => .inr (h hyields)

/-! ## Sequences and choices -/

/-- A sequence of solid parsers is solid. -/
theorem Solid.bind (hp : p.Solid) (hf : ∀ a, (f a).Solid) : (p >>= f).Solid := by
  intro ctx st b st' hyields
  obtain ⟨a, st₁, hfirst, hsecond⟩ := yields_bind.1 hyields
  obtain rfl | hends := hp hfirst
  · exact hf a hsecond
  · obtain rfl | hends' := hf a hsecond
    · exact .inr hends
    · exact .inr (hends.trans hends')

/-- Behind a parser that takes tokens, one that is solid may follow. -/
theorem Tight.bind (hp : p.Tight) (hf : ∀ a, (f a).Solid) : (p >>= f).Tight := by
  intro ctx st b st' hyields
  obtain ⟨a, st₁, hfirst, hsecond⟩ := yields_bind.1 hyields
  obtain rfl | hends := hf a hsecond
  · exact hp hfirst
  · exact (hp hfirst).trans hends

/-- It does not matter what is read in front of a parser that takes tokens. -/
theorem Local.bindTight (hp : p.Local) (hf : ∀ a, (f a).Tight) : (p >>= f).Tight := by
  intro ctx st b st' hyields
  obtain ⟨a, st₁, hfirst, hsecond⟩ := yields_bind.1 hyields
  obtain ⟨ts, hts, -, -⟩ := hp st hfirst
  exact (hf a hsecond).behind hts

theorem Tight.map {g : α → β} (hp : p.Tight) : (g <$> p).Tight := by
  intro ctx st b st' hyields
  obtain ⟨a, ha, rfl⟩ := yields_map.1 hyields
  exact hp ha

theorem solid_pure {a : α} : (pure a : Parser α).Solid :=
  fun _ _ _ _ hyields => .inl (yields_pure.1 hyields).2

/-- A look ahead takes nothing. -/
theorem Peeks.solid {v : ParseState → α} (h : p.Peeks v) : p.Solid :=
  fun _ _ _ _ hyields => .inl ((yields_of_peeks h).1 hyields).2

/-- Behind a look ahead, tokens are taken. -/
theorem Peeks.bindTight {v : ParseState → α} (h : p.Peeks v) (hf : ∀ a, (f a).Tight) :
    (p >>= f).Tight := fun _ _ _ _ hyields => hf _ ((yields_peek h).1 hyields)

theorem solid_read : (read : Parser ParseContext).Solid :=
  fun _ _ _ _ hyields => .inl (Prod.mk.inj (Except.ok.inj hyields)).2

theorem tight_unexpected {expected : Expectation} : (unexpected expected : Parser α).Tight :=
  fun _ _ _ _ hyields => absurd hyields not_yields_unexpected

theorem tight_failHere {fault : ParseFault} : (failHere fault : Parser α).Tight :=
  fun _ _ _ _ hyields => absurd hyields not_yields_failHere

theorem Tight.ite {c : Prop} [Decidable c] {q : Parser α} (hp : p.Tight) (hq : q.Tight) :
    (if c then p else q).Tight := by
  split
  · exact hp
  · exact hq

theorem Solid.ite {c : Prop} [Decidable c] {q : Parser α} (hp : p.Solid) (hq : q.Solid) :
    (if c then p else q).Solid := by
  split
  · exact hp
  · exact hq

theorem Tight.withLiterals {allowed : Bool} (h : p.Tight) : (withLiterals allowed p).Tight :=
  fun _ _ _ _ hyields => h (yields_withLiterals.1 hyields)

theorem solid_fromExcept {x : Except ParseError α} : (fromExcept x).Solid :=
  fun _ _ _ _ hyields => .inl (yields_fromExcept hyields).2

/-! ## Tokens -/

theorem tight_expectOp (op : Operator) : (expectOp op).Tight :=
  fun _ _ _ _ hyields => (marks_of_expectOp hyields).endsWritten rfl

theorem tight_expectKeyword (word : Keyword) : (expectKeyword word).Tight :=
  fun _ _ _ _ hyields => (marks_of_expectKeyword hyields).endsWritten rfl

theorem tight_expectIdent : expectIdent.Tight :=
  fun _ _ _ _ hyields => (marks_of_expectIdent hyields).endsWritten rfl

theorem tight_expectLiteral : expectLiteral.Tight :=
  fun _ _ _ _ hyields => (marks_of_expectLiteral hyields).endsWritten rfl

theorem solid_takeOp? (op : Operator) : (takeOp? op).Solid := by
  intro ctx st place? st' hyields
  replace hyields := marks_of_takeOp? hyields
  cases place? with
  | none => exact .inl hyields
  | some place => exact .inr (Marks.endsWritten hyields rfl)

/-! ## Loops -/

/-- A loop of solid steps is solid. -/
theorem solid_iterate {step : σ → Parser (Turn σ β)} (hstep : ∀ s, (step s).Solid) (s : σ) :
    (iterate step s).Solid := by
  intro ctx st b st' hyields
  have hbehind : ∀ {s st₁ turn st₂}, st = st₁ ∨ EndsWritten st st₁ →
      (step s).Yields ctx st₁ turn st₂ → st = st₂ ∨ EndsWritten st st₂ := by
    rintro s st₁ turn st₂ (rfl | hends) hturn
    · exact hstep s hturn
    · obtain rfl | hends' := hstep s hturn
      · exact .inr hends
      · exact .inr (hends.trans hends')
  exact invariant_of_iterate (P := fun _ st₁ => st = st₁ ∨ EndsWritten st st₁)
    (Q := fun _ st₁ => st = st₁ ∨ EndsWritten st st₁) hbehind hbehind (.inl rfl) hyields

theorem solid_many {done : Parser Bool} {item : Parser α} (hdone : done.Solid)
    (hitem : item.Solid) : (many done item).Solid := by
  refine solid_iterate (fun items => hdone.bind fun _ => .ite solid_pure ?_) #[]
  exact (hitem.bind fun _ => solid_pure).bind fun _ => .ite solid_pure solid_pure

theorem tight_commaSeparated {item : Parser α} (hitem : item.Tight) :
    (commaSeparated item).Tight := by
  refine hitem.bind fun first => Solid.bind (solid_many ?_ ?_) fun _ => solid_pure
  · exact (peeks_nextIsOp .comma).solid.bind fun _ => solid_pure
  · exact (moves_takePlace.local.bindTight fun _ => hitem.bind fun _ => solid_pure).solid

end Parser

/-- The last token that is taken by a rule that goes one level deeper is written. Of statements this
is not said: a labeled statement may end in front of a brace, with an implicit semicolon. -/
structure Nested.Tight (rules : Nested) : Prop where
  type : rules.type.Tight
  expr : rules.expr.Tight
  operand : rules.operand.Tight
  literal : ∀ type?, (rules.literal type?).Tight
  block : rules.block.Tight

namespace Grammar

open GoTrace.Parser

variable {rules : Nested}

/-! ## Types -/

theorem tight_typeName : typeName.Tight := by
  refine tight_expectIdent.bind fun name => (solid_takeOp? .period).bind fun period? => ?_
  cases period? with
  | none => exact solid_pure
  | some period => exact (tight_expectIdent.bind fun _ => solid_pure).solid

variable (moving : rules.Moving) (tight : rules.Tight)

theorem tight_bracedFields {field : Parser Field} (hfield : field.Moves) :
    (bracedFields field).Tight := by
  refine (moves_expectOp .lbrace).local.bindTight fun _ => Local.bindTight
    (local_many (local_nextIsOp .rbrace) ?_) fun _ =>
      (tight_expectOp .rbrace).bind fun _ => solid_pure
  exact hfield.bind fun _ => (local_endOfLine .rbrace).bind fun _ => local_pure

include moving in
theorem tight_structType : (structType rules).Tight :=
  (moves_expectKeyword .structKw).local.bindTight fun _ =>
    (tight_bracedFields (moves_structField moving)).bind fun _ => solid_pure

include moving in
theorem tight_interfaceType : (interfaceType rules).Tight :=
  (moves_expectKeyword .interfaceKw).local.bindTight fun _ =>
    (tight_bracedFields (moves_interfaceElem moving)).bind fun _ => solid_pure

include moving in
theorem tight_parameters : (parameters rules).Tight :=
  (moves_expectOp .lparen).local.bindTight fun _ =>
    (local_collect (local_nextIsOp .rparen) (moves_parameter moving)).bindTight fun _ =>
      (tight_expectOp .rparen).bind fun _ => solid_fromExcept.bind fun _ => solid_pure

include moving tight in
theorem solid_results? : (results? rules).Solid :=
  (peeks_nextIsOp .lparen).solid.bind fun _ =>
    .ite ((tight_parameters moving).bind fun _ => solid_pure).solid <|
      peeks_peekKind?.solid.bind fun _ =>
        .ite (tight.type.bind fun _ => solid_pure).solid solid_pure

include moving tight in
theorem tight_signature (func? : Option Offset) : (signature rules func?).Tight :=
  (tight_parameters moving).bind fun _ => (solid_results? moving tight).bind fun _ => solid_pure

include moving tight in
theorem tight_funcType : (funcType rules).Tight :=
  moves_takePlace.local.bindTight fun _ => (tight_signature moving tight _).bind fun _ => solid_pure

include moving in
theorem tight_parenType : (parenType rules).Tight :=
  moves_takePlace.local.bindTight fun _ => moving.type.local.bindTight fun _ =>
    (tight_expectOp .rparen).bind fun _ => solid_pure

include tight in
theorem tight_pointerType : (pointerType rules).Tight :=
  moves_takePlace.local.bindTight fun _ => tight.type.bind fun _ => solid_pure

include moving tight in
theorem tight_arrayType : (arrayType rules).Tight :=
  (moves_expectOp .lbrack).local.bindTight fun _ => (local_arrayLength? moving).bindTight fun _ =>
    (moves_expectOp .rbrack).local.bindTight fun _ => tight.type.bind fun _ => solid_pure

include moving tight in
theorem tight_mapType : (mapType rules).Tight :=
  (moves_expectKeyword .mapKw).local.bindTight fun _ => (moves_expectOp .lbrack).local.bindTight
    fun _ => moving.type.local.bindTight fun _ => (moves_expectOp .rbrack).local.bindTight fun _ =>
      tight.type.bind fun _ => solid_pure

include tight in
theorem tight_chanType : (chanType rules).Tight := by
  refine (local_takeOp? .arrow).bindTight fun recv? => ?_
  cases recv? with
  | some arrow =>
    exact (tight_expectKeyword .chanKw).bind fun _ => (tight.type.bind fun _ => solid_pure).solid
  | none =>
    refine (moves_expectKeyword .chanKw).local.bindTight fun _ =>
      (local_takeOp? .arrow).bindTight fun send? => ?_
    cases send? with
    | some arrow => exact tight.type.bind fun _ => solid_pure
    | none => exact tight.type.bind fun _ => solid_pure

include moving tight in
theorem tight_type : (type rules).Tight := by
  refine local_peekKind?.bindTight fun kind? => ?_
  split
  · exact tight_typeName
  · exact tight_pointerType tight
  · exact tight_arrayType moving tight
  · exact tight_chanType tight
  · exact tight_parenType moving
  · exact tight_mapType moving tight
  · exact tight_structType moving
  · exact tight_funcType moving tight
  · exact tight_chanType tight
  · exact tight_interfaceType moving
  · exact tight_unexpected

/-! ## Expressions -/

include tight in
theorem tight_exprList : (exprList rules).Tight := tight_commaSeparated tight.expr

include moving in
theorem tight_literal (type? : Option Expr) : (literal rules type?).Tight :=
  (moves_expectOp .lbrace).local.bindTight fun _ =>
    (local_collect (local_nextIsOp .rbrace) (moves_elementAndComma moving)).withLiterals.bindTight
      fun _ => (tight_expectOp .rbrace).bind fun _ => solid_pure

include moving in
theorem tight_call (fn : Expr) : (call rules fn).Tight :=
  (moves_expectOp .lparen).local.bindTight fun _ =>
    (local_collect (local_nextIsOp .rparen) (moves_argument moving)).withLiterals.bindTight
      fun _ => (tight_expectOp .rparen).bind fun _ => solid_pure

include moving in
theorem tight_sliceRest (base : Expr) (lbrack : Offset) (low? : Option Expr) :
    (sliceRest rules base lbrack low?).Tight := by
  have hclose : ∀ g : Offset → Expr, (expectOp .rbrack >>= fun rbrack => pure (g rbrack)).Tight :=
    fun g => (tight_expectOp .rbrack).bind fun _ => solid_pure
  refine (moves_expectOp .colon).local.bindTight fun _ =>
    (local_bound? moving _).bindTight fun _ => ?_
  refine (local_nextIsOp .colon).bindTight fun _ => .ite (.ite tight_failHere ?_) (hclose _)
  exact moves_takePlace.local.bindTight fun _ => moving.expr.local.bindTight fun _ => hclose _

include moving in
theorem tight_indexOrSlice (base : Expr) : (indexOrSlice rules base).Tight := by
  refine (moves_expectOp .lbrack).local.bindTight fun lbrack =>
    (local_bound? moving _).bindTight fun first? => ?_
  cases first? with
  | none => exact tight_sliceRest moving base lbrack none
  | some first =>
    refine (local_nextIsOp .colon).bindTight fun _ => .ite ?_ ?_
    · exact tight_sliceRest moving base lbrack (some first)
    · exact (tight_expectOp .rbrack).bind fun _ => solid_pure

include moving in
theorem tight_typeAssert (base : Expr) (period : Offset) :
    (typeAssert rules base period).Tight := by
  have hclose : ∀ g : Offset → Expr, (expectOp .rparen >>= fun rparen => pure (g rparen)).Tight :=
    fun g => (tight_expectOp .rparen).bind fun _ => solid_pure
  refine (moves_expectOp .lparen).local.bindTight fun _ =>
    (local_nextIsKeyword .typeKw).bindTight fun _ => .ite ?_ ?_
  · exact moves_takePlace.local.bindTight fun _ => hclose _
  · exact moving.type.local.bindTight fun _ => hclose _

include moving in
theorem tight_selection (base : Expr) : (selection rules base).Tight :=
  moves_takePlace.local.bindTight fun _ => (local_nextIsOp .lparen).bindTight fun _ =>
    .ite (tight_typeAssert moving base _) (tight_expectIdent.bind fun _ => solid_pure)

include moving tight in
theorem tight_funcLit : (funcLit rules).Tight :=
  (moves_expectKeyword .funcKw).local.bindTight fun _ => (tight_signature moving tight _).bind
    fun _ => (peeks_nextIsOp .lbrace).solid.bind fun _ =>
      .ite (tight.block.bind fun _ => solid_pure).solid solid_pure

include moving in
theorem tight_parenExpr : (parenExpr rules).Tight :=
  moves_takePlace.local.bindTight fun _ => moving.expr.withLiterals.local.bindTight fun _ =>
    (tight_expectOp .rparen).bind fun _ => solid_pure

include moving tight in
theorem tight_operand : (operand rules).Tight := by
  refine local_peekKind?.bindTight fun kind? => ?_
  split
  · exact tight_expectIdent.bind fun _ => solid_pure
  · exact tight_expectLiteral.bind fun _ => solid_pure
  · exact tight_parenExpr moving
  · exact tight_arrayType moving tight
  · exact tight_mapType moving tight
  · exact tight_structType moving
  · exact tight_funcLit moving tight
  · exact tight_chanType tight
  · exact tight_interfaceType moving
  · exact tight_unexpected

theorem solid_opensLiteral (x : Expr) : (opensLiteral x).Solid := by
  cases x with
  | ident | selector | index => exact solid_read.bind fun _ => solid_pure
  | _ => exact solid_pure

include moving tight in
theorem solid_primaryStep (x : Expr) : (primaryStep rules x).Solid := by
  refine peeks_peekOp?.solid.bind fun op? => ?_
  split
  · exact ((tight_selection moving x).bind fun _ => solid_pure).solid
  · exact ((tight_indexOrSlice moving x).withLiterals.bind fun _ => solid_pure).solid
  · exact ((tight_call moving x).bind fun _ => solid_pure).solid
  · refine (solid_opensLiteral x).bind fun _ => .ite ?_ solid_pure
    exact ((tight.literal (some x)).bind fun _ => solid_pure).solid
  · exact solid_pure

include moving tight in
theorem tight_primary : (primary rules).Tight :=
  (tight_operand moving tight).bind (solid_iterate (solid_primaryStep moving tight))

include tight in
theorem tight_unaryOp (op : Operator) : (unaryOp rules op).Tight :=
  moves_takePlace.local.bindTight fun _ => tight.operand.bind fun _ => solid_pure

include tight in
theorem tight_deref : (deref rules).Tight :=
  moves_takePlace.local.bindTight fun _ => tight.operand.bind fun _ => solid_pure

include moving tight in
theorem tight_unary : (unary rules).Tight := by
  refine local_peekOp?.bindTight fun op? => ?_
  split
  · refine Peeks.bindTight peeks_peekSecondKind? fun _ => .ite ?_ ?_
    · exact tight_chanType tight
    · exact tight_unaryOp tight .arrow
  · exact tight_unaryOp tight .add
  · exact tight_unaryOp tight .sub
  · exact tight_unaryOp tight .not
  · exact tight_unaryOp tight .xor
  · exact tight_unaryOp tight .and
  · exact tight_deref tight
  · exact tight_primary moving tight

theorem solid_binaryStep {operand : Parser Expr} (hoperand : operand.Tight) (precedence : Nat)
    (x : Expr) : (binaryStep precedence operand x).Solid := by
  refine peeks_peekOp?.solid.bind fun op? => ?_
  cases op? with
  | none => exact solid_pure
  | some op =>
    refine .ite (Tight.solid ?_) solid_pure
    exact moves_takePlace.local.bindTight fun _ => hoperand.bind fun _ => solid_pure

include tight in
theorem tight_binary (levels : Nat) : (binary rules levels).Tight := by
  induction levels with
  | zero => exact tight.operand
  | succ levels ih => exact ih.bind (solid_iterate (solid_binaryStep ih _))

include tight in
theorem tight_expr : (expr rules).Tight := tight_binary tight 5

/-! ## Declarations -/

theorem tight_importSpec : importSpec.Tight :=
  local_importName?.bindTight fun _ => local_nextIsString.bindTight fun _ =>
    .ite (tight_expectLiteral.bind fun _ => solid_pure) tight_unexpected

include tight in
theorem tight_typeSpec : (typeSpec rules).Tight :=
  moves_expectIdent.local.bindTight fun _ => (local_takeOp? .assign).bindTight fun _ =>
    tight.type.bind fun _ => solid_pure

include tight in
private theorem solid_assignedValues (names : List Ident) (nameCommas : List Offset)
    (type? : Option Expr) : Solid (do
      match ← takeOp? .assign with
      | some assign =>
        let (values, valueCommas) ← exprList rules
        return Spec.values names nameCommas type? (some assign) values valueCommas
      | none => return Spec.values names nameCommas type? none [] []) := by
  refine (solid_takeOp? .assign).bind fun assign? => ?_
  cases assign? with
  | none => exact solid_pure
  | some assign => exact ((tight_exprList tight).bind fun _ => solid_pure).solid

include tight in
theorem tight_valueSpec : (valueSpec rules).Tight := by
  refine (tight_commaSeparated tight_expectIdent).bind fun (names, nameCommas) => ?_
  refine peeks_peekKind?.solid.bind fun _ => .ite ?_ ?_
  · exact solid_pure.bind (solid_assignedValues tight names nameCommas)
  · exact tight.type.map.solid.bind (solid_assignedValues tight names nameCommas)

include tight in
theorem tight_spec (keyword : Keyword) : (spec rules keyword).Tight := by
  unfold spec
  split
  · exact tight_importSpec
  · exact tight_typeSpec tight
  · exact tight_valueSpec tight

include moving tight in
theorem tight_genDecl (keyword : Keyword) : (genDecl rules keyword).Tight := by
  refine (moves_expectKeyword keyword).local.bindTight fun _ =>
    (local_takeOp? .lparen).bindTight fun lparen? => ?_
  cases lparen? with
  | none => exact (tight_spec tight keyword).bind fun _ => solid_pure
  | some lparen =>
    refine Local.bindTight (local_many (local_nextIsOp .rparen) ?_) fun _ =>
      (tight_expectOp .rparen).bind fun _ => solid_pure
    exact (moves_spec moving keyword).bind fun _ => (local_endOfLine .rparen).bind fun _ =>
      local_pure

include moving in
theorem tight_block : (block rules).Tight :=
  (moves_expectOp .lbrace).local.bindTight fun _ => (local_stmts moving).withLiterals.bindTight
    fun _ => (tight_expectOp .rbrace).bind fun _ => solid_pure

include moving tight in
theorem tight_funcDecl : (funcDecl rules).Tight := by
  have hrest : ∀ func receiver?, Tight (do
      let name ← expectIdent
      if ← nextIsOp .lbrack then failHere (.unsupported .typeParameters)
      else
        let type ← signature rules none
        let body? ← if ← nextIsOp .lbrace then some <$> rules.block else pure none
        return FuncDecl.mk func receiver? name type body?) := by
    intro func receiver?
    refine moves_expectIdent.local.bindTight fun _ => (local_nextIsOp .lbrack).bindTight fun _ => ?_
    refine .ite tight_failHere ((tight_signature moving tight none).bind fun _ => ?_)
    refine (peeks_nextIsOp .lbrace).solid.bind fun _ =>
      .ite ?_ (solid_pure.bind fun _ => solid_pure)
    exact (tight.block.map.bind fun _ => solid_pure).solid
  refine (moves_expectKeyword .funcKw).local.bindTight fun func =>
    (local_nextIsOp .lparen).bindTight fun _ => .ite ?_ ?_
  · exact (moves_parameters moving).map.local.bindTight (hrest func)
  · exact local_pure.bindTight (hrest func)

include moving tight in
/-- **The last token of a declaration is written.** So the rule that ends the line finds the
implicit semicolon behind it, or the end of the text. -/
theorem tight_decl : (decl rules).Tight := by
  refine local_peekKeyword?.bindTight fun keyword? => ?_
  split
  · exact (tight_funcDecl moving tight).bind fun _ => solid_pure
  · exact (tight_genDecl moving tight .importKw).bind fun _ => solid_pure
  · exact (tight_genDecl moving tight .varKw).bind fun _ => solid_pure
  · exact (tight_genDecl moving tight .constKw).bind fun _ => solid_pure
  · exact (tight_genDecl moving tight .typeKw).bind fun _ => solid_pure
  · exact tight_unexpected

end Grammar

/-! ## All levels -/

/-- At every level the last token that is taken is written. -/
theorem tight_level (depth : Nat) : (Nested.level depth).Tight := by
  induction depth with
  | zero =>
    exact {
      type := Parser.tight_failHere
      expr := Parser.tight_failHere
      operand := Parser.tight_failHere
      literal := fun _ => Parser.tight_failHere
      block := Parser.tight_failHere }
  | succ depth tight =>
    have moving := moving_level depth
    exact {
      type := Grammar.tight_type moving tight
      expr := Grammar.tight_expr tight
      operand := Grammar.tight_unary moving tight
      literal := Grammar.tight_literal moving
      block := Grammar.tight_block moving }

end GoTrace
