import GoTrace.Proofs.Grammar.EnsuresIn
import GoTrace.Proofs.Grammar.Levels
import GoTrace.Proofs.Syntax.Placed

/-!
# The grammar puts everything in its place

Each rule returns a placed tree if the rules one level deeper do, for a statement as for its parts. So
the rules are gone through once more, now with the tokens they are given and with what they are told
about literals: headers are read with literals switched off, brackets and blocks with literals switched
on, which is what the zones of a tree say.

Only primary expressions take more than that. What has been read of one is open (`Expr.Open`) as long as
it is not known what follows: a selector, an index or a call makes it a part of a larger one, a brace
makes it the type of a literal, and anything else closes it. The steps of the loop keep this, and its
end knows the next token (`Grammar.open_primaryStep`).
-/

namespace GoTrace

/-- The rules one level deeper return placed trees. -/
structure Nested.Placing (ts : List Token) (rules : Nested) : Prop where
  type : ∀ {allowed}, rules.type.EnsuresIn ts allowed (Expr.PlacedType ts)
  expr : ∀ {allowed}, rules.expr.EnsuresIn ts allowed (Expr.Placed ts allowed)
  operand : ∀ {allowed}, rules.operand.EnsuresIn ts allowed fun x =>
    x.Placed ts allowed ∧ x.isBinary = false
  literal : ∀ {allowed type? st x st'}, st.tokens <:+ ts →
    (∀ type ∈ type?, type.Open ts allowed st.tokens ∧ (type.isNamed → allowed = true)) →
    (rules.literal type?).Yields ⟨allowed⟩ st x st' →
    st'.tokens <:+ ts ∧ x.Placed ts allowed ∧ x.isBinary = false ∧ x.isNamed = false
  block : ∀ {allowed}, rules.block.EnsuresIn ts allowed fun b => (Stmt.block b).Placed ts true
  ifStmt : rules.ifStmt.EnsuresIn ts true (Stmt.Placed ts true)
  stmt : rules.stmt.EnsuresIn ts true (Stmt.Placed ts true)
  stmts : rules.stmts.EnsuresIn ts true fun stmts => ∀ s ∈ stmts, s.Placed ts true

namespace Grammar

open GoTrace.Parser

variable {ts : List Token} {rules : Nested} {allowed : Bool} (placing : rules.Placing ts)

/-! ## Types -/

theorem placed_typeName : typeName.EnsuresIn ts allowed (Expr.PlacedType ts) := by
  refine ensuresIn_bind fun name => ensuresIn_bind fun period? => ?_
  cases period? with
  | none => exact ensuresIn_pure ⟨rfl, fun _ => Expr.placed_name⟩
  | some period =>
    refine ensuresIn_bind fun selected => ensuresIn_pure ⟨rfl, fun z => ?_⟩
    exact Node.placed_of_parts ⟨rfl, fun _ => rfl, nofun, trivial⟩
      (by simp [Node.partsIn, Expr.partsIn])

include placing

theorem placed_arrayLength? : (arrayLength? rules).EnsuresIn ts allowed
    fun length? => ∀ x ∈ length?, x.Placed ts true := by
  refine ensuresIn_bind fun _ => .ite (ensuresIn_pure nofun) (ensuresIn_bind fun dots? => ?_)
  cases dots? with
  | none =>
    exact EnsuresIn.bind (placing.expr.withLiterals) fun x hx => ensuresIn_pure (by simpa using hx)
  | some dots =>
    have hdots : (Expr.ellipsis dots none).Placed ts true :=
      Expr.placed_of_parts rfl rfl trivial nofun
    exact ensuresIn_pure (by simpa using hdots)

theorem placed_arrayType : (arrayType rules).EnsuresIn ts allowed (Expr.PlacedAnywhere ts) := by
  refine ensuresIn_bind fun lbrack => (placed_arrayLength? placing).bind fun length? hlength => ?_
  refine ensuresIn_bind fun rbrack => placing.type.bind fun element helement => ?_
  refine ensuresIn_pure ⟨rfl, rfl, fun z => Expr.placed_of_parts rfl rfl trivial ?_⟩
  simpa [Expr.partsIn, or_imp, forall_and] using ⟨hlength, helement.2 z⟩

theorem placed_mapType : (mapType rules).EnsuresIn ts allowed (Expr.PlacedAnywhere ts) := by
  refine ensuresIn_bind fun map => ensuresIn_bind fun lbrack => placing.type.bind fun key hkey => ?_
  refine ensuresIn_bind fun rbrack => placing.type.bind fun value hvalue => ?_
  refine ensuresIn_pure ⟨rfl, rfl, fun z => Expr.placed_of_parts rfl rfl trivial ?_⟩
  simpa [Expr.partsIn] using ⟨hkey.2 z, hvalue.2 z⟩

theorem placed_chanType : (chanType rules).EnsuresIn ts allowed (Expr.PlacedAnywhere ts) := by
  have hvalue : ∀ chan arrow? dir, (return Expr.chanType chan arrow? dir (← rules.type)).EnsuresIn
      ts allowed (Expr.PlacedAnywhere ts) := by
    intro chan arrow? dir
    refine placing.type.bind fun value hvalue => ensuresIn_pure ⟨rfl, rfl, fun z => ?_⟩
    exact Expr.placed_of_parts rfl rfl trivial (by simpa [Expr.partsIn] using hvalue.2 z)
  refine ensuresIn_bind fun recv? => ?_
  cases recv? with
  | some arrow => exact ensuresIn_bind fun chan => hvalue chan (some arrow) .recv
  | none =>
    refine ensuresIn_bind fun chan => ensuresIn_bind fun send? => ?_
    cases send? with
    | some arrow => exact hvalue chan (some arrow) .send
    | none => exact hvalue chan none .both

theorem placed_parenType : (parenType rules).EnsuresIn ts allowed (Expr.PlacedType ts) := by
  refine ensuresIn_bind fun lparen => placing.type.bind fun inner hinner => ?_
  refine ensuresIn_bind fun rparen => ensuresIn_pure ⟨rfl, fun z => ?_⟩
  exact Expr.placed_of_parts rfl rfl trivial
    (List.forall_mem_singleton.2 (hinner.2 ⟨true, .other⟩))

theorem placed_pointerType : (pointerType rules).EnsuresIn ts allowed (Expr.PlacedType ts) := by
  refine ensuresIn_bind fun star => placing.type.bind fun x hx => ensuresIn_pure ⟨rfl, fun z => ?_⟩
  exact Expr.placed_of_parts rfl rfl hx.1 (by simpa [Expr.partsIn] using hx.2 z)

omit placing in
theorem placed_bracedFields {field : Parser Field}
    (hfield : field.EnsuresIn ts allowed (Field.Placed ts)) :
    (bracedFields field).EnsuresIn ts allowed (FieldList.Placed ts) := by
  refine ensuresIn_bind fun opening => EnsuresIn.bind (ensuresIn_many (hfield.bind fun field hfield =>
    ensuresIn_bind fun _ => ensuresIn_pure hfield)) fun fields hfields => ?_
  exact ensuresIn_bind fun closing => ensuresIn_pure (FieldList.placed_of_fields hfields)

theorem placed_structField : (structField rules).EnsuresIn ts allowed (Field.Placed ts) := by
  refine ensuresIn_bind fun _ => ensuresIn_bind fun _ =>
    ensuresIn_ite_bind ensuresIn_true ensuresIn_true ?_
  refine fun (names, commas) _ => placing.type.bind fun type htype => ensuresIn_bind fun tag? => ?_
  exact ensuresIn_pure (Field.placed_of_type htype.2)

theorem placed_structType : (structType rules).EnsuresIn ts allowed (Expr.PlacedAnywhere ts) := by
  refine ensuresIn_bind fun struct => ?_
  refine (placed_bracedFields (placed_structField placing)).bind fun l hl => ?_
  refine ensuresIn_pure ⟨rfl, rfl, fun z => Expr.placed_of_parts rfl rfl trivial ?_⟩
  simpa [Expr.partsIn] using hl z.other

theorem placed_parameterType :
    (parameterType rules).EnsuresIn ts allowed (Expr.PlacedType ts) := by
  refine ensuresIn_bind fun dots? => ?_
  cases dots? with
  | none => exact placing.type
  | some dots =>
    refine placing.type.bind fun x hx => ensuresIn_pure ⟨rfl, fun z => ?_⟩
    exact Expr.placed_of_parts rfl rfl trivial (by simpa [Expr.partsIn] using hx.2 z.other)

theorem placed_parameter :
    (parameter rules).EnsuresIn ts allowed fun entry => entry.1.type.PlacedType ts := by
  refine ensuresIn_bind fun _ => ensuresIn_bind fun _ =>
    ensuresIn_ite_bind ensuresIn_true ensuresIn_true ?_
  refine fun name? _ => (placed_parameterType placing).bind fun type htype => ?_
  exact ensuresIn_bind fun comma? => ensuresIn_pure htype

theorem placed_parameters : (parameters rules).EnsuresIn ts allowed (FieldList.Placed ts) := by
  have hcollect : (collect (nextIsOp .rparen) (parameter rules)).EnsuresIn ts allowed
      fun entries => ∀ entry ∈ entries, entry.type.PlacedType ts :=
    ensuresIn_collect (placed_parameter placing)
  refine ensuresIn_bind fun opening => hcollect.bind fun entries hentries => ?_
  refine ensuresIn_bind fun closing =>
    EnsuresIn.bind (ensuresIn_fromExcept fun _ hgroup => hgroup) fun (fields, separators) hgroup => ?_
  refine ensuresIn_pure (FieldList.placed_of_fields fun field hfield => ?_)
  obtain ⟨entry, hentry, htype⟩ := ParamEntry.type_of_group hgroup field hfield
  refine Field.placed_of_type ?_
  rw [← htype]
  exact (hentries entry hentry).2

theorem placed_results? : (results? rules).EnsuresIn ts allowed
    fun results? => ∀ l ∈ results?, l.Placed ts := by
  refine ensuresIn_bind fun _ => .ite ?_ (ensuresIn_bind fun _ => .ite ?_ (ensuresIn_pure nofun))
  · exact (placed_parameters placing).bind fun l hl => ensuresIn_pure (by simpa using hl)
  · refine placing.type.bind fun type htype => ensuresIn_pure ?_
    have hl : FieldList.Placed ts ⟨.paren, none, [⟨[], [], type, none⟩], [], none⟩ :=
      FieldList.placed_of_fields (List.forall_mem_singleton.2 (Field.placed_of_type htype.2))
    simpa using hl

/-- The parts of a signature, with or without the keyword. -/
theorem placed_signature (func? : Option Offset) : (signature rules func?).EnsuresIn ts allowed
    fun type => type.params.Placed ts ∧ ∀ l ∈ type.results?, l.Placed ts :=
  (placed_parameters placing).bind fun _ hparams => (placed_results? placing).bind fun _ hresults =>
    ensuresIn_pure ⟨hparams, hresults⟩

theorem placed_interfaceElem : (interfaceElem rules).EnsuresIn ts allowed (Field.Placed ts) := by
  refine ensuresIn_bind fun _ => ensuresIn_bind fun _ => .ite ?_ ?_
  · refine ensuresIn_bind fun name => (placed_signature placing none).bind
      fun type ⟨hparams, hresults⟩ => ensuresIn_pure (Field.placed_of_type fun z => ?_)
    exact FuncType.placed_of_parts hparams hresults
  · exact placing.type.bind fun type htype => ensuresIn_pure (Field.placed_of_type htype.2)

theorem placed_interfaceType :
    (interfaceType rules).EnsuresIn ts allowed (Expr.PlacedAnywhere ts) := by
  refine ensuresIn_bind fun interface => ?_
  refine (placed_bracedFields (placed_interfaceElem placing)).bind fun l hl => ?_
  refine ensuresIn_pure ⟨rfl, rfl, fun z => Expr.placed_of_parts rfl rfl trivial ?_⟩
  simpa [Expr.partsIn] using hl z.other

theorem placed_funcType : (funcType rules).EnsuresIn ts allowed (Expr.PlacedAnywhere ts) :=
  ensuresIn_bind fun func => (placed_signature placing (some func)).bind
    fun _ ⟨hparams, hresults⟩ =>
      ensuresIn_pure ⟨rfl, rfl, fun _ => FuncType.placed_of_parts hparams hresults⟩

theorem placed_type : (type rules).EnsuresIn ts allowed (Expr.PlacedType ts) := by
  have hanywhere : ∀ {p : Parser Expr}, p.EnsuresIn ts allowed (Expr.PlacedAnywhere ts) →
      p.EnsuresIn ts allowed (Expr.PlacedType ts) := fun h => h.mono fun _ hx => hx.placedType
  refine ensuresIn_bind fun kind? => ?_
  split
  · exact placed_typeName
  · exact placed_pointerType placing
  · exact hanywhere (placed_arrayType placing)
  · exact hanywhere (placed_chanType placing)
  · exact placed_parenType placing
  · exact hanywhere (placed_mapType placing)
  · exact hanywhere (placed_structType placing)
  · exact hanywhere (placed_funcType placing)
  · exact hanywhere (placed_chanType placing)
  · exact hanywhere (placed_interfaceType placing)
  · exact ensuresIn_unexpected

/-! ## Expressions -/

theorem placed_exprList :
    (exprList rules).EnsuresIn ts allowed fun xs => ∀ x ∈ xs.1, x.Placed ts allowed :=
  ensuresIn_commaSeparated placing.expr

/-- Behind no type, a literal is placed in any case. -/
theorem placed_untyped : (rules.literal none).EnsuresIn ts true (Expr.Placed ts true) := by
  intro st x st' htokens hyields
  obtain ⟨htokens', hx, -⟩ := placing.literal htokens (by simp) hyields
  exact ⟨htokens', hx⟩

theorem placed_elementPart : (elementPart rules).EnsuresIn ts true (Expr.Placed ts true) :=
  ensuresIn_bind fun _ => .ite (placed_untyped placing) placing.expr

theorem placed_element : (element rules).EnsuresIn ts true (Expr.Placed ts true) := by
  refine (placed_elementPart placing).bind fun key hkey => ensuresIn_bind fun colon? => ?_
  cases colon? with
  | none => exact ensuresIn_pure hkey
  | some colon =>
    refine (placed_elementPart placing).bind fun value hvalue => ensuresIn_pure ?_
    exact Expr.placed_of_parts rfl rfl trivial (by simpa [Expr.partsIn] using ⟨hkey, hvalue⟩)

theorem placed_elements : (collect (nextIsOp .rbrace) (elementAndComma rules)).EnsuresIn ts true
    fun items => ∀ item ∈ items, item.1.Placed ts true :=
  ensuresIn_collect <| (placed_element placing).bind fun _ helement =>
    ensuresIn_bind fun _ => ensuresIn_pure helement

/-- The opening brace of a literal is the token directly behind its type. -/
theorem placed_literal {type? : Option Expr} {st st' : ParseState} {x : Expr}
    (htokens : st.tokens <:+ ts)
    (htype : ∀ type ∈ type?, type.Open ts allowed st.tokens ∧ (type.isNamed → allowed = true))
    (hyields : (literal rules type?).Yields ⟨allowed⟩ st x st') :
    st'.tokens <:+ ts ∧ x.Placed ts allowed ∧ x.isBinary = false ∧ x.isNamed = false := by
  obtain ⟨lbrace, st₁, hlbrace, hyields⟩ := yields_bind.1 hyields
  obtain ⟨items, st₂, hitems, hyields⟩ := yields_bind.1 hyields
  obtain ⟨rbrace, st₃, hrbrace, hyields⟩ := yields_bind.1 hyields
  obtain ⟨rfl, rfl⟩ := yields_pure.1 hyields
  obtain ⟨t, ht, hkind, hplace⟩ := marks_of_expectOp hlbrace
  have htokens₁ := (Onward.suffix hlbrace).trans htokens
  obtain ⟨htokens₂, hitems⟩ := EnsuresAt.withLiterals (placed_elements placing) htokens₁ hitems
  refine ⟨(Onward.suffix hrbrace).trans htokens₂, ?_, rfl, rfl⟩
  refine Expr.placed_compositeLit (fun type h => (htype type h).1.placed) (fun type h hnamed => ?_)
    (List.forall_mem_map.2 hitems)
  obtain ⟨hopen, hallowed⟩ := htype type h
  have hends := hopen.ends hnamed
  rw [ht.tokens] at hends
  exact ⟨hallowed hnamed, t, st₁.tokens, hends, hkind, hplace⟩

section

variable {base : Expr} (hbase : base.Placed ts allowed) (hbinary : base.isBinary = false)

include hbase hbinary

theorem placed_call :
    (call rules base).EnsuresIn ts allowed fun c => (Expr.call c).Placed ts allowed := by
  have hitem : (argument rules).EnsuresIn ts true fun arg => arg.1.value.Placed ts true :=
    placing.expr.bind fun _ hvalue =>
      ensuresIn_bind fun _ => ensuresIn_bind fun _ => ensuresIn_pure hvalue
  have hcollect : (collect (nextIsOp .rparen) (argument rules)).EnsuresIn ts true
      fun args => ∀ a ∈ args, a.value.Placed ts true := ensuresIn_collect hitem
  refine ensuresIn_bind fun lparen => EnsuresIn.bind hcollect.withLiterals fun args hargs => ?_
  refine ensuresIn_bind fun rparen => ensuresIn_pure ?_
  exact Expr.placed_of_parts rfl rfl hbinary (by simpa [Expr.partsIn] using ⟨hbase, hargs⟩)

omit hbase hbinary in
theorem placed_bound? (ends : List Operator) :
    (bound? rules ends).EnsuresIn ts true fun bound? => ∀ x ∈ bound?, x.Placed ts true := by
  have hexpr : (return some (← rules.expr) : Parser (Option Expr)).EnsuresIn ts true
      fun bound? => ∀ x ∈ bound?, x.Placed ts true :=
    placing.expr.bind fun x hx => ensuresIn_pure (by simpa using hx)
  refine ensuresIn_bind fun op? => ?_
  cases op? with
  | none => exact hexpr
  | some op => exact .ite (ensuresIn_pure nofun) hexpr

theorem open_sliceRest {lbrack : Offset} {low? : Option Expr}
    (hlow : ∀ x ∈ low?, x.Placed ts true) :
    (sliceRest rules base lbrack low?).EnsuresAt ts true (Expr.Open ts allowed) := by
  have hnone : ∀ x ∈ (none : Option Expr), x.Placed ts true := nofun
  have hslice : ∀ {colon high? secondColon? max? rbrack}, (∀ x ∈ high?, x.Placed ts true) →
      (∀ x ∈ max?, x.Placed ts true) → (pure (Expr.slice base lbrack low? colon high? secondColon?
        max? rbrack) : Parser Expr).EnsuresAt ts true (Expr.Open ts allowed) := by
    intro colon high? secondColon? max? rbrack hhigh hmax
    refine ensuresAt_pure fun rest => Expr.Placed.open ?_ rfl rfl
    refine Expr.placed_of_parts rfl rfl hbinary ?_
    simpa [Expr.partsIn, or_imp, forall_and] using ⟨hbase, hlow, hhigh, hmax⟩
  refine ensuresIn_bind fun colon => (placed_bound? placing _).bind fun high? hhigh => ?_
  refine ensuresIn_bind fun _ => .ite ?_ ?_
  · cases high? with
    | none => exact ensuresIn_failHere
    | some high =>
      refine ensuresIn_bind fun secondColon => placing.expr.bind fun max hmax => ?_
      exact ensuresIn_bind fun rbrack => hslice hhigh (by simpa using hmax)
  · exact ensuresIn_bind fun rbrack => hslice hhigh hnone

theorem open_indexOrSlice :
    (indexOrSlice rules base).EnsuresAt ts true (Expr.Open ts allowed) := by
  refine ensuresIn_bind fun lbrack => (placed_bound? placing _).bind fun first? hfirst => ?_
  cases first? with
  | none => exact open_sliceRest placing hbase hbinary nofun
  | some first =>
    refine ensuresIn_bind fun _ => .ite (open_sliceRest placing hbase hbinary hfirst) ?_
    refine (ensuresAt_expectOp .rbrack).bind_pure fun rbrack rest ⟨t, htokens, hkind, hplace⟩ => ?_
    exact Expr.open_index hbase hbinary (hfirst first rfl) htokens hkind hplace

theorem open_typeAssert (period : Offset) :
    (typeAssert rules base period).EnsuresAt ts allowed (Expr.Open ts allowed) := by
  refine ensuresIn_bind fun lparen => ensuresIn_bind fun _ => .ite ?_ ?_
  · refine ensuresIn_bind fun keyword => ensuresIn_bind fun rparen => ensuresAt_pure fun rest => ?_
    refine Expr.Placed.open (Expr.placed_of_parts rfl rfl hbinary ?_) rfl rfl
    simpa [Expr.partsIn] using hbase
  · refine placing.type.bind fun type htype => ensuresIn_bind fun rparen =>
      ensuresAt_pure fun rest => ?_
    refine Expr.Placed.open (Expr.placed_of_parts rfl rfl hbinary ?_) rfl rfl
    simpa [Expr.partsIn] using ⟨hbase, htype.2 _⟩

theorem open_selection : (selection rules base).EnsuresAt ts allowed (Expr.Open ts allowed) := by
  refine ensuresIn_bind fun period => ensuresIn_bind fun _ => .ite ?_ ?_
  · exact open_typeAssert placing hbase hbinary period
  · refine ensuresAt_expectIdent.bind_pure fun name rest ⟨t, htokens, hkind, hplace⟩ => ?_
    exact Expr.open_selector hbase hbinary htokens hkind hplace

end

theorem placed_funcLit : (funcLit rules).EnsuresIn ts allowed fun x =>
    x.Placed ts allowed ∧ x.isBinary = false ∧ x.isNamed = false := by
  refine ensuresIn_bind fun func => (placed_signature placing (some func)).bind
    fun type ⟨hparams, hresults⟩ => ensuresIn_bind fun _ => .ite ?_ ?_
  · refine placing.block.bind fun body hbody => ensuresIn_pure ⟨?_, rfl, rfl⟩
    have htype : (Node.expr (.funcType type)).Placed ts (Zone.other ⟨allowed, .operand⟩) :=
      FuncType.placed_of_parts hparams hresults
    exact Expr.placed_of_parts rfl rfl trivial (by simpa [Expr.partsIn] using ⟨htype, hbody⟩)
  · exact ensuresIn_pure ⟨FuncType.placed_of_parts hparams hresults, rfl, rfl⟩

theorem placed_parenExpr : (parenExpr rules).EnsuresIn ts allowed fun x =>
    x.Placed ts allowed ∧ x.isBinary = false ∧ x.isNamed = false := by
  refine ensuresIn_bind fun lparen => EnsuresIn.bind placing.expr.withLiterals fun inner hinner => ?_
  refine ensuresIn_bind fun rparen => ensuresIn_pure ⟨?_, rfl, rfl⟩
  exact Expr.placed_of_parts rfl rfl trivial (List.forall_mem_singleton.2 hinner)

theorem open_operand : (operand rules).EnsuresAt ts allowed (Expr.Open ts allowed) := by
  have hopen : ∀ {p : Parser Expr}, p.EnsuresIn ts allowed (fun x => x.Placed ts allowed ∧
      x.isBinary = false ∧ x.isNamed = false) → p.EnsuresAt ts allowed (Expr.Open ts allowed) :=
    fun h => EnsuresAt.mono h fun x _ ⟨hx, hbinary, hnamed⟩ => hx.open hbinary hnamed
  have htype : ∀ {p : Parser Expr}, p.EnsuresIn ts allowed (Expr.PlacedAnywhere ts) →
      p.EnsuresAt ts allowed (Expr.Open ts allowed) :=
    fun h => hopen (h.mono fun x ⟨hbinary, hnamed, hx⟩ => ⟨hx _, hbinary, hnamed⟩)
  refine ensuresIn_bind fun kind? => ?_
  split
  · refine ensuresAt_expectIdent.bind_pure fun name rest ⟨t, htokens, hkind, hplace⟩ => ?_
    exact Expr.open_ident htokens hkind hplace
  · exact ensuresIn_bind fun literal => ensuresAt_pure fun rest =>
      Expr.Placed.open Expr.placed_basicLit rfl rfl
  · exact hopen (placed_parenExpr placing)
  · exact htype (placed_arrayType placing)
  · exact htype (placed_mapType placing)
  · exact htype (placed_structType placing)
  · exact hopen (placed_funcLit placing)
  · exact htype (placed_chanType placing)
  · exact htype (placed_interfaceType placing)
  · exact ensuresIn_unexpected

omit placing in
/-- Whether a brace opens a literal depends on what is allowed only behind a name. -/
theorem opensLiteral_cases {x : Expr} {opens : Bool} {st st' : ParseState}
    (h : (opensLiteral x).Yields ⟨allowed⟩ st opens st') :
    st = st' ∧ (opens = true → x.isNamed → allowed = true) ∧
      (¬opens = true → allowed = true → ¬x.isNamed = true) := by
  have hread : (return (← read).literals : Parser Bool).Yields ⟨allowed⟩ st opens st' →
      st = st' ∧ allowed = opens := by
    intro h
    obtain ⟨ctx, _, hctx, h⟩ := yields_bind.1 h
    obtain ⟨rfl, rfl⟩ := yields_read.1 hctx
    obtain ⟨rfl, rfl⟩ := yields_pure.1 h
    exact ⟨rfl, rfl⟩
  cases x with
  | ident | selector | index =>
    obtain ⟨rfl, rfl⟩ := hread h
    exact ⟨rfl, fun hopens _ => hopens, fun hnot hallowed => absurd hallowed hnot⟩
  | _ =>
    obtain ⟨-, rfl⟩ := yields_pure.1 h
    exact ⟨rfl, nofun, nofun⟩

/-- **A step behind an expression** makes it a part of one that is open again, or finds that no literal
follows. -/
theorem open_primaryStep {x : Expr} {turn : Turn Expr Expr} {st st' : ParseState}
    (htokens : st.tokens <:+ ts) (hx : x.Open ts allowed st.tokens)
    (hyields : (primaryStep rules x).Yields ⟨allowed⟩ st turn st') :
    st'.tokens <:+ ts ∧ turn.Keeps (fun y => y.Open ts allowed st'.tokens)
      fun y => y.Placed ts allowed ∧ y.isBinary = false := by
  obtain ⟨op?, st₁, hop, hyields⟩ := yields_bind.1 hyields
  obtain ⟨hseen, rfl⟩ := (yields_of_peeks peeks_peekOp?).1 hop
  -- behind anything but a brace, what has been read is no type of a literal
  have hclose : op? ≠ some .lbrace → x.Placed ts allowed := by
    refine fun hne => hx.close fun _ _ hbrace => hne ?_
    rw [← hseen, ParseState.nextKind?, hbrace]
  split at hyields
  · obtain ⟨y, st₂, hy, hyields⟩ := yields_bind.1 hyields
    obtain ⟨rfl, rfl⟩ := yields_pure.1 hyields
    exact open_selection placing (hclose (by decide)) hx.notBinary htokens hy
  · obtain ⟨y, st₂, hy, hyields⟩ := yields_bind.1 hyields
    obtain ⟨rfl, rfl⟩ := yields_pure.1 hyields
    exact (open_indexOrSlice placing (hclose (by decide)) hx.notBinary).withLiterals htokens hy
  · obtain ⟨y, st₂, hy, hyields⟩ := yields_bind.1 hyields
    obtain ⟨rfl, rfl⟩ := yields_pure.1 hyields
    obtain ⟨htokens', hy⟩ := placed_call placing (hclose (by decide)) hx.notBinary htokens hy
    exact ⟨htokens', Expr.Placed.open hy rfl rfl⟩
  · obtain ⟨opens, st₂, hopens, hyields⟩ := yields_bind.1 hyields
    obtain ⟨rfl, hnamed, hnot⟩ := opensLiteral_cases hopens
    split at hyields
    · rename_i htrue
      obtain ⟨y, st₃, hy, hyields⟩ := yields_bind.1 hyields
      obtain ⟨rfl, rfl⟩ := yields_pure.1 hyields
      obtain ⟨htokens', hplaced, hbinary, hname⟩ :=
        placing.literal htokens (by simpa using ⟨hx, hnamed htrue⟩) hy
      exact ⟨htokens', hplaced.open hbinary hname⟩
    · rename_i hfalse
      obtain ⟨rfl, rfl⟩ := yields_pure.1 hyields
      refine ⟨htokens, hx.close fun hallowed hname => ?_, hx.notBinary⟩
      exact absurd hname (hnot hfalse hallowed)
  · rename_i hbrace
    obtain ⟨rfl, rfl⟩ := yields_pure.1 hyields
    exact ⟨htokens, hclose hbrace, hx.notBinary⟩

theorem placed_primary : (primary rules).EnsuresIn ts allowed fun x =>
    x.Placed ts allowed ∧ x.isBinary = false := by
  intro st x st' htokens hyields
  obtain ⟨y, st₁, hy, hyields⟩ := yields_bind.1 hyields
  obtain ⟨htokens₁, hopen⟩ := open_operand placing htokens hy
  exact ensuresAt_iterate (P := Expr.Open ts allowed)
    (S := fun x _ => x.Placed ts allowed ∧ x.isBinary = false)
    (open_primaryStep placing) htokens₁ hopen hyields

theorem placed_unaryOp (op : Operator) : (unaryOp rules op).EnsuresIn ts allowed fun x =>
    x.Placed ts allowed ∧ x.isBinary = false := by
  refine ensuresIn_bind fun place => placing.operand.bind fun x ⟨hx, hbinary⟩ =>
    ensuresIn_pure ⟨?_, rfl⟩
  exact Expr.placed_of_parts rfl rfl hbinary (by simpa [Expr.partsIn] using hx)

theorem placed_deref : (deref rules).EnsuresIn ts allowed fun x =>
    x.Placed ts allowed ∧ x.isBinary = false := by
  refine ensuresIn_bind fun star => placing.operand.bind fun x ⟨hx, hbinary⟩ =>
    ensuresIn_pure ⟨?_, rfl⟩
  exact Expr.placed_of_parts rfl rfl hbinary (by simpa [Expr.partsIn] using hx)

theorem placed_unary : (unary rules).EnsuresIn ts allowed fun x =>
    x.Placed ts allowed ∧ x.isBinary = false := by
  have hchan : (chanType rules).EnsuresIn ts allowed fun x =>
      x.Placed ts allowed ∧ x.isBinary = false :=
    (placed_chanType placing).mono fun x ⟨hbinary, _, hx⟩ => ⟨hx _, hbinary⟩
  refine ensuresIn_bind fun op? => ?_
  split
  · exact ensuresIn_bind fun _ => .ite hchan (placed_unaryOp placing .arrow)
  · exact placed_unaryOp placing .add
  · exact placed_unaryOp placing .sub
  · exact placed_unaryOp placing .not
  · exact placed_unaryOp placing .xor
  · exact placed_unaryOp placing .and
  · exact placed_deref placing
  · exact placed_primary placing

omit placing in
/-- A turn of a level joins expressions of which the left one holds together at least as tightly as the
operator, and the right one more tightly. -/
theorem placed_binaryStep {precedence : Nat} {operand : Parser Expr}
    (hoperand : operand.EnsuresIn ts allowed fun y =>
      y.Placed ts allowed ∧ precedence < y.tightness) (x : Expr)
    (hx : x.Placed ts allowed ∧ precedence ≤ x.tightness) :
    (binaryStep precedence operand x).EnsuresIn ts allowed
      (Turn.Keeps (fun y => y.Placed ts allowed ∧ precedence ≤ y.tightness)
        fun y => y.Placed ts allowed ∧ precedence ≤ y.tightness) := by
  refine ensuresIn_bind fun op? => ?_
  cases op? with
  | none => exact ensuresIn_pure hx
  | some op =>
    dsimp only
    split
    · rename_i hop
      refine ensuresIn_bind fun place => hoperand.bind fun y ⟨hy, htight⟩ => ensuresIn_pure ?_
      refine ⟨?_, Nat.le_of_eq hop.symm⟩
      exact Expr.placed_of_parts rfl rfl ⟨hop ▸ hx.2, hop ▸ htight⟩
        (by simpa [Expr.partsIn] using ⟨hx.1, hy⟩)
    · exact ensuresIn_pure hx

theorem placed_binary {levels : Nat} (hlevels : levels ≤ 5) :
    (binary rules levels).EnsuresIn ts allowed fun x =>
      x.Placed ts allowed ∧ 5 - levels < x.tightness := by
  induction levels with
  | zero =>
    refine placing.operand.mono fun x ⟨hx, hbinary⟩ => ⟨hx, ?_⟩
    rw [Expr.tightness_of_operand hbinary]
    exact Nat.lt_succ_self 5
  | succ levels ih =>
    have ih := ih (Nat.le_of_succ_le hlevels)
    have hloop : ∀ x : Expr, x.Placed ts allowed ∧ 5 - levels < x.tightness →
        (iterate (binaryStep (5 - levels) (binary rules levels)) x).EnsuresIn ts allowed fun x =>
          x.Placed ts allowed ∧ 5 - levels ≤ x.tightness :=
      fun x ⟨hx, htight⟩ =>
        ensuresIn_iterate ⟨hx, Nat.le_of_lt htight⟩ (placed_binaryStep ih)
    exact (ih.bind hloop).mono fun x _ ⟨hx, htight⟩ => ⟨hx, by omega⟩

theorem placed_expr : (expr rules).EnsuresIn ts allowed (Expr.Placed ts allowed) :=
  (placed_binary placing (Nat.le_refl 5)).mono fun _ hx => hx.1

/-! ## Declarations -/

omit placing in
theorem placed_importSpec : importSpec.EnsuresIn ts true (Spec.Placed ts) := by
  refine ensuresIn_bind fun name? => ensuresIn_bind fun _ => .ite ?_ ensuresIn_unexpected
  refine ensuresIn_bind fun path => ensuresIn_pure (Spec.placed_of_parts ?_)
  simp [Spec.partsIn, or_imp, forall_and]

theorem placed_typeSpec : (typeSpec rules).EnsuresIn ts true (Spec.Placed ts) := by
  refine ensuresIn_bind fun name => ensuresIn_bind fun assign? => placing.type.bind fun type htype => ?_
  exact ensuresIn_pure (Spec.placed_of_parts (by simpa [Spec.partsIn] using htype.2 .body))

theorem placed_valueSpec : (valueSpec rules).EnsuresIn ts true (Spec.Placed ts) := by
  refine ensuresIn_bind fun (names, nameCommas) => ensuresIn_bind fun _ =>
    ensuresIn_ite_bind (ensuresIn_pure nofun) placing.type.some fun type? htype =>
      ensuresIn_bind fun assign? => ?_
  have htype : ∀ x ∈ type?, (Node.expr x).Placed ts Zone.body.other := fun x hx => (htype x hx).2 _
  cases assign? with
  | some assign =>
    refine (placed_exprList placing).bind fun (values, valueCommas) hvalues =>
      ensuresIn_pure (Spec.placed_of_parts ?_)
    simpa [Spec.partsIn, or_imp, forall_and] using ⟨htype, hvalues⟩
  | none =>
    refine ensuresIn_pure (Spec.placed_of_parts ?_)
    simpa [Spec.partsIn, or_imp, forall_and] using htype

theorem placed_spec (keyword : Keyword) :
    (spec rules keyword).EnsuresIn ts true (Spec.Placed ts) := by
  unfold spec
  split
  · exact placed_importSpec
  · exact placed_typeSpec placing
  · exact placed_valueSpec placing

theorem placed_genDecl (keyword : Keyword) :
    (genDecl rules keyword).EnsuresIn ts true fun decl => (Decl.gen decl).Placed ts := by
  refine ensuresIn_bind fun place => ensuresIn_bind fun lparen? => ?_
  cases lparen? with
  | none =>
    refine (placed_spec placing keyword).bind fun spec hspec => ensuresIn_pure ?_
    exact Decl.placed_of_parts (by simpa [Decl.partsIn] using hspec)
  | some lparen =>
    refine EnsuresIn.bind (ensuresIn_many ((placed_spec placing keyword).bind fun spec hspec =>
      ensuresIn_bind fun _ => ensuresIn_pure hspec)) fun specs hspecs => ?_
    refine ensuresIn_bind fun rparen => ensuresIn_pure ?_
    exact Decl.placed_of_parts (by simpa [Decl.partsIn] using hspecs)

/-! ## Simple statements -/

omit placing in
theorem placed_single {exprs : List Expr} (hexprs : ∀ x ∈ exprs, x.Placed ts allowed)
    (expected : Expectation) :
    (single exprs expected).EnsuresIn ts allowed (Expr.Placed ts allowed) := by
  unfold single
  split
  · exact ensuresIn_pure (hexprs _ (List.mem_singleton_self _))
  · exact ensuresIn_unexpected

theorem placed_labeledBody : (labeledBody rules).EnsuresIn ts true (Stmt.Placed ts true) :=
  ensuresIn_bind fun _ => .ite
    (ensuresIn_bind fun _ => ensuresIn_pure (Stmt.placed_of_parts trivial nofun)) placing.stmt

section

variable {left : List Expr} (hleft : ∀ x ∈ left, x.Placed ts allowed)

include hleft

theorem placed_assignment (leftCommas : List Offset) (place : Offset) (op : Operator) :
    (assignment rules left leftCommas place op).EnsuresIn ts allowed (Stmt.Placed ts allowed) := by
  refine (placed_exprList placing).bind fun (right, commas) hright => ensuresIn_pure ?_
  refine Stmt.placed_of_parts trivial ?_
  simpa [Stmt.partsIn, or_imp, forall_and] using ⟨hleft, hright⟩

omit placing in
theorem placed_exprStmt : (exprStmt left).EnsuresIn ts allowed (Stmt.Placed ts allowed) := by
  refine (placed_single hleft _).bind fun x hx => ensuresIn_pure ?_
  exact Stmt.placed_of_parts trivial (by simpa [Stmt.partsIn] using hx)

omit placing in
theorem placed_incDec (op : Operator) :
    (incDec left op).EnsuresIn ts allowed (Stmt.Placed ts allowed) := by
  refine (placed_single hleft _).bind fun x hx => ensuresIn_bind fun place => ensuresIn_pure ?_
  exact Stmt.placed_of_parts trivial (by simpa [Stmt.partsIn] using hx)

theorem placed_send : (send rules left).EnsuresIn ts allowed (Stmt.Placed ts allowed) := by
  refine (placed_single hleft _).bind fun channel hchannel => ensuresIn_bind fun arrow => ?_
  refine placing.expr.bind fun value hvalue => ensuresIn_pure (Stmt.placed_of_parts trivial ?_)
  simpa [Stmt.partsIn] using ⟨hchannel, hvalue⟩

/-- Labels stand where literals are allowed. -/
theorem placed_labeled {labels : Bool} (hlabels : labels = true → allowed = true) :
    (labeled rules labels left).EnsuresIn ts allowed (Stmt.Placed ts allowed) := by
  unfold labeled
  split
  · obtain rfl := hlabels rfl
    refine ensuresIn_bind fun colon => (placed_labeledBody placing).bind fun stmt hstmt => ?_
    exact ensuresIn_pure (Stmt.placed_of_parts trivial (by simpa [Stmt.partsIn] using hstmt))
  · exact placed_exprStmt hleft

theorem placed_simpleRest {labels : Bool} (hlabels : labels = true → allowed = true)
    (leftCommas : List Offset) :
    (simpleRest rules labels left leftCommas).EnsuresIn ts allowed (Stmt.Placed ts allowed) := by
  refine ensuresIn_bind fun op? => ?_
  cases op? with
  | none => exact placed_exprStmt hleft
  | some op =>
    refine .ite (ensuresIn_bind fun place => ?_) ?_
    · exact placed_assignment placing hleft leftCommas place op
    · split
      · exact placed_incDec hleft .inc
      · exact placed_incDec hleft .dec
      · exact placed_labeled placing hleft hlabels
      · exact placed_send placing hleft
      · exact placed_exprStmt hleft

end

theorem placed_simpleStmt {labels : Bool} (hlabels : labels = true → allowed = true) :
    (simpleStmt rules labels).EnsuresIn ts allowed (Stmt.Placed ts allowed) :=
  (placed_exprList placing).bind fun (_, leftCommas) hleft =>
    placed_simpleRest placing hleft hlabels leftCommas

/-- A statement that stands in a header, or in front of the colon of a clause. -/
theorem placed_headerStmt :
    (simpleStmt rules false).EnsuresIn ts allowed (Stmt.Placed ts allowed) :=
  placed_simpleStmt placing nofun

/-! ## Headers -/

omit placing in
theorem placed_asCondition {stmt : Stmt} (hstmt : stmt.Placed ts allowed) {allowed' : Bool} :
    (asCondition stmt).EnsuresIn ts allowed' (Expr.Placed ts allowed) := by
  unfold asCondition
  split
  · exact ensuresIn_pure hstmt.expr
  · exact ensuresIn_failAt

theorem placed_ifHeader : (ifHeader rules).EnsuresIn ts false fun header =>
    (∀ init ∈ header.1, init.Placed ts false) ∧ header.2.2.Placed ts false := by
  refine (placed_headerStmt placing).bind fun stmt hstmt => ensuresIn_bind fun _ => .ite ?_ ?_
  · refine ensuresIn_bind fun semicolon => placing.expr.bind fun cond hcond => ensuresIn_pure ?_
    exact ⟨by simpa using hstmt, hcond⟩
  · exact (placed_asCondition hstmt).bind fun cond hcond => ensuresIn_pure ⟨nofun, hcond⟩

theorem placed_elseBranch : (elseBranch rules).EnsuresIn ts true (Stmt.Placed ts true) :=
  ensuresIn_bind fun _ => .ite placing.ifStmt <| ensuresIn_bind fun _ =>
    .ite (placing.block.bind fun _ hblock => ensuresIn_pure hblock) ensuresIn_unexpected

theorem placed_ifStmt : (ifStmt rules).EnsuresIn ts true (Stmt.Placed ts true) := by
  refine ensuresIn_bind fun place => EnsuresIn.bind (placed_ifHeader placing).withLiterals
    fun (init?, semicolon?, cond) ⟨hinit, hcond⟩ => placing.block.bind fun body hbody => ?_
  refine ensuresIn_bind fun _ => .ite (ensuresIn_bind fun elsePlace => ?_) ?_
  · refine (placed_elseBranch placing).bind fun stmt helse =>
      ensuresIn_pure (Stmt.placed_of_parts trivial ?_)
    simpa [Stmt.partsIn, or_imp, forall_and] using ⟨hinit, hcond, hbody, helse⟩
  · refine ensuresIn_pure (Stmt.placed_of_parts trivial ?_)
    simpa [Stmt.partsIn, or_imp, forall_and] using ⟨hinit, hcond, hbody⟩

/-! ## Loops -/

/-- A loop with this header and a placed body is placed. -/
def LoopHeader.Placed (ts : List Token) (header : LoopHeader) : Prop :=
  ∀ place body, (Stmt.block body).Placed ts true → (header.toStmt place body).Placed ts true

omit placing in
theorem placed_forClause {init? post? : Option Stmt} {cond? : Option Expr}
    {initSemicolon? condSemicolon? : Option Offset} (hinit : ∀ init ∈ init?, init.Placed ts false)
    (hcond : ∀ cond ∈ cond?, cond.Placed ts false) (hpost : ∀ post ∈ post?, post.Placed ts false) :
    LoopHeader.Placed ts (.forClause init? initSemicolon? cond? condSemicolon? post?) := by
  intro place body hbody
  refine Stmt.placed_of_parts trivial ?_
  simpa [LoopHeader.toStmt, Stmt.partsIn, or_imp, forall_and] using ⟨hinit, hcond, hpost, hbody⟩

theorem placed_forClauses {init? : Option Stmt} (hinit : ∀ init ∈ init?, init.Placed ts false) :
    (forClauses rules init?).EnsuresIn ts false (LoopHeader.Placed ts) := by
  refine ensuresIn_bind fun initSemicolon => ensuresIn_bind fun _ =>
    ensuresIn_ite_bind (ensuresIn_pure nofun) placing.expr.some fun cond? hcond => ?_
  refine ensuresIn_bind fun condSemicolon => ensuresIn_bind fun _ => ?_
  exact ensuresIn_ite_bind (ensuresIn_pure nofun) (placed_headerStmt placing).some
    fun post? hpost => ensuresIn_pure (placed_forClause hinit hcond hpost)

theorem placed_forHeaderFrom {stmt : Stmt} (hstmt : stmt.Placed ts false) :
    (forHeaderFrom rules stmt).EnsuresIn ts false (LoopHeader.Placed ts) := by
  refine ensuresIn_bind fun _ => .ite (placed_forClauses placing (by simpa using hstmt)) ?_
  refine (placed_asCondition hstmt).bind fun cond hcond => ensuresIn_pure ?_
  exact placed_forClause nofun (by simpa using hcond) nofun

theorem placed_rangeClause {left : List Expr} (hleft : ∀ x ∈ left, x.Placed ts false)
    (leftCommas : List Offset) (opPlace : Offset) (op : Operator) :
    (rangeClause rules left leftCommas opPlace op).EnsuresIn ts false (LoopHeader.Placed ts) := by
  refine ensuresIn_bind fun range => placing.expr.bind fun operand hoperand => ensuresIn_pure ?_
  intro place body hbody
  refine Stmt.placed_of_parts trivial ?_
  have hkey : ∀ x ∈ left.head?, x.Placed ts false := fun x hx => hleft x (List.mem_of_mem_head? hx)
  have hvalue : ∀ x ∈ left[1]?, x.Placed ts false := fun x hx => hleft x (List.mem_of_getElem? hx)
  generalize left.head? = key? at hkey ⊢
  generalize left[1]? = value? at hvalue ⊢
  simpa [LoopHeader.toStmt, Stmt.partsIn, or_imp, forall_and] using ⟨hkey, hvalue, hoperand, hbody⟩

theorem placed_exprHeader : (exprHeader rules).EnsuresIn ts false (LoopHeader.Placed ts) := by
  refine (placed_exprList placing).bind fun (left, leftCommas) hleft => ensuresIn_bind fun op? => ?_
  cases op? with
  | none => exact (placed_exprStmt hleft).bind fun stmt hstmt => placed_forHeaderFrom placing hstmt
  | some op =>
    refine .ite (ensuresIn_bind fun place => ensuresIn_bind fun isRange => ?_) ?_
    · refine .ite (placed_rangeClause placing hleft leftCommas place op) ?_
      exact (placed_assignment placing hleft leftCommas place op).bind fun stmt hstmt =>
        placed_forHeaderFrom placing hstmt
    · have hlabels : false = true → false = true := id
      exact (placed_simpleRest placing hleft hlabels leftCommas).bind fun stmt hstmt =>
        placed_forHeaderFrom placing hstmt

theorem placed_loopHeader : (loopHeader rules).EnsuresIn ts false (LoopHeader.Placed ts) := by
  refine ensuresIn_bind fun _ => .ite (ensuresIn_pure (placed_forClause nofun nofun nofun)) ?_
  refine ensuresIn_bind fun _ => .ite (placed_forClauses placing nofun) ?_
  refine ensuresIn_bind fun _ => .ite ?_ (placed_exprHeader placing)
  refine ensuresIn_bind fun range => placing.expr.bind fun operand hoperand => ensuresIn_pure ?_
  intro place body hbody
  refine Stmt.placed_of_parts trivial ?_
  simpa [LoopHeader.toStmt, Stmt.partsIn] using ⟨hoperand, hbody⟩

theorem placed_forStmt : (forStmt rules).EnsuresIn ts true (Stmt.Placed ts true) :=
  ensuresIn_bind fun _ => EnsuresIn.bind (placed_loopHeader placing).withLiterals fun _ hheader =>
    placing.block.bind fun _ hbody => ensuresIn_pure (hheader _ _ hbody)

/-! ## Switches and selections -/

omit placing in
/-- A block is placed if its statements are. -/
theorem placed_block_of_stmts {lbrace rbrace : Offset} {stmts : List Stmt}
    (hstmts : ∀ s ∈ stmts, s.Placed ts true) : (Stmt.block ⟨lbrace, stmts, rbrace⟩).Placed ts true :=
  Stmt.placed_of_parts trivial (by simpa [Stmt.partsIn] using hstmts)

omit placing in
theorem placed_clauseBlock {clause : Parser Stmt}
    (hclause : clause.EnsuresIn ts true (Stmt.Placed ts true)) :
    (clauseBlock clause).EnsuresIn ts true fun b => (Stmt.block b).Placed ts true :=
  ensuresIn_bind fun _ => EnsuresIn.bind (ensuresIn_many hclause) fun _ hclauses =>
    ensuresIn_bind fun _ => ensuresIn_pure (placed_block_of_stmts hclauses)

theorem placed_caseClause : (caseClause rules).EnsuresIn ts true (Stmt.Placed ts true) := by
  refine ensuresIn_bind fun _ => .ite
    (ensuresIn_bind fun place => ensuresIn_bind fun colon => placing.stmts.bind fun body hbody =>
      ensuresIn_pure (Stmt.placed_of_parts trivial ?_))
    (ensuresIn_bind fun place => (placed_exprList placing).bind fun (exprs, commas) hexprs =>
      ensuresIn_bind fun colon => placing.stmts.bind fun body hbody =>
        ensuresIn_pure (Stmt.placed_of_parts trivial ?_))
  · simpa [Stmt.partsIn] using hbody
  · simpa [Stmt.partsIn, or_imp, forall_and] using ⟨hexprs, hbody⟩

/-- Behind `case` a statement is read, and none behind `default`. -/
theorem placed_commClause : (commClause rules).EnsuresIn ts true (Stmt.Placed ts true) := by
  refine ensuresIn_bind fun _ => .ite (ensuresIn_bind fun place => ?_)
    (ensuresIn_bind fun place => ?_)
  · refine ensuresIn_bind fun colon => placing.stmts.bind fun body hbody =>
      ensuresIn_pure (Stmt.placed_of_parts (.inr ⟨rfl, rfl⟩) ?_)
    simpa [Stmt.partsIn] using hbody
  · refine (placed_headerStmt placing).bind fun comm hcomm => ensuresIn_bind fun colon =>
      placing.stmts.bind fun body hbody =>
        ensuresIn_pure (Stmt.placed_of_parts (.inl ⟨rfl, rfl⟩) ?_)
    simpa [Stmt.partsIn] using ⟨hcomm, hbody⟩

theorem placed_switchHeader : (switchHeader rules).EnsuresIn ts false fun header =>
    (∀ init ∈ header.1, init.Placed ts false) ∧ ∀ tag ∈ header.2.2, tag.Placed ts false := by
  refine ensuresIn_bind fun _ => .ite (ensuresIn_pure ⟨nofun, nofun⟩) ?_
  refine (placed_headerStmt placing).bind fun stmt hstmt => ensuresIn_bind fun _ => .ite ?_ ?_
  · refine ensuresIn_bind fun semicolon => ensuresIn_bind fun _ =>
      ensuresIn_ite_bind (ensuresIn_pure nofun) (placed_headerStmt placing).some
        fun tag? htag => ensuresIn_pure ⟨by simpa using hstmt, htag⟩
  · exact ensuresIn_pure ⟨nofun, by simpa using hstmt⟩

theorem placed_switchStmt : (switchStmt rules).EnsuresIn ts true (Stmt.Placed ts true) := by
  refine ensuresIn_bind fun place => EnsuresIn.bind (placed_switchHeader placing).withLiterals
    fun (init?, semicolon?, tag?) ⟨hinit, htag⟩ => ?_
  refine (placed_clauseBlock (placed_caseClause placing)).bind fun body hbody => ?_
  cases tag? with
  | none =>
    refine ensuresIn_pure (Stmt.placed_of_parts trivial ?_)
    simpa [Stmt.partsIn, or_imp, forall_and] using ⟨hinit, hbody⟩
  | some tag =>
    have htag := htag tag rfl
    refine .ite (ensuresIn_pure (Stmt.placed_of_parts trivial ?_)) ?_
    · simpa [Stmt.partsIn, or_imp, forall_and] using ⟨hinit, htag, hbody⟩
    · refine (placed_asCondition htag).bind fun cond hcond =>
        ensuresIn_pure (Stmt.placed_of_parts trivial ?_)
      simpa [Stmt.partsIn, or_imp, forall_and] using ⟨hinit, hcond, hbody⟩

theorem placed_selectStmt : (selectStmt rules).EnsuresIn ts true (Stmt.Placed ts true) := by
  refine ensuresIn_bind fun place => (placed_clauseBlock (placed_commClause placing)).bind
    fun body hbody => ensuresIn_pure (Stmt.placed_of_parts trivial ?_)
  exact List.forall_mem_singleton.2 hbody

/-! ## All statements -/

theorem placed_callOperand (keyword : Keyword) :
    (callOperand rules keyword).EnsuresIn ts true fun call => (Expr.call call).Placed ts true := by
  refine placing.expr.bind fun x hx => ?_
  split
  · exact ensuresIn_pure hx
  · exact ensuresIn_failAt

theorem placed_returnStmt : (returnStmt rules).EnsuresIn ts true (Stmt.Placed ts true) := by
  refine ensuresIn_bind fun place => ensuresIn_bind fun _ => .ite ?_ ?_
  · exact ensuresIn_pure (Stmt.placed_of_parts trivial nofun)
  · refine (placed_exprList placing).bind fun (results, commas) hresults => ?_
    exact ensuresIn_pure (Stmt.placed_of_parts trivial (by simpa [Stmt.partsIn] using hresults))

omit placing in
theorem placed_branch (keyword : Keyword) :
    (branch keyword).EnsuresIn ts true (Stmt.Placed ts true) := by
  refine ensuresIn_bind fun place => ensuresIn_bind fun _ =>
    ensuresIn_ite_bind ensuresIn_true ensuresIn_true fun label? _ => ensuresIn_pure ?_
  exact Stmt.placed_of_parts trivial (by simp [Stmt.partsIn])

theorem placed_declStmt (keyword : Keyword) :
    EnsuresIn ts true (do return Stmt.decl (← genDecl rules keyword)) (Stmt.Placed ts true) :=
  (placed_genDecl placing keyword).bind fun _ hdecl =>
    ensuresIn_pure (Stmt.placed_of_parts trivial (List.forall_mem_singleton.2 hdecl))

theorem placed_keywordStmt (keyword : Keyword) :
    (keywordStmt rules keyword).EnsuresIn ts true (Stmt.Placed ts true) := by
  unfold keywordStmt
  split
  · exact placed_declStmt placing .varKw
  · exact placed_declStmt placing .constKw
  · exact placed_declStmt placing .typeKw
  · exact placed_returnStmt placing
  · exact placed_branch .breakKw
  · exact placed_branch .continueKw
  · exact placed_branch .gotoKw
  · exact ensuresIn_bind fun place => ensuresIn_pure (Stmt.placed_of_parts trivial nofun)
  · exact placing.ifStmt
  · exact placed_forStmt placing
  · exact placed_switchStmt placing
  · exact placed_selectStmt placing
  · exact ensuresIn_bind fun place => (placed_callOperand placing .goKw).bind fun call hcall =>
      ensuresIn_pure (Stmt.placed_of_parts trivial (List.forall_mem_singleton.2 hcall))
  · exact ensuresIn_bind fun place => (placed_callOperand placing .deferKw).bind fun call hcall =>
      ensuresIn_pure (Stmt.placed_of_parts trivial (List.forall_mem_singleton.2 hcall))
  · exact placed_simpleStmt placing fun _ => rfl

theorem placed_stmt : (stmt rules).EnsuresIn ts true (Stmt.Placed ts true) := by
  refine ensuresIn_bind fun kind? => ?_
  split
  · exact placed_keywordStmt placing _
  · exact placing.block.bind fun _ hblock => ensuresIn_pure hblock
  · exact ensuresIn_bind fun place => ensuresIn_pure (Stmt.placed_of_parts trivial nofun)
  · exact placed_simpleStmt placing fun _ => rfl

theorem placed_stmts :
    (stmts rules).EnsuresIn ts true fun stmts => ∀ s ∈ stmts, s.Placed ts true :=
  ensuresIn_many <| (placed_stmt placing).bind fun _ hstmt => .ite (ensuresIn_pure hstmt) <|
    ensuresIn_bind fun _ => ensuresIn_pure hstmt

theorem placed_block :
    (block rules).EnsuresIn ts allowed fun b => (Stmt.block b).Placed ts true :=
  ensuresIn_bind fun _ => EnsuresIn.bind (placed_stmts placing).withLiterals fun _ hstmts =>
    ensuresIn_bind fun _ => ensuresIn_pure (placed_block_of_stmts hstmts)

/-! ## Files -/

theorem placed_funcDecl :
    (funcDecl rules).EnsuresIn ts true fun decl => (Decl.func decl).Placed ts := by
  refine ensuresIn_bind fun func => ensuresIn_bind fun _ => ensuresIn_ite_bind
    (placed_parameters placing).some (ensuresIn_pure nofun) fun receiver? hreceiver => ?_
  refine ensuresIn_bind fun name => ensuresIn_bind fun _ => .ite ensuresIn_failHere ?_
  refine (placed_signature placing none).bind fun type ⟨hparams, hresults⟩ =>
    ensuresIn_bind fun _ => ?_
  refine ensuresIn_ite_bind placing.block.some (ensuresIn_pure nofun) fun body? hbody =>
    ensuresIn_pure (Decl.placed_of_parts ?_)
  have hreceiver := fun l hl => hreceiver l hl Zone.body.other
  have hresults := fun l hl => hresults l hl Zone.body.other
  simpa [Decl.partsIn, or_imp, forall_and] using
    ⟨hreceiver, hparams Zone.body.other, hresults, hbody⟩

theorem placed_decl : (decl rules).EnsuresIn ts true (Decl.Placed ts) := by
  refine ensuresIn_bind fun keyword? => ?_
  split
  · exact (placed_funcDecl placing).bind fun _ hdecl => ensuresIn_pure hdecl
  · exact (placed_genDecl placing .importKw).bind fun _ hdecl => ensuresIn_pure hdecl
  · exact (placed_genDecl placing .varKw).bind fun _ hdecl => ensuresIn_pure hdecl
  · exact (placed_genDecl placing .constKw).bind fun _ hdecl => ensuresIn_pure hdecl
  · exact (placed_genDecl placing .typeKw).bind fun _ hdecl => ensuresIn_pure hdecl
  · exact ensuresIn_unexpected

theorem placed_file :
    (file rules).EnsuresIn ts true fun file => (Node.file file).Placed ts .body := by
  refine ensuresIn_bind fun package => ensuresIn_bind fun name => ensuresIn_bind fun _ => ?_
  refine EnsuresIn.bind (ensuresIn_many ((placed_decl placing).bind fun decl hdecl =>
    ensuresIn_bind fun _ => ensuresIn_pure hdecl)) fun decls hdecls => ?_
  refine ensuresIn_bind fun last => ensuresIn_bind fun state => ensuresIn_pure ?_
  have hname : (Node.expr (.ident name)).Placed ts .body := Expr.placed_name (z := .body)
  exact Node.placed_of_parts trivial (by simpa [Node.partsIn] using ⟨hname, hdecls⟩)

end Grammar

/-! ## All levels -/

/-- The rules of every level return placed trees. -/
theorem placing_level (ts : List Token) (depth : Nat) : (Nested.level depth).Placing ts := by
  induction depth with
  | zero =>
    exact {
      type := fun {_} => Parser.ensuresIn_failHere
      expr := fun {_} => Parser.ensuresIn_failHere
      operand := fun {_} => Parser.ensuresIn_failHere
      literal := fun {_ _ _ _ _} _ _ hyields => absurd hyields Parser.not_yields_failHere
      block := fun {_} => Parser.ensuresIn_failHere
      ifStmt := Parser.ensuresIn_failHere
      stmt := Parser.ensuresIn_failHere
      stmts := Parser.ensuresIn_failHere }
  | succ depth placing =>
    exact {
      type := fun {_} => Grammar.placed_type placing
      expr := fun {_} => Grammar.placed_expr placing
      operand := fun {_} => Grammar.placed_unary placing
      literal := Grammar.placed_literal placing
      block := fun {_} => Grammar.placed_block placing
      ifStmt := Grammar.placed_ifStmt placing
      stmt := Grammar.placed_stmt placing
      stmts := Grammar.placed_stmts placing }

/-- **The tree of some tokens is placed**, as one that stands in no header. -/
theorem placed_of_parseTokens {ts : List Token} {file : File} (h : parseTokens ts = .ok file) :
    (Node.file file).Placed ts .body := by
  rw [parseTokens] at h
  split at h
  · rename_i read st hyields
    obtain rfl := Except.ok.inj h
    exact (Grammar.placed_file (placing_level ts maxNesting) (List.suffix_refl ts) hyields).2
  · cases h

end GoTrace
