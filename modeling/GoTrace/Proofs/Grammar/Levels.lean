import GoTrace.Proofs.Grammar.Ensures
import GoTrace.Proofs.Grammar.Parameters
import GoTrace.Proofs.Layout.Levels

/-!
# How deep trees can be

Each rule builds a fixed number of constructs around what the rules one level deeper return, and a
loop adds links only, which stand on the level of what they are put around. So what a rule returns
has at most a fixed number of levels more than what those rules return. The largest of these numbers
is seven, for an interface: the type, the list of its methods, a method, its signature, the list of
its parameters, a parameter, and the dots in front of the type of that.

With the nesting of the rules bounded, so are the levels of a file (`levels_le_of_parse`).
-/

namespace GoTrace

/-! ## Levels of nodes -/

section

variable {n : Nat}

/-- A node adds at most one level to its parts. -/
theorem Node.levels_le (node : Node) (h : ∀ part ∈ node.parts, part.layout.levels ≤ n) :
    node.layout.levels ≤ n + 1 := by
  refine Layout.levels_le ?_
  rwa [Node.parts_layout, List.forall_mem_map]

/-- A name has one level. -/
@[simp]
theorem Ident.levels_layout {name : Ident} : name.layout.levels = 1 := rfl

@[simp]
theorem Expr.levels_ident {name : Ident} : (ident name).layout.levels = 1 := rfl

/-- A literal has one level. -/
@[simp]
theorem Expr.levels_basicLit {literal : BasicLit} : (basicLit literal).layout.levels = 1 := rfl

theorem Expr.levels_le {e : Expr} (h : ∀ part ∈ e.parts, part.layout.levels ≤ n) :
    e.layout.levels ≤ n + 1 := Node.levels_le (.expr e) h

theorem Stmt.levels_le {s : Stmt} (h : ∀ part ∈ s.parts, part.layout.levels ≤ n) :
    s.layout.levels ≤ n + 1 := Node.levels_le (.stmt s) h

theorem Spec.levels_le {s : Spec} (h : ∀ part ∈ s.parts, part.layout.levels ≤ n) :
    s.layout.levels ≤ n + 1 := Node.levels_le (.spec s) h

theorem Decl.levels_le {d : Decl} (h : ∀ part ∈ d.parts, part.layout.levels ≤ n) :
    d.layout.levels ≤ n + 1 := Node.levels_le (.decl d) h

/-! ### Links -/

namespace Expr

variable {base : Expr} (hbase : base.layout.levels ≤ n + 1)

theorem levels_compositeLit_le {type? : Option Expr} {elements : List Expr} {lbrace rbrace : Offset}
    {commas : List Offset} (htype : ∀ x ∈ type?, x.layout.levels ≤ n + 1)
    (helements : ∀ x ∈ elements, x.layout.levels ≤ n) :
    (compositeLit type? lbrace elements commas rbrace).layout.levels ≤ n + 1 :=
  Layout.levels_link_le rfl (by simpa using htype) (by simpa [Row.parts] using helements)

include hbase

theorem levels_selector_le {period : Offset} {name : Ident} (hpos : 1 ≤ n) :
    (selector base period name).layout.levels ≤ n + 1 :=
  Layout.levels_link_le rfl (by simpa using hbase) (by simpa [Row.parts] using hpos)

theorem levels_index_le {place : Expr} {lbrack rbrack : Offset} (hplace : place.layout.levels ≤ n) :
    (index base lbrack place rbrack).layout.levels ≤ n + 1 :=
  Layout.levels_link_le rfl (by simpa using hbase) (by simpa [Row.parts] using hplace)

theorem levels_slice_le {low? high? max? : Option Expr} {lbrack colon rbrack : Offset}
    {secondColon? : Option Offset} (hlow : ∀ x ∈ low?, x.layout.levels ≤ n)
    (hhigh : ∀ x ∈ high?, x.layout.levels ≤ n) (hmax : ∀ x ∈ max?, x.layout.levels ≤ n) :
    (slice base lbrack low? colon high? secondColon? max? rbrack).layout.levels ≤ n + 1 :=
  Layout.levels_link_le rfl (by simpa using hbase)
    (by simpa [Row.parts, or_imp, forall_and] using ⟨hlow, hhigh, hmax⟩)

theorem levels_typeAssert_le {type? : Option Expr} {period lparen rparen : Offset}
    {typeKeyword? : Option Offset} (htype : ∀ x ∈ type?, x.layout.levels ≤ n) :
    (typeAssert base period lparen type? typeKeyword? rparen).layout.levels ≤ n + 1 :=
  Layout.levels_link_le rfl (by simpa using hbase) (by simpa [Row.parts] using htype)

theorem levels_binary_le {right : Expr} {place : Offset} {op : Operator}
    (hright : right.layout.levels ≤ n) : (binary base place op right).layout.levels ≤ n + 1 :=
  Layout.levels_link_le rfl (by simpa using hbase) (by simpa [Row.parts] using hright)

theorem levels_call_le {args : List Expr} {lparen rparen : Offset} {commas : List Offset}
    {dots? : Option Offset} (hargs : ∀ x ∈ args, x.layout.levels ≤ n) :
    (call ⟨base, lparen, args, commas, dots?, rparen⟩).layout.levels ≤ n + 1 :=
  Layout.levels_link_le rfl (by simpa using hbase) (by simpa [Row.parts] using hargs)

end Expr

/-! ### Other nodes -/

/-- The names and the tag of a field are on one level. -/
theorem Field.levels_le {field : Field} (h : field.type.layout.levels ≤ n + 1) :
    field.layout.levels ≤ n + 2 := by
  refine Node.levels_le (.field field) ?_
  simpa [Node.parts, Node.layout, or_imp, forall_and] using h

theorem FieldList.levels_le {l : FieldList} (h : ∀ field ∈ l.fields, field.layout.levels ≤ n) :
    l.layout.levels ≤ n + 1 :=
  Node.levels_le (.fieldList l) (by simpa [Node.parts, Node.layout] using h)

/-- The expression of a statement that is only an expression has fewer levels. -/
theorem Stmt.levels_expr {x : Expr} : (expr x).layout.levels = x.layout.levels + 1 := by
  rw [Stmt.layout, Layout.levels]
  simp [NodeKind.isLink, Row.levelsBelow, Row.levels]

theorem Spec.levels_values_le {names : List Ident} {nameCommas valueCommas : List Offset}
    {type? : Option Expr} {assign? : Option Offset} {exprs : List Expr}
    (htype : ∀ x ∈ type?, x.layout.levels ≤ n) (hexprs : ∀ x ∈ exprs, x.layout.levels ≤ n) :
    (values names nameCommas type? assign? exprs valueCommas).layout.levels ≤ n + 2 := by
  refine Spec.levels_le ?_
  have htype := fun x hx => Nat.le_succ_of_le (htype x hx)
  have hexprs := fun x hx => Nat.le_succ_of_le (hexprs x hx)
  simpa [Spec.parts, Node.layout, or_imp, forall_and] using ⟨htype, hexprs⟩

theorem Stmt.levels_ifStmt_le {place : Offset} {init? else? : Option Stmt}
    {semicolon? elsePlace? : Option Offset} {cond : Expr} {body : Block}
    (hinit : ∀ init ∈ init?, init.layout.levels ≤ n + 2) (hcond : cond.layout.levels ≤ n + 2)
    (hbody : body.layout.levels ≤ n) (helse : ∀ stmt ∈ else?, stmt.layout.levels ≤ n) :
    (ifStmt place init? semicolon? cond body elsePlace? else?).layout.levels ≤ n + 3 := by
  refine Stmt.levels_le ?_
  have hbody := Nat.le_trans hbody (Nat.le_add_right n 2)
  have helse := fun x hx => Nat.le_trans (helse x hx) (Nat.le_add_right n 2)
  simpa [Stmt.parts, Node.layout, or_imp, forall_and] using ⟨hinit, hcond, hbody, helse⟩

theorem Stmt.levels_switchStmt_le {place : Offset} {init? : Option Stmt}
    {semicolon? : Option Offset} {tag? : Option Expr} {body : Block}
    (hinit : ∀ init ∈ init?, init.layout.levels ≤ n + 2)
    (htag : ∀ tag ∈ tag?, tag.layout.levels ≤ n + 2) (hbody : body.layout.levels ≤ n + 2) :
    (switchStmt place init? semicolon? tag? body).layout.levels ≤ n + 3 := by
  refine Stmt.levels_le ?_
  simpa [Stmt.parts, Node.layout, or_imp, forall_and] using ⟨hinit, htag, hbody⟩

theorem Stmt.levels_caseClause_le {place colon : Offset} {keyword : Keyword} {exprs : List Expr}
    {commas : List Offset} {body : List Stmt} (hexprs : ∀ x ∈ exprs, x.layout.levels ≤ n)
    (hbody : ∀ stmt ∈ body, stmt.layout.levels ≤ n) :
    (caseClause place keyword exprs commas colon body).layout.levels ≤ n + 1 := by
  refine Stmt.levels_le ?_
  simpa [Stmt.parts, Node.layout, or_imp, forall_and] using ⟨hexprs, hbody⟩

theorem Stmt.levels_commClause_le {place colon : Offset} {keyword : Keyword} {comm? : Option Stmt}
    {body : List Stmt} (hcomm : ∀ comm ∈ comm?, comm.layout.levels ≤ n + 2)
    (hbody : ∀ stmt ∈ body, stmt.layout.levels ≤ n) :
    (commClause place keyword comm? colon body).layout.levels ≤ n + 3 := by
  refine Stmt.levels_le ?_
  have hbody := fun x hx => Nat.le_trans (hbody x hx) (Nat.le_add_right n 2)
  simpa [Stmt.parts, Node.layout, or_imp, forall_and] using ⟨hcomm, hbody⟩

theorem Decl.levels_func_le {place : Offset} {receiver? : Option FieldList} {name : Ident}
    {type : FuncType} {body? : Option Block}
    (hreceiver : ∀ l ∈ receiver?, l.layout.levels ≤ n + 3)
    (hparams : type.params.layout.levels ≤ n + 3)
    (hresults : ∀ l ∈ type.results?, l.layout.levels ≤ n + 3)
    (hbody : ∀ block ∈ body?, block.layout.levels ≤ n) :
    (func ⟨place, receiver?, name, type, body?⟩).layout.levels ≤ n + 4 := by
  refine Decl.levels_le ?_
  have hbody := fun block hblock => Nat.le_trans (hbody block hblock) (Nat.le_add_right n 3)
  simpa [Decl.parts, Node.layout, or_imp, forall_and] using ⟨hreceiver, hparams, hresults, hbody⟩

end

/-! ## Levels of rules -/

/-- What the rules one level deeper return has at most `n` levels. A composite literal may have as
many as its type. -/
structure Nested.Bounded (n : Nat) (rules : Nested) : Prop where
  type : rules.type.Ensures (·.layout.levels ≤ n)
  expr : rules.expr.Ensures (·.layout.levels ≤ n)
  operand : rules.operand.Ensures (·.layout.levels ≤ n)
  literal : ∀ {type? m}, n ≤ m → (∀ x ∈ type?, x.layout.levels ≤ m) →
    (rules.literal type?).Ensures (·.layout.levels ≤ m)
  block : rules.block.Ensures (·.layout.levels ≤ n)
  ifStmt : rules.ifStmt.Ensures (·.layout.levels ≤ n)
  stmt : rules.stmt.Ensures (·.layout.levels ≤ n)
  stmts : rules.stmts.Ensures fun stmts => ∀ stmt ∈ stmts, stmt.layout.levels ≤ n

namespace Grammar

open GoTrace.Parser

variable {n : Nat} {rules : Nested} (bounded : rules.Bounded n)

/-! ## Types -/

theorem levels_typeName : typeName.Ensures (·.layout.levels ≤ 2) := by
  refine ensures_bind fun name => ensures_bind fun period? => ?_
  cases period? with
  | none => exact ensures_pure (Nat.le_succ 1)
  | some period => exact ensures_bind fun _ => ensures_pure (Nat.le_refl 2)

include bounded

theorem levels_arrayLength? :
    (arrayLength? rules).Ensures fun length? => ∀ x ∈ length?, x.layout.levels ≤ n + 1 := by
  refine ensures_bind fun _ => .ite (ensures_pure nofun) (ensures_bind fun dots? => ?_)
  cases dots? with
  | none =>
    refine bounded.expr.withLiterals.bind fun x hx => ensures_pure ?_
    simpa using Nat.le_succ_of_le hx
  | some dots => exact ensures_pure (by simpa using Expr.levels_le (by simp [Expr.parts]))

theorem levels_arrayType : (arrayType rules).Ensures (·.layout.levels ≤ n + 2) := by
  refine ensures_bind fun lbrack => (levels_arrayLength? bounded).bind fun length? hlength => ?_
  refine ensures_bind fun rbrack => bounded.type.bind fun element helement => ensures_pure ?_
  have helement := Nat.le_succ_of_le helement
  exact Expr.levels_le (by
    simpa [Expr.parts, Node.layout, or_imp, forall_and] using ⟨hlength, helement⟩)

theorem levels_mapType : (mapType rules).Ensures (·.layout.levels ≤ n + 1) := by
  refine ensures_bind fun map => ensures_bind fun lbrack => bounded.type.bind fun key hkey => ?_
  refine ensures_bind fun rbrack => bounded.type.bind fun value hvalue => ensures_pure ?_
  exact Expr.levels_le (by simpa [Expr.parts, Node.layout] using ⟨hkey, hvalue⟩)

theorem levels_chanType : (chanType rules).Ensures (·.layout.levels ≤ n + 1) := by
  have hvalue : ∀ chan arrow? dir,
      (return Expr.chanType chan arrow? dir (← rules.type)).Ensures (·.layout.levels ≤ n + 1) := by
    intro chan arrow? dir
    refine bounded.type.bind fun value hvalue => ensures_pure (Expr.levels_le ?_)
    simpa [Expr.parts, Node.layout] using hvalue
  refine ensures_bind fun recv? => ?_
  cases recv? with
  | some arrow => exact ensures_bind fun chan => hvalue chan (some arrow) .recv
  | none =>
    refine ensures_bind fun chan => ensures_bind fun send? => ?_
    cases send? with
    | some arrow => exact hvalue chan (some arrow) .send
    | none => exact hvalue chan none .both

theorem levels_parenType : (parenType rules).Ensures (·.layout.levels ≤ n + 1) := by
  refine ensures_bind fun lparen => bounded.type.bind fun inner hinner => ?_
  refine ensures_bind fun rparen => ensures_pure (Expr.levels_le ?_)
  simpa [Expr.parts, Node.layout] using hinner

theorem levels_pointerType : (pointerType rules).Ensures (·.layout.levels ≤ n + 1) := by
  refine ensures_bind fun star => bounded.type.bind fun x hx => ensures_pure (Expr.levels_le ?_)
  simpa [Expr.parts, Node.layout] using hx

omit bounded in
theorem levels_bracedFields {field : Parser Field} {m : Nat}
    (hfield : field.Ensures (·.layout.levels ≤ m)) :
    (bracedFields field).Ensures (·.layout.levels ≤ m + 1) := by
  refine ensures_bind fun opening => Ensures.bind (ensures_many (hfield.bind fun field hfield =>
    ensures_bind fun _ => ensures_pure hfield)) fun fields hfields => ?_
  exact ensures_bind fun closing => ensures_pure (FieldList.levels_le hfields)

theorem levels_structField : (structField rules).Ensures (·.layout.levels ≤ n + 2) := by
  refine ensures_bind fun _ => ensures_bind fun _ =>
    ensures_ite_bind ensures_true ensures_true ?_
  refine fun (names, commas) _ => bounded.type.bind fun type htype => ensures_bind fun tag? => ?_
  exact ensures_pure (Field.levels_le (Nat.le_succ_of_le htype))

theorem levels_structType : (structType rules).Ensures (·.layout.levels ≤ n + 4) := by
  refine ensures_bind fun struct => ?_
  refine (levels_bracedFields (levels_structField bounded)).bind fun fields hfields => ?_
  refine ensures_pure (Expr.levels_le ?_)
  simpa [Expr.parts, Node.layout] using hfields

theorem levels_parameterType : (parameterType rules).Ensures (·.layout.levels ≤ n + 1) := by
  refine ensures_bind fun dots? => ?_
  cases dots? with
  | none => exact bounded.type.le (Nat.le_succ _)
  | some dots =>
    refine bounded.type.bind fun x hx => ensures_pure (Expr.levels_le ?_)
    simpa [Expr.parts, Node.layout] using hx

theorem levels_parameter : (parameter rules).Ensures (·.1.type.layout.levels ≤ n + 1) := by
  refine ensures_bind fun _ => ensures_bind fun _ =>
    ensures_ite_bind ensures_true ensures_true ?_
  refine fun name? _ => (levels_parameterType bounded).bind fun type htype => ?_
  exact ensures_bind fun comma? => ensures_pure htype

theorem levels_parameters : (parameters rules).Ensures (·.layout.levels ≤ n + 3) := by
  have hcollect : (collect (nextIsOp .rparen) (parameter rules)).Ensures
      fun entries => ∀ entry ∈ entries, entry.type.layout.levels ≤ n + 1 :=
    ensures_collect (levels_parameter bounded)
  refine ensures_bind fun opening => hcollect.bind fun entries hentries => ?_
  refine ensures_bind fun closing =>
    Ensures.bind (ensures_fromExcept fun _ hgroup => hgroup) fun (fields, separators) hgroup => ?_
  refine ensures_pure (FieldList.levels_le fun field hfield => Field.levels_le ?_)
  -- grouping moves names, and leaves each type as it was read
  obtain ⟨entry, hentry, htype⟩ := ParamEntry.type_of_group hgroup field hfield
  rw [← htype]
  exact hentries entry hentry

theorem levels_results? :
    (results? rules).Ensures fun results? => ∀ l ∈ results?, l.layout.levels ≤ n + 3 := by
  refine ensures_bind fun _ => .ite ?_ (ensures_bind fun _ => .ite ?_ (ensures_pure nofun))
  · refine (levels_parameters bounded).bind fun l hl => ensures_pure ?_
    simpa using hl
  · refine bounded.type.bind fun type htype => ensures_pure ?_
    simpa using FieldList.levels_le (by simpa using Field.levels_le (Nat.le_succ_of_le htype))

theorem levels_parts_signature (func? : Option Offset) : (signature rules func?).Ensures fun type =>
    type.params.layout.levels ≤ n + 3 ∧ ∀ l ∈ type.results?, l.layout.levels ≤ n + 3 :=
  (levels_parameters bounded).bind fun _ hparams => (levels_results? bounded).bind fun _ hresults =>
    ensures_pure ⟨hparams, hresults⟩

theorem levels_signature (func? : Option Offset) :
    (signature rules func?).Ensures (·.layout.levels ≤ n + 4) := by
  refine (levels_parts_signature bounded func?).mono fun ⟨func?, params, results?⟩ htype => ?_
  refine Expr.levels_le (e := .funcType ⟨func?, params, results?⟩) ?_
  simpa [Expr.parts, Node.layout] using htype

theorem levels_interfaceElem : (interfaceElem rules).Ensures (·.layout.levels ≤ n + 5) := by
  refine ensures_bind fun _ => ensures_bind fun _ => .ite ?_ ?_
  · refine ensures_bind fun name => (levels_signature bounded none).bind fun type htype => ?_
    exact ensures_pure (Field.levels_le htype)
  · refine bounded.type.bind fun type htype => ensures_pure (Field.levels_le ?_)
    exact Nat.le_trans htype (Nat.le_add_right n 4)

theorem levels_interfaceType : (interfaceType rules).Ensures (·.layout.levels ≤ n + 7) := by
  refine ensures_bind fun interface => ?_
  refine (levels_bracedFields (levels_interfaceElem bounded)).bind fun methods hmethods => ?_
  refine ensures_pure (Expr.levels_le ?_)
  simpa [Expr.parts, Node.layout] using hmethods

theorem levels_funcType : (funcType rules).Ensures (·.layout.levels ≤ n + 4) :=
  ensures_bind fun func => (levels_signature bounded (some func)).bind fun _ htype =>
    ensures_pure htype

theorem levels_type : (type rules).Ensures (·.layout.levels ≤ n + 7) := by
  refine ensures_bind fun kind? => ?_
  split
  · exact levels_typeName.le (by omega)
  · exact (levels_pointerType bounded).le (by omega)
  · exact (levels_arrayType bounded).le (by omega)
  · exact (levels_chanType bounded).le (by omega)
  · exact (levels_parenType bounded).le (by omega)
  · exact (levels_mapType bounded).le (by omega)
  · exact (levels_structType bounded).le (by omega)
  · exact (levels_funcType bounded).le (by omega)
  · exact (levels_chanType bounded).le (by omega)
  · exact levels_interfaceType bounded
  · exact ensures_unexpected

/-! ## Expressions -/

theorem levels_exprList :
    (exprList rules).Ensures fun xs => ∀ x ∈ xs.1, x.layout.levels ≤ n :=
  ensures_commaSeparated bounded.expr

theorem levels_elementPart : (elementPart rules).Ensures (·.layout.levels ≤ n) :=
  ensures_bind fun _ => .ite (bounded.literal (Nat.le_refl n) nofun) bounded.expr

theorem levels_element : (element rules).Ensures (·.layout.levels ≤ n + 1) := by
  refine (levels_elementPart bounded).bind fun key hkey => ensures_bind fun colon? => ?_
  cases colon? with
  | none => exact ensures_pure (Nat.le_succ_of_le hkey)
  | some colon =>
    refine (levels_elementPart bounded).bind fun value hvalue => ensures_pure (Expr.levels_le ?_)
    simpa [Expr.parts, Node.layout] using ⟨hkey, hvalue⟩

theorem levels_elementAndComma :
    (elementAndComma rules).Ensures (·.1.1.layout.levels ≤ n + 1) :=
  (levels_element bounded).bind fun _ helement => ensures_bind fun _ => ensures_pure helement

theorem levels_argument : (argument rules).Ensures (·.1.value.layout.levels ≤ n) :=
  bounded.expr.bind fun _ hvalue => ensures_bind fun _ => ensures_bind fun _ => ensures_pure hvalue

theorem levels_bound? (ends : List Operator) :
    (bound? rules ends).Ensures fun bound? => ∀ x ∈ bound?, x.layout.levels ≤ n := by
  have hexpr : (return some (← rules.expr) : Parser (Option Expr)).Ensures
      fun bound? => ∀ x ∈ bound?, x.layout.levels ≤ n :=
    bounded.expr.bind fun x hx => ensures_pure (by simpa using hx)
  refine ensures_bind fun op? => ?_
  cases op? with
  | none => exact hexpr
  | some op => exact .ite (ensures_pure nofun) hexpr

section

variable {m : Nat} (hm : n + 1 ≤ m)

include hm

theorem levels_literal {type? : Option Expr} (htype : ∀ x ∈ type?, x.layout.levels ≤ m + 1) :
    (literal rules type?).Ensures (·.layout.levels ≤ m + 1) := by
  have hcollect : (collect (nextIsOp .rbrace) (elementAndComma rules)).Ensures
      fun items => ∀ item ∈ items, item.1.layout.levels ≤ n + 1 :=
    ensures_collect (levels_elementAndComma bounded)
  refine ensures_bind fun lbrace => hcollect.withLiterals.bind fun items hitems => ?_
  refine ensures_bind fun rbrace => ensures_pure ?_
  refine Expr.levels_compositeLit_le htype (List.forall_mem_map.2 fun item hitem => ?_)
  exact Nat.le_trans (hitems item hitem) hm

variable {base : Expr} (hbase : base.layout.levels ≤ m + 1)

include hbase

theorem levels_call :
    (call rules base).Ensures fun call => (Expr.call call).layout.levels ≤ m + 1 := by
  have hcollect : (collect (nextIsOp .rparen) (argument rules)).Ensures
      fun args => ∀ a ∈ args, a.value.layout.levels ≤ n :=
    ensures_collect (levels_argument bounded)
  refine ensures_bind fun lparen => hcollect.withLiterals.bind fun args hargs => ?_
  refine ensures_bind fun rparen => ensures_pure ?_
  refine Expr.levels_call_le hbase (List.forall_mem_map.2 fun a ha => ?_)
  exact Nat.le_trans (hargs a ha) (Nat.le_of_succ_le hm)

theorem levels_sliceRest {lbrack : Offset} {low? : Option Expr}
    (hlow : ∀ x ∈ low?, x.layout.levels ≤ m) :
    (sliceRest rules base lbrack low?).Ensures (·.layout.levels ≤ m + 1) := by
  have hle : n ≤ m := Nat.le_of_succ_le hm
  refine ensures_bind fun colon => (levels_bound? bounded _).bind fun high? hhigh => ?_
  replace hhigh := fun x hx => Nat.le_trans (hhigh x hx) hle
  refine ensures_bind fun _ => .ite (.ite ensures_failHere ?_) ?_
  · refine ensures_bind fun secondColon => bounded.expr.bind fun max hmax => ?_
    refine ensures_bind fun rbrack => ensures_pure (Expr.levels_slice_le hbase hlow hhigh ?_)
    simpa using Nat.le_trans hmax hle
  · exact ensures_bind fun rbrack => ensures_pure (Expr.levels_slice_le hbase hlow hhigh nofun)

theorem levels_indexOrSlice : (indexOrSlice rules base).Ensures (·.layout.levels ≤ m + 1) := by
  refine ensures_bind fun lbrack => (levels_bound? bounded _).bind fun first? hfirst => ?_
  replace hfirst := fun x hx => Nat.le_trans (hfirst x hx) (Nat.le_of_succ_le hm)
  cases first? with
  | none => exact levels_sliceRest bounded hm hbase hfirst
  | some first =>
    refine ensures_bind fun _ => .ite (levels_sliceRest bounded hm hbase hfirst) ?_
    exact ensures_bind fun rbrack => ensures_pure (Expr.levels_index_le hbase (hfirst first rfl))

theorem levels_typeAssert (period : Offset) :
    (typeAssert rules base period).Ensures (·.layout.levels ≤ m + 1) := by
  refine ensures_bind fun lparen => ensures_bind fun _ => .ite ?_ ?_
  · exact ensures_bind fun keyword => ensures_bind fun rparen =>
      ensures_pure (Expr.levels_typeAssert_le hbase nofun)
  · refine bounded.type.bind fun type htype => ensures_bind fun rparen => ensures_pure ?_
    refine Expr.levels_typeAssert_le hbase ?_
    simpa using Nat.le_trans htype (Nat.le_of_succ_le hm)

theorem levels_selection : (selection rules base).Ensures (·.layout.levels ≤ m + 1) := by
  refine ensures_bind fun period => ensures_bind fun _ => .ite ?_ ?_
  · exact levels_typeAssert bounded hm hbase period
  · refine ensures_bind fun name => ensures_pure (Expr.levels_selector_le hbase ?_)
    exact Nat.le_trans (Nat.le_add_left 1 n) hm

end

theorem levels_funcLit : (funcLit rules).Ensures (·.layout.levels ≤ n + 5) := by
  refine ensures_bind fun func => (levels_signature bounded (some func)).bind fun type htype => ?_
  refine ensures_bind fun _ => .ite ?_ (ensures_pure (Nat.le_succ_of_le htype))
  refine bounded.block.bind fun body hbody => ensures_pure (Expr.levels_le ?_)
  have hbody := Nat.le_trans hbody (Nat.le_add_right n 4)
  simpa [Expr.parts, Node.layout] using ⟨htype, hbody⟩

theorem levels_parenExpr : (parenExpr rules).Ensures (·.layout.levels ≤ n + 1) := by
  refine ensures_bind fun lparen => bounded.expr.withLiterals.bind fun inner hinner => ?_
  refine ensures_bind fun rparen => ensures_pure (Expr.levels_le ?_)
  simpa [Expr.parts, Node.layout] using hinner

theorem levels_operand : (operand rules).Ensures (·.layout.levels ≤ n + 7) := by
  refine ensures_bind fun kind? => ?_
  split
  · exact ensures_bind fun name => ensures_pure (by simp)
  · exact ensures_bind fun literal => ensures_pure (by simp)
  · exact (levels_parenExpr bounded).le (by omega)
  · exact (levels_arrayType bounded).le (by omega)
  · exact (levels_mapType bounded).le (by omega)
  · exact (levels_structType bounded).le (by omega)
  · exact (levels_funcLit bounded).le (by omega)
  · exact (levels_chanType bounded).le (by omega)
  · exact levels_interfaceType bounded
  · exact ensures_unexpected

/-- A step goes on with a link, which has no more levels than the expression it is put around. -/
theorem levels_primaryStep (x : Expr) (hx : x.layout.levels ≤ n + 7) : (primaryStep rules x).Ensures
    (Turn.Keeps (·.layout.levels ≤ n + 7) (·.layout.levels ≤ n + 7)) := by
  have hm : n + 1 ≤ n + 6 := by omega
  refine ensures_bind fun op? => ?_
  split
  · exact (levels_selection bounded hm hx).bind fun _ hy => ensures_pure hy
  · exact (levels_indexOrSlice bounded hm hx).withLiterals.bind fun _ hy => ensures_pure hy
  · exact (levels_call bounded hm hx).bind fun _ hy => ensures_pure hy
  · refine ensures_bind fun _ => .ite ?_ (ensures_pure hx)
    exact (bounded.literal (by omega) (by simpa using hx)).bind fun _ hy => ensures_pure hy
  · exact ensures_pure hx

theorem levels_primary : (primary rules).Ensures (·.layout.levels ≤ n + 7) :=
  (levels_operand bounded).bind fun _ hx => ensures_iterate hx (levels_primaryStep bounded)

theorem levels_unaryOp (op : Operator) : (unaryOp rules op).Ensures (·.layout.levels ≤ n + 1) := by
  refine ensures_bind fun place => bounded.operand.bind fun x hx => ensures_pure (Expr.levels_le ?_)
  simpa [Expr.parts, Node.layout] using hx

theorem levels_deref : (deref rules).Ensures (·.layout.levels ≤ n + 1) := by
  refine ensures_bind fun star => bounded.operand.bind fun x hx => ensures_pure (Expr.levels_le ?_)
  simpa [Expr.parts, Node.layout] using hx

theorem levels_unary : (unary rules).Ensures (·.layout.levels ≤ n + 7) := by
  have hop : ∀ op, (unaryOp rules op).Ensures (·.layout.levels ≤ n + 7) := fun op =>
    (levels_unaryOp bounded op).le (by omega)
  refine ensures_bind fun op? => ?_
  split
  · refine ensures_bind fun _ => .ite ?_ (hop .arrow)
    exact (levels_chanType bounded).le (by omega)
  · exact hop .add
  · exact hop .sub
  · exact hop .not
  · exact hop .xor
  · exact hop .and
  · exact (levels_deref bounded).le (by omega)
  · exact levels_primary bounded

omit bounded in
theorem levels_binaryStep {operand : Parser Expr} (hoperand : operand.Ensures (·.layout.levels ≤ n))
    (precedence : Nat) (x : Expr) (hx : x.layout.levels ≤ n + 1) :
    (binaryStep precedence operand x).Ensures
      (Turn.Keeps (·.layout.levels ≤ n + 1) (·.layout.levels ≤ n + 1)) := by
  refine ensures_bind fun op? => ?_
  cases op? with
  | none => exact ensures_pure hx
  | some op =>
    refine .ite (ensures_bind fun place => ?_) (ensures_pure hx)
    exact hoperand.bind fun y hy => ensures_pure (Expr.levels_binary_le hx hy)

/-- Each of the levels of operators adds one, however long its chain is. -/
theorem levels_binary (levels : Nat) :
    (binary rules levels).Ensures (·.layout.levels ≤ n + levels) := by
  induction levels with
  | zero => exact bounded.operand
  | succ levels ih =>
    exact ih.bind fun x hx => ensures_iterate (Nat.le_succ_of_le hx) (levels_binaryStep ih _)

theorem levels_expr : (expr rules).Ensures (·.layout.levels ≤ n + 5) := levels_binary bounded 5

/-! ## Declarations -/

omit bounded in
theorem levels_importSpec : importSpec.Ensures (·.layout.levels ≤ 2) := by
  refine ensures_bind fun name? => ensures_bind fun _ => .ite ?_ ensures_unexpected
  refine ensures_bind fun path => ensures_pure (Spec.levels_le ?_)
  simp [Spec.parts, Node.layout, or_imp, forall_and]

theorem levels_typeSpec : (typeSpec rules).Ensures (·.layout.levels ≤ n + 2) := by
  refine ensures_bind fun name => ensures_bind fun assign? => bounded.type.bind fun type htype => ?_
  refine ensures_pure (Spec.levels_le ?_)
  simpa [Spec.parts, Node.layout] using Nat.le_succ_of_le htype

theorem levels_valueSpec : (valueSpec rules).Ensures (·.layout.levels ≤ n + 2) := by
  refine ensures_bind fun (names, nameCommas) => ensures_bind fun _ =>
    ensures_ite_bind (ensures_pure nofun) bounded.type.some fun type? htype =>
      ensures_bind fun assign? => ?_
  cases assign? with
  | none => exact ensures_pure (Spec.levels_values_le htype nofun)
  | some assign =>
    exact (levels_exprList bounded).bind fun (values, valueCommas) hvalues =>
      ensures_pure (Spec.levels_values_le htype hvalues)

theorem levels_spec (keyword : Keyword) :
    (spec rules keyword).Ensures (·.layout.levels ≤ n + 2) := by
  unfold spec
  split
  · exact levels_importSpec.le (by omega)
  · exact levels_typeSpec bounded
  · exact levels_valueSpec bounded

theorem levels_genDecl (keyword : Keyword) :
    (genDecl rules keyword).Ensures (·.layout.levels ≤ n + 3) := by
  have hdecl : ∀ {place lparen? specs rparen?}, (∀ spec ∈ specs, spec.layout.levels ≤ n + 2) →
      (GenDecl.mk place keyword lparen? specs rparen?).layout.levels ≤ n + 3 := by
    intro place lparen? specs rparen? hspecs
    refine Decl.levels_le (d := .gen ⟨place, keyword, lparen?, specs, rparen?⟩) ?_
    simpa [Decl.parts, Node.layout] using hspecs
  refine ensures_bind fun place => ensures_bind fun lparen? => ?_
  cases lparen? with
  | none =>
    refine (levels_spec bounded keyword).bind fun spec hspec => ensures_pure (hdecl ?_)
    simpa using hspec
  | some lparen =>
    refine Ensures.bind (ensures_many ((levels_spec bounded keyword).bind fun spec hspec =>
      ensures_bind fun _ => ensures_pure hspec)) fun specs hspecs => ?_
    exact ensures_bind fun rparen => ensures_pure (hdecl hspecs)

/-! ## Simple statements -/

omit bounded in
theorem levels_single {exprs : List Expr} (hexprs : ∀ x ∈ exprs, x.layout.levels ≤ n)
    (expected : Expectation) : (single exprs expected).Ensures (·.layout.levels ≤ n) := by
  unfold single
  split
  · exact ensures_pure (hexprs _ (List.mem_singleton_self _))
  · exact ensures_unexpected

theorem levels_labeledBody : (labeledBody rules).Ensures (·.layout.levels ≤ n + 1) :=
  ensures_bind fun _ => .ite (ensures_bind fun _ => ensures_pure (Stmt.levels_le nofun))
    (bounded.stmt.le (Nat.le_succ _))

section

variable {left : List Expr} (hleft : ∀ x ∈ left, x.layout.levels ≤ n)

include hleft

theorem levels_assignment (leftCommas : List Offset) (place : Offset) (op : Operator) :
    (assignment rules left leftCommas place op).Ensures (·.layout.levels ≤ n + 1) := by
  refine (levels_exprList bounded).bind fun (right, commas) hright => ?_
  refine ensures_pure (Stmt.levels_le ?_)
  simpa [Stmt.parts, Node.layout, or_imp, forall_and] using ⟨hleft, hright⟩

omit bounded in
theorem levels_exprStmt : (exprStmt left).Ensures (·.layout.levels ≤ n + 1) := by
  refine (levels_single hleft _).bind fun x hx => ensures_pure (Stmt.levels_le ?_)
  simpa [Stmt.parts, Node.layout] using hx

omit bounded in
theorem levels_incDec (op : Operator) : (incDec left op).Ensures (·.layout.levels ≤ n + 1) := by
  refine (levels_single hleft _).bind fun x hx => ensures_bind fun place => ?_
  refine ensures_pure (Stmt.levels_le ?_)
  simpa [Stmt.parts, Node.layout] using hx

theorem levels_send : (send rules left).Ensures (·.layout.levels ≤ n + 1) := by
  refine (levels_single hleft _).bind fun channel hchannel => ensures_bind fun arrow => ?_
  refine bounded.expr.bind fun value hvalue => ensures_pure (Stmt.levels_le ?_)
  simpa [Stmt.parts, Node.layout] using ⟨hchannel, hvalue⟩

theorem levels_labeled (labels : Bool) :
    (labeled rules labels left).Ensures (·.layout.levels ≤ n + 2) := by
  unfold labeled
  split
  · refine ensures_bind fun colon => (levels_labeledBody bounded).bind fun stmt hstmt => ?_
    refine ensures_pure (Stmt.levels_le ?_)
    simpa [Stmt.parts, Node.layout] using hstmt
  · exact (levels_exprStmt hleft).le (Nat.le_succ _)

theorem levels_simpleRest (labels : Bool) (leftCommas : List Offset) :
    (simpleRest rules labels left leftCommas).Ensures (·.layout.levels ≤ n + 2) := by
  have hexpr : (exprStmt left).Ensures (·.layout.levels ≤ n + 2) :=
    (levels_exprStmt hleft).le (Nat.le_succ _)
  refine ensures_bind fun op? => ?_
  cases op? with
  | none => exact hexpr
  | some op =>
    refine .ite (ensures_bind fun place => ?_) ?_
    · exact (levels_assignment bounded hleft leftCommas place op).le (Nat.le_succ _)
    · split
      · exact (levels_incDec hleft _).le (Nat.le_succ _)
      · exact (levels_incDec hleft _).le (Nat.le_succ _)
      · exact levels_labeled bounded hleft labels
      · exact (levels_send bounded hleft).le (Nat.le_succ _)
      · exact hexpr

end

theorem levels_simpleStmt (labels : Bool) :
    (simpleStmt rules labels).Ensures (·.layout.levels ≤ n + 2) :=
  (levels_exprList bounded).bind fun (_, leftCommas) hleft =>
    levels_simpleRest bounded hleft labels leftCommas

/-! ## Headers -/

omit bounded in
theorem levels_asCondition {stmt : Stmt} (hstmt : stmt.layout.levels ≤ n + 1) :
    (asCondition stmt).Ensures (·.layout.levels ≤ n) := by
  unfold asCondition
  split
  · rw [Stmt.levels_expr] at hstmt
    exact ensures_pure (Nat.le_of_succ_le_succ hstmt)
  · exact ensures_failAt

theorem levels_ifHeader : (ifHeader rules).Ensures fun header =>
    (∀ init ∈ header.1, init.layout.levels ≤ n + 2) ∧ header.2.2.layout.levels ≤ n + 2 := by
  refine (levels_simpleStmt bounded false).bind fun stmt hstmt => ensures_bind fun _ => .ite ?_ ?_
  · refine ensures_bind fun semicolon => bounded.expr.bind fun cond hcond => ensures_pure ?_
    exact ⟨by simpa using hstmt, Nat.le_trans hcond (Nat.le_add_right n 2)⟩
  · refine (levels_asCondition hstmt).bind fun cond hcond => ensures_pure ?_
    exact ⟨nofun, Nat.le_succ_of_le hcond⟩

theorem levels_elseBranch : (elseBranch rules).Ensures (·.layout.levels ≤ n) :=
  ensures_bind fun _ => .ite bounded.ifStmt <| ensures_bind fun _ =>
    .ite (bounded.block.bind fun _ hblock => ensures_pure hblock) ensures_unexpected

theorem levels_ifStmt : (ifStmt rules).Ensures (·.layout.levels ≤ n + 3) := by
  refine ensures_bind fun place => (levels_ifHeader bounded).withLiterals.bind
    fun (init?, semicolon?, cond) ⟨hinit, hcond⟩ => bounded.block.bind fun body hbody => ?_
  refine ensures_bind fun _ => .ite (ensures_bind fun elsePlace => ?_) ?_
  · refine (levels_elseBranch bounded).bind fun stmt helse => ensures_pure ?_
    exact Stmt.levels_ifStmt_le hinit hcond hbody (by simpa using helse)
  · exact ensures_pure (Stmt.levels_ifStmt_le hinit hcond hbody nofun)

/-! ## Loops -/

/-- A loop with this header, and a body of at most `n` levels, has at most `n + 3`. -/
def LoopHeader.Bounded (n : Nat) (header : LoopHeader) : Prop :=
  ∀ {place body}, body.layout.levels ≤ n → (header.toStmt place body).layout.levels ≤ n + 3

omit bounded in
theorem bounded_forClause {init? post? : Option Stmt} {cond? : Option Expr}
    {initSemicolon? condSemicolon? : Option Offset}
    (hinit : ∀ init ∈ init?, init.layout.levels ≤ n + 2)
    (hcond : ∀ cond ∈ cond?, cond.layout.levels ≤ n + 2)
    (hpost : ∀ post ∈ post?, post.layout.levels ≤ n + 2) :
    LoopHeader.Bounded n (.forClause init? initSemicolon? cond? condSemicolon? post?) := by
  intro place body hbody
  refine Stmt.levels_le ?_
  have hbody := Nat.le_trans hbody (Nat.le_add_right n 2)
  simpa [LoopHeader.toStmt, Stmt.parts, Node.layout, or_imp, forall_and] using
    ⟨hinit, hcond, hpost, hbody⟩

omit bounded in
theorem bounded_rangeClause {key? value? : Option Expr} {comma? opPlace? : Option Offset}
    {op? : Option Operator} {range : Offset} {operand : Expr}
    (hkey : ∀ key ∈ key?, key.layout.levels ≤ n)
    (hvalue : ∀ value ∈ value?, value.layout.levels ≤ n)
    (hoperand : operand.layout.levels ≤ n) :
    LoopHeader.Bounded n (.rangeClause key? comma? value? opPlace? op? range operand) := by
  intro place body hbody
  refine Nat.le_trans (Stmt.levels_le (n := n) ?_) (Nat.le_add_right (n + 1) 2)
  simpa [LoopHeader.toStmt, Stmt.parts, Node.layout, or_imp, forall_and] using
    ⟨hkey, hvalue, hoperand, hbody⟩

theorem bounded_forClauses {init? : Option Stmt}
    (hinit : ∀ init ∈ init?, init.layout.levels ≤ n + 2) :
    (forClauses rules init?).Ensures (LoopHeader.Bounded n) := by
  have hcond : rules.expr.Ensures (·.layout.levels ≤ n + 2) :=
    bounded.expr.le (Nat.le_add_right n 2)
  refine ensures_bind fun initSemicolon => ensures_bind fun _ =>
    ensures_ite_bind (ensures_pure nofun) hcond.some fun cond? hcond => ?_
  refine ensures_bind fun condSemicolon => ensures_bind fun _ => ?_
  exact ensures_ite_bind (ensures_pure nofun) (levels_simpleStmt bounded false).some
    fun post? hpost => ensures_pure (bounded_forClause hinit hcond hpost)

theorem bounded_forHeaderFrom {stmt : Stmt} (hstmt : stmt.layout.levels ≤ n + 2) :
    (forHeaderFrom rules stmt).Ensures (LoopHeader.Bounded n) := by
  refine ensures_bind fun _ => .ite (bounded_forClauses bounded (by simpa using hstmt)) ?_
  refine (levels_asCondition hstmt).bind fun cond hcond => ensures_pure (bounded_forClause ?_ ?_ ?_)
  · exact nofun
  · simpa using Nat.le_succ_of_le hcond
  · exact nofun

theorem bounded_exprHeader : (exprHeader rules).Ensures (LoopHeader.Bounded n) := by
  have hfrom : ∀ stmt : Stmt, stmt.layout.levels ≤ n + 1 →
      (forHeaderFrom rules stmt).Ensures (LoopHeader.Bounded n) := fun stmt hstmt =>
    bounded_forHeaderFrom bounded (Nat.le_succ_of_le hstmt)
  refine (levels_exprList bounded).bind fun (left, leftCommas) hleft => ensures_bind fun op? => ?_
  cases op? with
  | none => exact (levels_exprStmt hleft).bind hfrom
  | some op =>
    refine .ite (ensures_bind fun place => ensures_bind fun _ => .ite ?_ ?_) ?_
    · refine ensures_bind fun range => bounded.expr.bind fun operand hoperand => ensures_pure ?_
      exact bounded_rangeClause (fun x hx => hleft x (List.mem_of_mem_head? hx))
        (fun x hx => hleft x (List.mem_of_getElem? hx)) hoperand
    · exact (levels_assignment bounded hleft leftCommas place op).bind hfrom
    · exact (levels_simpleRest bounded hleft false leftCommas).bind fun stmt hstmt =>
        bounded_forHeaderFrom bounded hstmt

theorem bounded_loopHeader : (loopHeader rules).Ensures (LoopHeader.Bounded n) := by
  refine ensures_bind fun _ => .ite (ensures_pure ?_) ?_
  · exact bounded_forClause (by simp) (by simp) (by simp)
  refine ensures_bind fun _ => .ite (bounded_forClauses bounded nofun) ?_
  refine ensures_bind fun _ => .ite ?_ (bounded_exprHeader bounded)
  refine ensures_bind fun range => bounded.expr.bind fun operand hoperand => ensures_pure ?_
  exact bounded_rangeClause (by simp) (by simp) hoperand

theorem levels_forStmt : (forStmt rules).Ensures (·.layout.levels ≤ n + 3) :=
  ensures_bind fun _ => (bounded_loopHeader bounded).withLiterals.bind fun _ hheader =>
    bounded.block.bind fun _ hbody => ensures_pure (hheader hbody)

/-! ## Switches and selections -/

omit bounded in
theorem levels_clauseBlock {clause : Parser Stmt} {m : Nat}
    (hclause : clause.Ensures (·.layout.levels ≤ m)) :
    (clauseBlock clause).Ensures (·.layout.levels ≤ m + 1) := by
  refine ensures_bind fun lbrace => (ensures_many hclause).bind fun clauses hclauses => ?_
  refine ensures_bind fun rbrace => ensures_pure ?_
  refine Stmt.levels_le (s := .block ⟨lbrace, clauses, rbrace⟩) ?_
  simpa [Stmt.parts, Node.layout] using hclauses

theorem levels_caseClause : (caseClause rules).Ensures (·.layout.levels ≤ n + 1) := by
  refine ensures_bind fun _ => .ite (ensures_bind fun place => ?_) (ensures_bind fun place => ?_)
  · exact ensures_bind fun colon => bounded.stmts.bind fun body hbody =>
      ensures_pure (Stmt.levels_caseClause_le nofun hbody)
  · exact (levels_exprList bounded).bind fun (exprs, commas) hexprs => ensures_bind fun colon =>
      bounded.stmts.bind fun body hbody => ensures_pure (Stmt.levels_caseClause_le hexprs hbody)

theorem levels_commClause : (commClause rules).Ensures (·.layout.levels ≤ n + 3) := by
  refine ensures_bind fun _ => .ite (ensures_bind fun place => ?_) (ensures_bind fun place => ?_)
  · exact ensures_bind fun colon => bounded.stmts.bind fun body hbody =>
      ensures_pure (Stmt.levels_commClause_le nofun hbody)
  · refine (levels_simpleStmt bounded false).bind fun comm hcomm => ensures_bind fun colon => ?_
    have hcomm : ∀ s ∈ some comm, s.layout.levels ≤ n + 2 := by simpa using hcomm
    exact bounded.stmts.bind fun body hbody => ensures_pure (Stmt.levels_commClause_le hcomm hbody)

theorem levels_switchHeader : (switchHeader rules).Ensures fun header =>
    (∀ init ∈ header.1, init.layout.levels ≤ n + 2) ∧
      ∀ tag ∈ header.2.2, tag.layout.levels ≤ n + 2 := by
  refine ensures_bind fun _ => .ite (ensures_pure ⟨nofun, nofun⟩) ?_
  refine (levels_simpleStmt bounded false).bind fun stmt hstmt => ensures_bind fun _ => ?_
  have hinit : ∀ init ∈ some stmt, init.layout.levels ≤ n + 2 := by simpa using hstmt
  refine .ite (ensures_bind fun semicolon => ensures_bind fun _ => ?_) (ensures_pure ⟨nofun, hinit⟩)
  exact ensures_ite_bind (ensures_pure nofun) (levels_simpleStmt bounded false).some
    fun tag? htag => ensures_pure ⟨hinit, htag⟩

theorem levels_switchStmt : (switchStmt rules).Ensures (·.layout.levels ≤ n + 3) := by
  refine ensures_bind fun place => (levels_switchHeader bounded).withLiterals.bind
    fun (init?, semicolon?, tag?) ⟨hinit, htag⟩ => ?_
  refine (levels_clauseBlock (levels_caseClause bounded)).bind fun body hbody => ?_
  cases tag? with
  | none => exact ensures_pure (Stmt.levels_switchStmt_le hinit nofun hbody)
  | some tag =>
    refine .ite (ensures_pure (Stmt.levels_le ?_)) ?_
    · simpa [Stmt.parts, Node.layout, or_imp, forall_and] using ⟨hinit, htag tag rfl, hbody⟩
    · refine (levels_asCondition (htag tag rfl)).bind fun cond hcond => ensures_pure ?_
      exact Stmt.levels_switchStmt_le hinit (by simpa using Nat.le_succ_of_le hcond) hbody

theorem levels_selectStmt : (selectStmt rules).Ensures (·.layout.levels ≤ n + 5) := by
  refine ensures_bind fun place => ?_
  refine (levels_clauseBlock (levels_commClause bounded)).bind fun body hbody => ?_
  exact ensures_pure (Stmt.levels_le (List.forall_mem_singleton.2 hbody))

/-! ## All statements -/

theorem levels_callOperand (keyword : Keyword) :
    (callOperand rules keyword).Ensures fun call => (Expr.call call).layout.levels ≤ n := by
  refine bounded.expr.bind fun x hx => ?_
  split
  · exact ensures_pure hx
  · exact ensures_failAt

theorem levels_returnStmt : (returnStmt rules).Ensures (·.layout.levels ≤ n + 1) := by
  refine ensures_bind fun place => ensures_bind fun _ => .ite ?_ ?_
  · exact ensures_pure (Stmt.levels_le nofun)
  · refine (levels_exprList bounded).bind fun (results, commas) hresults => ?_
    refine ensures_pure (Stmt.levels_le ?_)
    simpa [Stmt.parts, Node.layout] using hresults

omit bounded in
theorem levels_branch (keyword : Keyword) : (branch keyword).Ensures (·.layout.levels ≤ 2) := by
  refine ensures_bind fun place => ensures_bind fun _ =>
    ensures_ite_bind ensures_true ensures_true fun label? _ => ensures_pure (Stmt.levels_le ?_)
  simp [Stmt.parts, Node.layout]

theorem levels_declStmt (keyword : Keyword) :
    Ensures (do return Stmt.decl (← genDecl rules keyword)) (·.layout.levels ≤ n + 5) :=
  (levels_genDecl bounded keyword).bind fun _ hdecl =>
    ensures_pure (Stmt.levels_le (List.forall_mem_singleton.2 (Nat.le_succ_of_le hdecl)))

theorem levels_keywordStmt (keyword : Keyword) :
    (keywordStmt rules keyword).Ensures (·.layout.levels ≤ n + 5) := by
  have hcall : ∀ keyword, (callOperand rules keyword).Ensures
      fun call => (Expr.call call).layout.levels ≤ n + 4 := fun keyword =>
    (levels_callOperand bounded keyword).le (Nat.le_add_right n 4)
  unfold keywordStmt
  split
  · exact levels_declStmt bounded .varKw
  · exact levels_declStmt bounded .constKw
  · exact levels_declStmt bounded .typeKw
  · exact (levels_returnStmt bounded).le (by omega)
  · exact (levels_branch .breakKw).le (by omega)
  · exact (levels_branch .continueKw).le (by omega)
  · exact (levels_branch .gotoKw).le (by omega)
  · exact ensures_bind fun place => ensures_pure (Stmt.levels_le nofun)
  · exact bounded.ifStmt.le (by omega)
  · exact (levels_forStmt bounded).le (by omega)
  · exact (levels_switchStmt bounded).le (by omega)
  · exact levels_selectStmt bounded
  · exact ensures_bind fun place => (hcall .goKw).bind fun call hcall =>
      ensures_pure (Stmt.levels_le (List.forall_mem_singleton.2 hcall))
  · exact ensures_bind fun place => (hcall .deferKw).bind fun call hcall =>
      ensures_pure (Stmt.levels_le (List.forall_mem_singleton.2 hcall))
  · exact (levels_simpleStmt bounded true).le (by omega)

theorem levels_stmt : (stmt rules).Ensures (·.layout.levels ≤ n + 5) := by
  refine ensures_bind fun kind? => ?_
  split
  · exact levels_keywordStmt bounded _
  · exact bounded.block.bind fun _ hblock => ensures_pure (Nat.le_trans hblock (by omega))
  · exact ensures_bind fun place => ensures_pure (Stmt.levels_le nofun)
  · exact (levels_simpleStmt bounded true).le (by omega)

theorem levels_stmtLine : (stmtLine rules).Ensures (·.layout.levels ≤ n + 5) :=
  (levels_stmt bounded).bind fun _ hstmt => .ite (ensures_pure hstmt) <|
    ensures_bind fun _ => ensures_pure hstmt

theorem levels_stmts :
    (stmts rules).Ensures fun stmts => ∀ stmt ∈ stmts, stmt.layout.levels ≤ n + 5 :=
  ensures_many (levels_stmtLine bounded)

theorem levels_block : (block rules).Ensures (·.layout.levels ≤ n + 6) := by
  refine ensures_bind fun lbrace => (levels_stmts bounded).withLiterals.bind fun stmts hstmts => ?_
  refine ensures_bind fun rbrace => ensures_pure ?_
  refine Stmt.levels_le (s := .block ⟨lbrace, stmts, rbrace⟩) ?_
  simpa [Stmt.parts, Node.layout] using hstmts

/-! ## Files -/

theorem levels_funcDecl :
    (funcDecl rules).Ensures fun decl => (Decl.func decl).layout.levels ≤ n + 4 := by
  refine ensures_bind fun func => ensures_bind fun _ => ensures_ite_bind
    (levels_parameters bounded).some (ensures_pure nofun) fun receiver? hreceiver => ?_
  refine ensures_bind fun name => ensures_bind fun _ => .ite ensures_failHere ?_
  refine (levels_parts_signature bounded none).bind fun type htype => ensures_bind fun _ => ?_
  exact ensures_ite_bind bounded.block.some (ensures_pure nofun) fun body? hbody =>
    ensures_pure (Decl.levels_func_le hreceiver htype.1 htype.2 hbody)

theorem levels_decl : (decl rules).Ensures (·.layout.levels ≤ n + 4) := by
  have hgen : ∀ keyword, Ensures (do return Decl.gen (← genDecl rules keyword))
      (·.layout.levels ≤ n + 4) := fun keyword =>
    (levels_genDecl bounded keyword).bind fun _ hdecl => ensures_pure (Nat.le_succ_of_le hdecl)
  refine ensures_bind fun keyword? => ?_
  split
  · exact (levels_funcDecl bounded).bind fun _ hdecl => ensures_pure hdecl
  · exact hgen .importKw
  · exact hgen .varKw
  · exact hgen .constKw
  · exact hgen .typeKw
  · exact ensures_unexpected

theorem levels_file : (file rules).Ensures (·.layout.levels ≤ n + 5) := by
  refine ensures_bind fun package => ensures_bind fun name => ensures_bind fun _ => ?_
  refine Ensures.bind (ensures_many ((levels_decl bounded).bind fun decl hdecl =>
    ensures_bind fun _ => ensures_pure hdecl)) fun decls hdecls => ?_
  refine ensures_bind fun last => ensures_bind fun state => ensures_pure ?_
  refine Node.levels_le (.file _) ?_
  simpa [Node.parts, Node.layout] using hdecls

end Grammar

/-! ## All levels -/

/-- **Each level of the rules adds at most seven levels to a tree.** -/
theorem bounded_level (depth : Nat) : (Nested.level depth).Bounded (7 * depth) := by
  induction depth with
  | zero =>
    exact {
      type := Parser.ensures_failHere
      expr := Parser.ensures_failHere
      operand := Parser.ensures_failHere
      literal := fun _ _ => Parser.ensures_failHere
      block := Parser.ensures_failHere
      ifStmt := Parser.ensures_failHere
      stmt := Parser.ensures_failHere
      stmts := Parser.ensures_failHere }
  | succ depth bounded =>
    exact {
      type := Grammar.levels_type bounded
      expr := (Grammar.levels_expr bounded).le (by omega)
      operand := Grammar.levels_unary bounded
      literal := fun {type? m} hm htype => by
        obtain ⟨m, rfl⟩ : ∃ k, m = k + 1 := Nat.exists_eq_add_one.2 (by omega)
        exact Grammar.levels_literal bounded (by omega) htype
      block := (Grammar.levels_block bounded).le (by omega)
      ifStmt := (Grammar.levels_ifStmt bounded).le (by omega)
      stmt := (Grammar.levels_stmt bounded).le (by omega)
      stmts := (Grammar.levels_stmts bounded).mono fun _ h stmt hstmt =>
        Nat.le_trans (h stmt hstmt) (by omega) }

/-- **The file that a text spells has a bounded number of levels.** Its height has no bound, as its
chains may be of any length. -/
theorem levels_le_of_parse {text : String} {file : File} (h : parse text = .ok file) :
    file.layout.levels ≤ 7 * maxNesting + 5 := by
  rw [parse, parseTokens] at h
  split at h
  · rename_i read st hyields
    obtain rfl := Except.ok.inj h
    exact Grammar.levels_file (bounded_level maxNesting) hyields
  · cases h

/-- A chain of calls adds to the height of a file, and not to its levels. -/
example : (parse "package p\n\nvar x = f()()()\n").toOption.map
    (fun file => (file.layout.levels, file.layout.height)) = some (4, 7) := by decide +kernel

end GoTrace
