import GoTrace.Proofs.Syntax.Chains
import GoTrace.Proofs.Syntax.Zones
import GoTrace.Proofs.Token.Written

/-!
# What each place of a tree asks for

Three things that a parser decides while it reads cannot be seen from the kinds of the nodes alone:
how operators are grouped, whether a brace behind a name opens a composite literal, and what stands
between the keyword and the colon of a clause. `Node.Stands` says what has to hold of a node where it
stands: no binary operation is part of an expression that holds together more tightly
(`Expr.Climbs`); where literals with a name for their type are closed there is none; where they are
open the name of an operand has no brace behind it, and the name that is the type of a literal has the
brace of that literal behind it.

What is behind a name is a question about the tokens of the text (`Expr.EndsBefore`). A tree is placed
if each node stands so in the zone where it occurs (`Node.Placed`), which is shown of a node and its
parts (`Node.placed_of_parts`).
-/

namespace GoTrace

/-! ## Conditions on expressions -/

namespace Expr

/-- No binary operation is part of an expression that holds together more tightly: on the left of an
operator stands nothing that binds less tightly, on its right nothing that binds less or as tightly,
and the operand of any other operation is no binary operation. -/
def Climbs : Expr → Prop
  | binary left _ op right =>
    op.precedence ≤ left.tightness ∧ op.precedence < right.tightness
  | unary _ _ operand | star _ operand => operand.isBinary = false
  | selector base _ _ | index base _ _ _ | slice base _ _ _ _ _ _ _ | typeAssert base _ _ _ _ _ =>
    base.isBinary = false
  | call c => c.fn.isBinary = false
  | _ => True

/-- Whether an expression is a name, a selected name or an indexed expression. A brace behind one may
open a composite literal, or a body. -/
def isNamed : Expr → Bool
  | ident _ | selector _ _ _ | index _ _ _ _ => true
  | _ => false

/-- Whether an expression is a composite literal with such a type. -/
def isNamedLiteral : Expr → Bool
  | compositeLit (some type) _ _ _ _ => type.isNamed
  | _ => false

/-- The tokens `rest`, which are the last of `ts`, stand directly behind the last token of the
expression. -/
def EndsBefore (ts : List Token) (e : Expr) (rest : List Token) : Prop :=
  ∃ t, t :: rest <:+ ts ∧ t.kind.isWritten ∧
    e.layout.stop = t.span.start.advance t.kind.spelling.utf8ByteSize

/-- Directly behind the expression stands no opening brace. -/
def Unbraced (ts : List Token) (e : Expr) : Prop :=
  ∃ rest, e.EndsBefore ts rest ∧ rest.head?.map (·.kind) ≠ some (.operator .lbrace)

/-- Directly behind the expression stands the opening brace at a place. -/
def Braced (ts : List Token) (e : Expr) (lbrace : Offset) : Prop :=
  ∃ t rest, e.EndsBefore ts (t :: rest) ∧ t.kind = .operator .lbrace ∧ t.span.start = lbrace

/-- Directly behind a name that is the type of a composite literal stands its opening brace. -/
def TypeBraced (ts : List Token) : Expr → Prop
  | compositeLit (some type) lbrace _ _ _ => type.isNamed → type.Braced ts lbrace
  | _ => True

/-- What is asked of an expression that stands in a zone. -/
structure Stands (ts : List Token) (z : Zone) (e : Expr) : Prop where
  climbs : e.Climbs
  closed : z.literals = false → e.isNamedLiteral = false
  unbraced : z.literals = true → z.role = .operand → e.isNamed → e.Unbraced ts
  braced : e.TypeBraced ts

variable {ts : List Token} {z : Zone} {x : Expr}

/-- Of most expressions nothing is asked but how operations are grouped. -/
theorem stands_of_climbs (hnamed : x.isNamed = false) (hliteral : x.isNamedLiteral = false)
    (hclimbs : x.Climbs) : x.Stands ts z := by
  refine ⟨hclimbs, fun _ => hliteral, fun _ _ h => ?_, ?_⟩
  · rw [hnamed] at h
    cases h
  · unfold TypeBraced
    split
    · intro h
      rw [isNamedLiteral, h] at hliteral
      cases hliteral
    · trivial

end Expr

/-- A clause of a selection has something to send or receive if its keyword is `case`, and nothing if
it is `default`. -/
def Stmt.Selects : Stmt → Prop
  | .commClause _ keyword comm? _ _ =>
    keyword = .caseKw ∧ comm?.isSome ∨ keyword = .defaultKw ∧ comm? = none
  | _ => True

/-! ## Trees -/

namespace Node

/-- What is asked of a node that stands in a zone. -/
def Stands (ts : List Token) (z : Zone) : Node → Prop
  | expr e => e.Stands ts z
  | stmt s => s.Selects
  | _ => True

/-- All nodes in the tree of a node stand as is asked where they occur. -/
def Placed (ts : List Token) (z : Zone) (root : Node) : Prop :=
  ∀ z' node, Occurs z root z' node → node.Stands ts z'

variable {ts : List Token} {z : Zone} {root : Node}

/-- A tree is placed if its root stands as is asked and the trees of its parts are placed. -/
theorem placed_of_parts (hroot : root.Stands ts z)
    (hparts : ∀ p ∈ root.partsIn z, p.2.Placed ts p.1) : root.Placed ts z := by
  intro z' node h
  cases h with
  | self => exact hroot
  | part hpart h => exact hparts _ hpart z' node h

theorem Placed.stands (h : root.Placed ts z) : root.Stands ts z := h z root .self

theorem Placed.of_mem_partsIn (h : root.Placed ts z) {p : Zone × Node} (hp : p ∈ root.partsIn z) :
    p.2.Placed ts p.1 :=
  fun z' node hoccurs => h z' node (.part hp hoccurs)

end Node

/-- An expression is placed as an operand, where literals are allowed or not. -/
def Expr.Placed (ts : List Token) (allowed : Bool) (x : Expr) : Prop :=
  (Node.expr x).Placed ts ⟨allowed, .operand⟩

/-- An expression is placed as a type, wherever that stands. -/
def Expr.PlacedType (ts : List Token) (x : Expr) : Prop :=
  x.isBinary = false ∧ ∀ z : Zone, (Node.expr x).Placed ts z.other

/-- A type is placed wherever it stands, also as an operand or as the type of a literal. -/
def Expr.PlacedAnywhere (ts : List Token) (x : Expr) : Prop :=
  x.isBinary = false ∧ x.isNamed = false ∧ ∀ z, (Node.expr x).Placed ts z

/-- A statement is placed, where literals are allowed or not. -/
def Stmt.Placed (ts : List Token) (allowed : Bool) (s : Stmt) : Prop :=
  (Node.stmt s).Placed ts ⟨allowed, .other⟩

/-- An entry of a declaration is placed where literals are allowed. -/
def Spec.Placed (ts : List Token) (s : Spec) : Prop := (Node.spec s).Placed ts .body

/-- A declaration is placed where literals are allowed. -/
def Decl.Placed (ts : List Token) (d : Decl) : Prop := (Node.decl d).Placed ts .body

/-- A field is placed wherever it stands. -/
def Field.Placed (ts : List Token) (f : Field) : Prop := ∀ z, (Node.field f).Placed ts z

/-- A list of fields is placed wherever it stands. -/
def FieldList.Placed (ts : List Token) (l : FieldList) : Prop := ∀ z, (Node.fieldList l).Placed ts z

section

variable {ts : List Token} {allowed : Bool} {z : Zone} {x : Expr}

@[simp] theorem Node.placed_operand :
    (Node.expr x).Placed ts ⟨allowed, .operand⟩ ↔ x.Placed ts allowed := Iff.rfl

@[simp] theorem Node.placed_inside : (Node.expr x).Placed ts .inside ↔ x.Placed ts true := Iff.rfl

@[simp] theorem Node.placed_stmt {s : Stmt} :
    (Node.stmt s).Placed ts ⟨allowed, .other⟩ ↔ s.Placed ts allowed := Iff.rfl

@[simp] theorem Node.placed_body {s : Stmt} : (Node.stmt s).Placed ts .body ↔ s.Placed ts true :=
  Iff.rfl

@[simp] theorem Node.placed_header {s : Stmt} :
    (Node.stmt s).Placed ts .header ↔ s.Placed ts false := Iff.rfl

@[simp] theorem Node.placed_spec {s : Spec} : (Node.spec s).Placed ts .body ↔ s.Placed ts := Iff.rfl

@[simp] theorem Node.placed_decl {d : Decl} : (Node.decl d).Placed ts .body ↔ d.Placed ts := Iff.rfl

@[simp] theorem Zone.base_mk_operand : Zone.base ⟨allowed, .operand⟩ = ⟨allowed, .operand⟩ := rfl

@[simp] theorem Zone.base_inside : Zone.inside.base = .inside := rfl

@[simp] theorem Zone.operand_mk {role : Role} :
    Zone.operand ⟨allowed, role⟩ = ⟨allowed, .operand⟩ := rfl

@[simp] theorem Zone.operand_header : Zone.header.operand = ⟨false, .operand⟩ := rfl

@[simp] theorem Zone.operand_body : Zone.body.operand = .inside := rfl

/-- An expression of which nothing special is asked is placed if its parts are. -/
theorem Expr.placed_of_parts (hnamed : x.isNamed = false) (hliteral : x.isNamedLiteral = false)
    (hclimbs : x.Climbs) (hparts : ∀ p ∈ x.partsIn z, p.2.Placed ts p.1) :
    (Node.expr x).Placed ts z :=
  Node.placed_of_parts (stands_of_climbs hnamed hliteral hclimbs) hparts

/-- A name that is no operand is placed. -/
@[simp] theorem Expr.placed_name {name : Ident} : (Node.expr (.ident name)).Placed ts z.other :=
  Node.placed_of_parts ⟨trivial, fun _ => rfl, nofun, trivial⟩ nofun

@[simp] theorem Expr.placed_basicLit {literal : BasicLit} :
    (Node.expr (.basicLit literal)).Placed ts z :=
  placed_of_parts rfl rfl trivial nofun

theorem Expr.PlacedAnywhere.placedType (h : x.PlacedAnywhere ts) : x.PlacedType ts :=
  ⟨h.1, fun z => h.2.2 z.other⟩

theorem Stmt.placed_of_parts {s : Stmt} (hselects : s.Selects)
    (hparts : ∀ p ∈ s.partsIn ⟨allowed, .other⟩, p.2.Placed ts p.1) : s.Placed ts allowed :=
  Node.placed_of_parts hselects hparts

theorem Spec.placed_of_parts {s : Spec} (hparts : ∀ p ∈ s.partsIn .body, p.2.Placed ts p.1) :
    s.Placed ts :=
  Node.placed_of_parts trivial hparts

theorem Decl.placed_of_parts {d : Decl} (hparts : ∀ p ∈ d.partsIn .body, p.2.Placed ts p.1) :
    d.Placed ts :=
  Node.placed_of_parts trivial hparts

/-- Of a field only the type is more than a name or a literal. -/
theorem Field.placed_of_type {f : Field} (h : ∀ z : Zone, (Node.expr f.type).Placed ts z.other) :
    f.Placed ts := by
  refine fun z => Node.placed_of_parts trivial ?_
  simpa [Node.partsIn, or_imp, forall_and] using h z

theorem FieldList.placed_of_fields {l : FieldList} (h : ∀ f ∈ l.fields, f.Placed ts) :
    l.Placed ts := by
  refine fun z => Node.placed_of_parts trivial ?_
  simpa [Node.partsIn] using fun f hf => h f hf z.other

/-- A signature is placed if its parameters and results are. -/
theorem FuncType.placed_of_parts {type : FuncType} (hparams : type.params.Placed ts)
    (hresults : ∀ l ∈ type.results?, l.Placed ts) : (Node.expr (.funcType type)).Placed ts z := by
  obtain ⟨func?, params, results?⟩ := type
  refine Expr.placed_of_parts rfl rfl trivial ?_
  simpa [Expr.partsIn] using ⟨hparams z.other, fun l hl => hresults l hl z.other⟩

/-- A composite literal stands as is asked if a name that is its type may, and has the opening brace
behind it. -/
theorem Expr.stands_compositeLit {type? : Option Expr} {lbrace rbrace : Offset}
    {elements : List Expr} {commas : List Offset}
    (hnamed : ∀ type ∈ type?, type.isNamed → allowed = true ∧ type.Braced ts lbrace) :
    (compositeLit type? lbrace elements commas rbrace).Stands ts ⟨allowed, .operand⟩ := by
  cases type? with
  | none => exact ⟨trivial, fun _ => rfl, nofun, trivial⟩
  | some type =>
    refine ⟨trivial, fun hclosed => ?_, nofun, fun h => (hnamed _ rfl h).2⟩
    rw [isNamedLiteral, Bool.eq_false_iff]
    exact fun h => Bool.false_ne_true (hclosed.symm.trans (hnamed _ rfl h).1)

/-- A composite literal is placed if its parts are, and a name that is its type may be, and has the
opening brace behind it. -/
theorem Expr.placed_compositeLit {type? : Option Expr} {lbrace rbrace : Offset}
    {elements : List Expr} {commas : List Offset}
    (htype : ∀ type ∈ type?, (Node.expr type).Placed ts ⟨allowed, .literalType⟩)
    (hnamed : ∀ type ∈ type?, type.isNamed → allowed = true ∧ type.Braced ts lbrace)
    (helements : ∀ e ∈ elements, e.Placed ts true) :
    (compositeLit type? lbrace elements commas rbrace).Placed ts allowed := by
  refine Node.placed_of_parts (stands_compositeLit hnamed) ?_
  simpa [Node.partsIn, partsIn, or_imp, forall_and] using ⟨htype, helements⟩

/-- The condition of a statement that stands for one is placed. -/
theorem Stmt.Placed.expr (h : (Stmt.expr x).Placed ts allowed) : x.Placed ts allowed :=
  Node.Placed.of_mem_partsIn h (List.mem_singleton_self _)

end

/-! ## Expressions that are being read -/

/-- An expression that has been read up to the tokens `rest` is placed, but for what is asked of the
token behind it, which may still turn out to be part of a larger expression. -/
structure Expr.Open (ts : List Token) (allowed : Bool) (x : Expr) (rest : List Token) : Prop where
  notBinary : x.isBinary = false
  placed : (Node.expr x).Placed ts ⟨allowed, .literalType⟩
  ends : x.isNamed → x.EndsBefore ts rest

section

variable {ts rest : List Token} {allowed : Bool} {x : Expr}

/-- The parts of an operand stand where those of the type of a literal do. -/
theorem Expr.partsIn_literalType (x : Expr) :
    x.partsIn ⟨allowed, .literalType⟩ = x.partsIn ⟨allowed, .operand⟩ := by
  cases x <;> rfl

/-- Where no literal may follow, an expression is placed as it is. -/
theorem Expr.Open.close (h : x.Open ts allowed rest) (hbehind : allowed = true → x.isNamed →
    rest.head?.map (·.kind) ≠ some (.operator .lbrace)) : x.Placed ts allowed := by
  obtain ⟨hclimbs, hclosed, -, hbraced⟩ : x.Stands ts ⟨allowed, .literalType⟩ := h.placed.stands
  refine Node.placed_of_parts ⟨hclimbs, hclosed, fun hallowed _ hnamed => ?_, hbraced⟩ ?_
  · exact ⟨rest, h.ends hnamed, hbehind hallowed hnamed⟩
  · intro p hp
    refine Node.Placed.of_mem_partsIn h.placed ?_
    change p ∈ x.partsIn _ at hp
    change p ∈ x.partsIn _
    rwa [partsIn_literalType]

/-- A placed operand that is no name is open as well. -/
theorem Expr.Placed.open (h : x.Placed ts allowed) (hbinary : x.isBinary = false)
    (hnamed : x.isNamed = false) : x.Open ts allowed rest := by
  obtain ⟨hclimbs, hclosed, -, hbraced⟩ : x.Stands ts ⟨allowed, .operand⟩ := Node.Placed.stands h
  refine ⟨hbinary, Node.placed_of_parts ⟨hclimbs, hclosed, nofun, hbraced⟩ ?_, fun h => ?_⟩
  · intro p hp
    refine Node.Placed.of_mem_partsIn h ?_
    change p ∈ x.partsIn _ at hp
    change p ∈ x.partsIn _
    rwa [← partsIn_literalType]
  · exact absurd (hnamed.symm.trans h) Bool.false_ne_true

/-- A name that has been read is open. -/
theorem Expr.open_ident {name : Ident} {t : Token} (htokens : t :: rest <:+ ts)
    (hkind : t.kind = .ident name.name) (hplace : t.span.start = name.place) :
    (ident name).Open ts allowed rest := by
  refine ⟨rfl, Node.placed_of_parts ⟨trivial, fun _ => rfl, nofun, trivial⟩ nofun, fun _ => ?_⟩
  refine ⟨t, htokens, by rw [hkind]; rfl, ?_⟩
  rw [hkind, hplace]
  rfl

/-- A selector that has been read is open if what is selected from is placed. -/
theorem Expr.open_selector {period : Offset} {name : Ident} {t : Token} (hx : x.Placed ts allowed)
    (hbinary : x.isBinary = false) (htokens : t :: rest <:+ ts)
    (hkind : t.kind = .ident name.name) (hplace : t.span.start = name.place) :
    (selector x period name).Open ts allowed rest := by
  refine ⟨rfl, Node.placed_of_parts ⟨hbinary, fun _ => rfl, nofun, trivial⟩ ?_, fun _ => ?_⟩
  · rw [Node.partsIn, partsIn_literalType]
    simpa [partsIn] using hx
  · refine ⟨t, htokens, by rw [hkind]; rfl, ?_⟩
    rw [hkind, hplace]
    rfl

/-- An indexed expression that has been read is open if its parts are placed. -/
theorem Expr.open_index {place : Expr} {lbrack rbrack : Offset} {t : Token}
    (hx : x.Placed ts allowed) (hbinary : x.isBinary = false) (hplace : place.Placed ts true)
    (htokens : t :: rest <:+ ts) (hkind : t.kind = .operator .rbrack)
    (hrbrack : t.span.start = rbrack) : (index x lbrack place rbrack).Open ts allowed rest := by
  refine ⟨rfl, Node.placed_of_parts ⟨hbinary, fun _ => rfl, nofun, trivial⟩ ?_, fun _ => ?_⟩
  · rw [Node.partsIn, partsIn_literalType]
    simpa [partsIn] using ⟨hx, hplace⟩
  · refine ⟨t, htokens, by rw [hkind]; rfl, ?_⟩
    rw [hkind, hrbrack]
    rfl

end

end GoTrace
