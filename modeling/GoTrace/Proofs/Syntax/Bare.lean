import GoTrace.Grammar.File

/-!
# Trees and tokens without places

`bare` forgets where things stand: every offset becomes zero and every span empty, the comments of
tokens and files are dropped, and all else is kept. So a missing mark stays missing, and a list of
commas keeps its length. Two trees with the same bare tree are the same but for places.
-/

namespace GoTrace

/-- What is left of a thing without its places. -/
class Bare (α : Type) where
  /-- The same without places. -/
  bare : α → α

export Bare (bare)

instance : Bare Offset := ⟨fun _ => .zero⟩
instance : Bare Span := ⟨fun _ => .empty .zero⟩
instance : Bare Bool := ⟨id⟩
instance : Bare Unit := ⟨id⟩
instance : Bare Operator := ⟨id⟩

instance {α : Type} [Bare α] : Bare (Option α) := ⟨Option.map bare⟩
instance {α : Type} [Bare α] : Bare (List α) := ⟨List.map bare⟩
instance {α : Type} [Bare α] : Bare (Array α) := ⟨Array.map bare⟩
instance {α β : Type} [Bare α] [Bare β] : Bare (α × β) := ⟨Prod.map bare bare⟩

section

variable {α β : Type} [Bare α] [Bare β]

@[simp] theorem bare_offset (x : Offset) : bare x = .zero := rfl

@[simp] theorem bare_span (x : Span) : bare x = .empty .zero := rfl

@[simp] theorem bare_bool (b : Bool) : bare b = b := rfl

@[simp] theorem bare_operator (op : Operator) : bare op = op := rfl

@[simp] theorem bare_none : bare (none : Option α) = none := rfl

@[simp] theorem bare_some (a : α) : bare (some a) = some (bare a) := rfl

@[simp] theorem bare_nil : bare ([] : List α) = [] := rfl

@[simp] theorem bare_cons (a : α) (as : List α) : bare (a :: as) = bare a :: bare as := rfl

theorem bare_empty : bare (#[] : Array α) = #[] := Array.map_empty

@[simp] theorem bare_append (as bs : List α) : bare (as ++ bs) = bare as ++ bare bs :=
  List.map_append

@[simp] theorem bare_pair (a : α) (b : β) : bare (a, b) = (bare a, bare b) := rfl

@[simp] theorem length_bare (as : List α) : (bare as).length = as.length := List.length_map _

@[simp] theorem isNone_bare (a? : Option α) : (bare a?).isNone = a?.isNone := by cases a? <;> rfl

@[simp] theorem head?_bare (as : List α) : (bare as).head? = bare as.head? := by cases as <;> rfl

@[simp] theorem getLast?_bare (as : List α) : (bare as).getLast? = bare as.getLast? :=
  List.getLast?_map

@[simp] theorem getElem?_bare (as : List α) (n : Nat) : (bare as)[n]? = bare as[n]? :=
  List.getElem?_map

@[simp] theorem toList_bare (a? : Option α) : (bare a?).toList = bare a?.toList := by
  cases a? <;> rfl

@[simp] theorem toList_bare_array (as : Array α) : (bare as).toList = bare as.toList :=
  Array.toList_map

@[simp] theorem push_bare (as : Array α) (a : α) : (bare as).push (bare a) = bare (as.push a) :=
  (Array.map_push ..).symm

/-- A function that keeps bare things bare may be applied before or after. -/
theorem map_bare {f : α → β} (h : ∀ a, f (bare a) = bare (f a)) (as : List α) :
    (bare as).map f = bare (as.map f) := by
  simp only [bare, List.map_map]
  exact List.map_congr_left fun a _ => h a

theorem filterMap_bare {f : α → Option β} (h : ∀ a, f (bare a) = bare (f a)) (as : List α) :
    (bare as).filterMap f = bare (as.filterMap f) := by
  simp only [bare, List.filterMap_map, List.map_filterMap]
  exact congrArg (List.filterMap · as) (funext h)

end

/-! ## Trees -/

/-- A name without its place. -/
def Ident.bare (x : Ident) : Ident := ⟨.zero, x.name⟩

/-- A literal without its place. -/
def BasicLit.bare (x : BasicLit) : BasicLit := ⟨.zero, x.kind, x.text⟩

instance : Bare Ident := ⟨Ident.bare⟩
instance : Bare BasicLit := ⟨BasicLit.bare⟩

mutual

/-- An expression without places. -/
def Expr.bare : Expr → Expr
  | .bad span => .bad (Bare.bare span)
  | .ident name => .ident name.bare
  | .basicLit literal => .basicLit literal.bare
  | .compositeLit type? lbrace elements commas rbrace =>
    .compositeLit (Expr.bare? type?) (Bare.bare lbrace) (Expr.bares elements) (Bare.bare commas)
      (Bare.bare rbrace)
  | .keyValue key colon value => .keyValue key.bare (Bare.bare colon) value.bare
  | .paren lparen inner rparen => .paren (Bare.bare lparen) inner.bare (Bare.bare rparen)
  | .selector base period name => .selector base.bare (Bare.bare period) name.bare
  | .index base lbrack index rbrack =>
    .index base.bare (Bare.bare lbrack) index.bare (Bare.bare rbrack)
  | .slice base lbrack low? colon high? secondColon? max? rbrack =>
    .slice base.bare (Bare.bare lbrack) (Expr.bare? low?) (Bare.bare colon) (Expr.bare? high?)
      (Bare.bare secondColon?) (Expr.bare? max?) (Bare.bare rbrack)
  | .typeAssert base period lparen type? typeKeyword? rparen =>
    .typeAssert base.bare (Bare.bare period) (Bare.bare lparen) (Expr.bare? type?)
      (Bare.bare typeKeyword?) (Bare.bare rparen)
  | .star star operand => .star (Bare.bare star) operand.bare
  | .unary opPlace op operand => .unary (Bare.bare opPlace) op operand.bare
  | .binary left opPlace op right => .binary left.bare (Bare.bare opPlace) op right.bare
  | .call call => .call call.bare
  | .funcLit type body => .funcLit type.bare body.bare
  | .arrayType lbrack length? rbrack element =>
    .arrayType (Bare.bare lbrack) (Expr.bare? length?) (Bare.bare rbrack) element.bare
  | .mapType map lbrack key rbrack value =>
    .mapType (Bare.bare map) (Bare.bare lbrack) key.bare (Bare.bare rbrack) value.bare
  | .structType struct fields => .structType (Bare.bare struct) fields.bare
  | .funcType type => .funcType type.bare
  | .interfaceType interface methods => .interfaceType (Bare.bare interface) methods.bare
  | .chanType chan arrow? dir value =>
    .chanType (Bare.bare chan) (Bare.bare arrow?) dir value.bare
  | .ellipsis dots element? => .ellipsis (Bare.bare dots) (Expr.bare? element?)

/-- An expression that may be missing, without places. -/
def Expr.bare? : Option Expr → Option Expr
  | none => none
  | some expr => some expr.bare

/-- Some expressions without places. -/
def Expr.bares : List Expr → List Expr
  | [] => []
  | expr :: exprs => expr.bare :: Expr.bares exprs

/-- A call without places. -/
def Call.bare : Call → Call
  | { fn, lparen, args, commas, dots?, rparen } =>
    ⟨fn.bare, Bare.bare lparen, Expr.bares args, Bare.bare commas, Bare.bare dots?,
      Bare.bare rparen⟩

/-- A signature without places. -/
def FuncType.bare : FuncType → FuncType
  | { func?, params, results? } => ⟨Bare.bare func?, params.bare, FieldList.bare? results?⟩

/-- A field without places. -/
def Field.bare : Field → Field
  | { names, commas, type, tag? } =>
    ⟨Bare.bare names, Bare.bare commas, type.bare, Bare.bare tag?⟩

/-- Some fields without places. -/
def Field.bares : List Field → List Field
  | [] => []
  | field :: fields => field.bare :: Field.bares fields

/-- A list of fields without places. -/
def FieldList.bare : FieldList → FieldList
  | { delimiter, opening?, fields, separators, closing? } =>
    ⟨delimiter, Bare.bare opening?, Field.bares fields, Bare.bare separators, Bare.bare closing?⟩

/-- A list of fields that may be missing, without places. -/
def FieldList.bare? : Option FieldList → Option FieldList
  | none => none
  | some fields => some fields.bare

/-- A block without places. -/
def Block.bare : Block → Block
  | { lbrace, stmts, rbrace } => ⟨Bare.bare lbrace, Stmt.bares stmts, Bare.bare rbrace⟩

/-- One entry of a declaration without places. -/
def Spec.bare : Spec → Spec
  | .importPath name? path => .importPath (Bare.bare name?) path.bare
  | .values names nameCommas type? assign? values valueCommas =>
    .values (Bare.bare names) (Bare.bare nameCommas) (Expr.bare? type?) (Bare.bare assign?)
      (Expr.bares values) (Bare.bare valueCommas)
  | .typeName name assign? type => .typeName name.bare (Bare.bare assign?) type.bare

/-- The entries of a declaration without places. -/
def Spec.bares : List Spec → List Spec
  | [] => []
  | spec :: specs => spec.bare :: Spec.bares specs

/-- An import, constant, variable or type declaration without places. -/
def GenDecl.bare : GenDecl → GenDecl
  | { place, keyword, lparen?, specs, rparen? } =>
    ⟨Bare.bare place, keyword, Bare.bare lparen?, Spec.bares specs, Bare.bare rparen?⟩

/-- A statement without places. -/
def Stmt.bare : Stmt → Stmt
  | .bad span => .bad (Bare.bare span)
  | .empty semicolon implicit => .empty (Bare.bare semicolon) implicit
  | .labeled label colon stmt => .labeled label.bare (Bare.bare colon) stmt.bare
  | .decl decl => .decl decl.bare
  | .expr expr => .expr expr.bare
  | .send channel arrow value => .send channel.bare (Bare.bare arrow) value.bare
  | .assign left leftCommas opPlace op right rightCommas =>
    .assign (Expr.bares left) (Bare.bare leftCommas) (Bare.bare opPlace) op (Expr.bares right)
      (Bare.bare rightCommas)
  | .incDec operand opPlace op => .incDec operand.bare (Bare.bare opPlace) op
  | .returnStmt place results commas =>
    .returnStmt (Bare.bare place) (Expr.bares results) (Bare.bare commas)
  | .branch place keyword label? => .branch (Bare.bare place) keyword (Bare.bare label?)
  | .block block => .block block.bare
  | .ifStmt place init? semicolon? cond body elsePlace? else? =>
    .ifStmt (Bare.bare place) (Stmt.bare? init?) (Bare.bare semicolon?) cond.bare body.bare
      (Bare.bare elsePlace?) (Stmt.bare? else?)
  | .forStmt place init? initSemicolon? cond? condSemicolon? post? body =>
    .forStmt (Bare.bare place) (Stmt.bare? init?) (Bare.bare initSemicolon?) (Expr.bare? cond?)
      (Bare.bare condSemicolon?) (Stmt.bare? post?) body.bare
  | .rangeStmt place key? comma? value? opPlace? op? range operand body =>
    .rangeStmt (Bare.bare place) (Expr.bare? key?) (Bare.bare comma?) (Expr.bare? value?)
      (Bare.bare opPlace?) op? (Bare.bare range) operand.bare body.bare
  | .switchStmt place init? semicolon? tag? body =>
    .switchStmt (Bare.bare place) (Stmt.bare? init?) (Bare.bare semicolon?) (Expr.bare? tag?)
      body.bare
  | .caseClause place keyword exprs commas colon body =>
    .caseClause (Bare.bare place) keyword (Expr.bares exprs) (Bare.bare commas) (Bare.bare colon)
      (Stmt.bares body)
  | .typeSwitch place init? semicolon? guard body =>
    .typeSwitch (Bare.bare place) (Stmt.bare? init?) (Bare.bare semicolon?) guard.bare body.bare
  | .selectStmt place body => .selectStmt (Bare.bare place) body.bare
  | .commClause place keyword comm? colon body =>
    .commClause (Bare.bare place) keyword (Stmt.bare? comm?) (Bare.bare colon) (Stmt.bares body)
  | .goStmt place call => .goStmt (Bare.bare place) call.bare
  | .deferStmt place call => .deferStmt (Bare.bare place) call.bare

/-- A statement that may be missing, without places. -/
def Stmt.bare? : Option Stmt → Option Stmt
  | none => none
  | some stmt => some stmt.bare

/-- Some statements without places. -/
def Stmt.bares : List Stmt → List Stmt
  | [] => []
  | stmt :: stmts => stmt.bare :: Stmt.bares stmts

end

instance : Bare Expr := ⟨Expr.bare⟩
instance : Bare Call := ⟨Call.bare⟩
instance : Bare FuncType := ⟨FuncType.bare⟩
instance : Bare Field := ⟨Field.bare⟩
instance : Bare FieldList := ⟨FieldList.bare⟩
instance : Bare Block := ⟨Block.bare⟩
instance : Bare Spec := ⟨Spec.bare⟩
instance : Bare GenDecl := ⟨GenDecl.bare⟩
instance : Bare Stmt := ⟨Stmt.bare⟩

attribute [simp] Ident.bare BasicLit.bare Expr.bare Call.bare FuncType.bare Field.bare
  FieldList.bare Block.bare Spec.bare GenDecl.bare Stmt.bare

@[simp] theorem bare_ident (x : Ident) : bare x = x.bare := rfl

@[simp] theorem bare_basicLit (x : BasicLit) : bare x = x.bare := rfl

@[simp] theorem bare_expr (x : Expr) : bare x = x.bare := rfl

@[simp] theorem bare_call (x : Call) : bare x = x.bare := rfl

@[simp] theorem bare_funcType (x : FuncType) : bare x = x.bare := rfl

@[simp] theorem bare_field (x : Field) : bare x = x.bare := rfl

@[simp] theorem bare_fieldList (x : FieldList) : bare x = x.bare := rfl

@[simp] theorem bare_block (x : Block) : bare x = x.bare := rfl

@[simp] theorem bare_spec (x : Spec) : bare x = x.bare := rfl

@[simp] theorem bare_genDecl (x : GenDecl) : bare x = x.bare := rfl

@[simp] theorem bare_stmt (x : Stmt) : bare x = x.bare := rfl

@[simp] theorem bares_exprs (xs : List Expr) : Expr.bares xs = bare xs := by
  induction xs with
  | nil => rfl
  | cons x xs ih => rw [Expr.bares, ih]; rfl

@[simp] theorem bare?_expr (x? : Option Expr) : Expr.bare? x? = bare x? := by
  cases x? <;> rfl

@[simp] theorem bares_stmts (ss : List Stmt) : Stmt.bares ss = bare ss := by
  induction ss with
  | nil => rfl
  | cons s ss ih => rw [Stmt.bares, ih]; rfl

@[simp] theorem bare?_stmt (s? : Option Stmt) : Stmt.bare? s? = bare s? := by
  cases s? <;> rfl

@[simp] theorem bares_fields (fields : List Field) : Field.bares fields = bare fields := by
  induction fields with
  | nil => rfl
  | cons field fields ih => rw [Field.bares, ih]; rfl

@[simp] theorem bare?_fields (fields? : Option FieldList) :
    FieldList.bare? fields? = bare fields? := by
  cases fields? <;> rfl

@[simp] theorem bares_specs (specs : List Spec) : Spec.bares specs = bare specs := by
  induction specs with
  | nil => rfl
  | cons spec specs ih => rw [Spec.bares, ih]; rfl

/-- A declared function without places. -/
@[simp] def FuncDecl.bare : FuncDecl → FuncDecl
  | { func, receiver?, name, type, body? } =>
    ⟨Bare.bare func, Bare.bare receiver?, name.bare, type.bare, Bare.bare body?⟩

/-- A declaration without places. -/
@[simp] def Decl.bare : Decl → Decl
  | .bad span => .bad (Bare.bare span)
  | .gen decl => .gen decl.bare
  | .func decl => .func decl.bare

instance : Bare FuncDecl := ⟨FuncDecl.bare⟩
instance : Bare Decl := ⟨Decl.bare⟩

@[simp] theorem bare_funcDecl (x : FuncDecl) : bare x = x.bare := rfl

@[simp] theorem bare_decl (x : Decl) : bare x = x.bare := rfl

/-- A file without places and comments. -/
@[simp] def File.bare : File → File
  | { package, name, decls, comments := _, span } =>
    ⟨Bare.bare package, name.bare, Bare.bare decls, [], Bare.bare span⟩

instance : Bare File := ⟨File.bare⟩

/-! ## Tokens -/

/-- A token of a kind without comments, at no place. -/
def TokenKind.token (kind : TokenKind) : Token := ⟨kind, [], .empty .zero⟩

instance : Bare Token := ⟨fun t => t.kind.token⟩

/-- Tokens of the same kinds are the same but for places and comments. -/
theorem bare_tokens (ts : List Token) : bare ts = (ts.map (·.kind)).map TokenKind.token := by
  rw [List.map_map]
  rfl

end GoTrace
