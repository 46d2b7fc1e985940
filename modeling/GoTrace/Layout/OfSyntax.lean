import GoTrace.Layout.Row
import GoTrace.Syntax.Tree

/-!
# The layout of every construct

`Expr.layout` and its companions lay out each construct of the syntax tree. The span of a construct
runs from its first part to its last and is worked out here, from the spans of the parts.

A checkpoint is named for the part that it stands behind; one that stands behind an optional part is
present with that part. Two constructs share their keyword or their type with another: a declared
function lays out its signature itself, so the signature is no construct of its own there, and a
declaration statement is laid out as a statement around its declaration.
-/

namespace GoTrace

/-- A name is one token. -/
def Ident.layout (x : Ident) : Layout :=
  .node .ident (.ofLength x.place x.name.utf8ByteSize) [.lexeme (some (x.place, x.name))]

/-- A literal is one token. -/
def BasicLit.layout (x : BasicLit) : Layout :=
  .node .basicLit (.ofLength x.place x.text.utf8ByteSize) [.lexeme (some (x.place, x.text))]

/-- The arrow in front of the keyword of a channel type that only receives. -/
def ChanDir.recvArrow? : ChanDir → Option Offset → Option Offset
  | recv, arrow? => arrow?
  | send, _ | both, _ => none

/-- The arrow behind the keyword of a channel type that only sends. -/
def ChanDir.sendArrow? : ChanDir → Option Offset → Option Offset
  | send, arrow? => arrow?
  | recv, _ | both, _ => none

/-- The commas in front of the dots of a call; without dots, all of them. -/
def commasBeforeDots (commas : List Offset) : Option Offset → List Offset
  | none => commas
  | some dots => commas.takeWhile (· < dots)

/-- The last comma of a call, if it stands behind the dots. -/
def commaBehindDots (commas : List Offset) : Option Offset → Option Offset
  | none => none
  | some dots => commas.getLast?.filter (dots < ·)

/-- The start of the first of some constructs, or `default` if there is none. -/
def startOfFirst (layouts : List Layout) (default : Offset) : Offset :=
  (layouts.head?.map Layout.start).getD default

/-- The end of the last of some constructs, or `default` if there is none. -/
def stopOfLast (layouts : List Layout) (default : Offset) : Offset :=
  (layouts.getLast?.map Layout.stop).getD default

/-- The end of a construct, or `default` if it is missing. -/
def stopOf (layout? : Option Layout) (default : Offset) : Offset :=
  (layout?.map Layout.stop).getD default

mutual

/-- The layout of an expression or a type. -/
def Expr.layout : Expr → Layout
  | .bad span => .placeholder .badExpr span
  | .ident name => name.layout
  | .basicLit literal => literal.layout
  | .compositeLit type? lbrace elements commas rbrace =>
    let type? := Expr.layout? type?
    .node .compositeLit ⟨(type?.map Layout.start).getD lbrace, rbrace.advance 1⟩
      [.child type?, .checkpoint "AfterType" type?.isSome, .token "\x7b" (some lbrace),
       .checkpoint "AfterLbrace" true, .list (Expr.layouts elements) commas,
       .token "\x7d" (some rbrace)]
  | .keyValue key colon value =>
    let key := key.layout
    let value := value.layout
    .node .keyValueExpr ⟨key.start, value.stop⟩
      [.child (some key), .checkpoint "AfterKey" true, .token ":" (some colon),
       .checkpoint "AfterColon" true, .child (some value)]
  | .paren lparen inner rparen =>
    .node .parenExpr ⟨lparen, rparen.advance 1⟩
      [.token "(" (some lparen), .checkpoint "AfterLparen" true, .child (some inner.layout),
       .checkpoint "AfterX" true, .token ")" (some rparen)]
  | .selector base period name =>
    let base := base.layout
    .node .selectorExpr ⟨base.start, name.layout.stop⟩
      [.child (some base), .checkpoint "AfterX" true, .token "." (some period),
       .child (some name.layout)]
  | .index base lbrack index rbrack =>
    let base := base.layout
    .node .indexExpr ⟨base.start, rbrack.advance 1⟩
      [.child (some base), .checkpoint "AfterX" true, .token "[" (some lbrack),
       .checkpoint "AfterLbrack" true, .child (some index.layout),
       .checkpoint "AfterIndex" true, .token "]" (some rbrack)]
  | .slice base lbrack low? colon high? secondColon? max? rbrack =>
    let base := base.layout
    let low? := Expr.layout? low?
    let high? := Expr.layout? high?
    let max? := Expr.layout? max?
    .node .sliceExpr ⟨base.start, rbrack.advance 1⟩
      [.child (some base), .checkpoint "AfterX" true, .token "[" (some lbrack),
       .checkpoint "AfterLbrack" true, .child low?, .checkpoint "AfterLow" low?.isSome,
       .token ":" (some colon), .child high?, .checkpoint "AfterHigh" high?.isSome,
       .token ":" secondColon?, .child max?, .checkpoint "AfterMax" max?.isSome,
       .token "]" (some rbrack)]
  | .typeAssert base period lparen type? typeKeyword? rparen =>
    let base := base.layout
    .node .typeAssertExpr ⟨base.start, rparen.advance 1⟩
      [.child (some base), .checkpoint "AfterX" true, .token "." (some period),
       .checkpoint "AfterPeriod" true, .token "(" (some lparen),
       .checkpoint "AfterLparen" true, .child (Expr.layout? type?),
       .token "type" typeKeyword?, .checkpoint "AfterType" true, .token ")" (some rparen)]
  | .star star operand =>
    let operand := operand.layout
    .node .starExpr ⟨star, operand.stop⟩
      [.token "*" (some star), .checkpoint "AfterStar" true, .child (some operand)]
  | .unary opPlace op operand =>
    let operand := operand.layout
    .node .unaryExpr ⟨opPlace, operand.stop⟩
      [.lexeme (some (opPlace, op.text)), .checkpoint "AfterOp" true, .child (some operand)]
  | .binary left opPlace op right =>
    let left := left.layout
    let right := right.layout
    .node .binaryExpr ⟨left.start, right.stop⟩
      [.child (some left), .checkpoint "AfterX" true, .lexeme (some (opPlace, op.text)),
       .checkpoint "AfterOp" true, .child (some right)]
  | .call call => call.layout
  | .funcLit type body =>
    let type := type.layout
    let body := body.layout
    .node .funcLit ⟨type.start, body.stop⟩
      [.child (some type), .checkpoint "AfterType" true, .child (some body)]
  | .arrayType lbrack length? rbrack element =>
    let length? := Expr.layout? length?
    let element := element.layout
    .node .arrayType ⟨lbrack, element.stop⟩
      [.token "[" (some lbrack), .checkpoint "AfterLbrack" true, .child length?,
       .checkpoint "AfterLen" length?.isSome, .token "]" (some rbrack), .child (some element)]
  | .mapType map lbrack key rbrack value =>
    let value := value.layout
    .node .mapType ⟨map, value.stop⟩
      [.token "map" (some map), .checkpoint "AfterMap" true, .token "[" (some lbrack),
       .child (some key.layout), .token "]" (some rbrack), .checkpoint "AfterKey" true,
       .child (some value)]
  | .structType struct fields =>
    let fields := fields.layout
    .node .structType ⟨struct, fields.stop⟩
      [.token "struct" (some struct), .checkpoint "AfterStruct" true, .child (some fields)]
  | .funcType type => type.layout
  | .interfaceType interface methods =>
    let methods := methods.layout
    .node .interfaceType ⟨interface, methods.stop⟩
      [.token "interface" (some interface), .checkpoint "AfterInterface" true,
       .child (some methods)]
  | .chanType chan arrow? dir value =>
    let recvArrow? := dir.recvArrow? arrow?
    let sendArrow? := dir.sendArrow? arrow?
    let value := value.layout
    .node .chanType ⟨recvArrow?.getD chan, value.stop⟩
      [.token "<-" recvArrow?, .token "chan" (some chan), .checkpoint "AfterChan" true,
       .token "<-" sendArrow?, .checkpoint "AfterArrow" sendArrow?.isSome, .child (some value)]
  | .ellipsis dots element? =>
    let element? := Expr.layout? element?
    .node .ellipsis ⟨dots, stopOf element? (dots.advance 3)⟩
      [.token "..." (some dots), .checkpoint "AfterEllipsis" element?.isSome, .child element?]

/-- The layout of an expression that may be missing. -/
def Expr.layout? : Option Expr → Option Layout
  | none => none
  | some expr => some expr.layout

/-- The layouts of some expressions. -/
def Expr.layouts : List Expr → List Layout
  | [] => []
  | expr :: exprs => expr.layout :: Expr.layouts exprs

/-- The layout of a call. -/
def Call.layout : Call → Layout
  | { fn, lparen, args, commas, dots?, rparen } =>
    let fn := fn.layout
    .node .callExpr ⟨fn.start, rparen.advance 1⟩
      [.child (some fn), .checkpoint "AfterFun" true, .token "(" (some lparen),
       .checkpoint "AfterLparen" true,
       .list (Expr.layouts args) (commasBeforeDots commas dots?),
       .checkpoint "AfterArgs" dots?.isSome, .token "..." dots?,
       .checkpoint "AfterEllipsis" dots?.isSome, .token "," (commaBehindDots commas dots?),
       .token ")" (some rparen)]

/-- The layout of a signature. -/
def FuncType.layout : FuncType → Layout
  | { func?, params, results? } =>
    let params := params.layout
    let results? := FieldList.layout? results?
    .node .funcType ⟨func?.getD params.start, stopOf results? params.stop⟩
      [.token "func" func?, .checkpoint "AfterFunc" func?.isSome, .child (some params),
       .checkpoint "AfterParams" true, .child results?]

/-- The layout of a field. -/
def Field.layout : Field → Layout
  | { names, commas, type, tag? } =>
    let names := names.map Ident.layout
    let type := type.layout
    let tag? := tag?.map BasicLit.layout
    .node .field ⟨startOfFirst names type.start, stopOf tag? type.stop⟩
      [.list names commas, .checkpoint "AfterNames" !names.isEmpty, .child (some type),
       .checkpoint "AfterType" tag?.isSome, .child tag?]

/-- The layouts of some fields. -/
def Field.layouts : List Field → List Layout
  | [] => []
  | field :: fields => field.layout :: Field.layouts fields

/-- The layout of a list of fields. -/
def FieldList.layout : FieldList → Layout
  | { delimiter, opening?, fields, separators, closing? } =>
    let fields := Field.layouts fields
    let start := opening?.getD (startOfFirst fields .zero)
    let stop := (closing?.map (·.advance 1)).getD (stopOfLast fields start)
    .node .fieldList ⟨start, stop⟩
      [.lexeme (opening?.map (·, delimiter.opening)),
       .checkpoint "AfterOpening" opening?.isSome, .list fields separators,
       .lexeme (closing?.map (·, delimiter.closing))]

/-- The layout of a list of fields that may be missing. -/
def FieldList.layout? : Option FieldList → Option Layout
  | none => none
  | some fields => some fields.layout

/-- The layout of a block. -/
def Block.layout : Block → Layout
  | { lbrace, stmts, rbrace } =>
    .node .blockStmt ⟨lbrace, rbrace.advance 1⟩
      [.token "\x7b" (some lbrace), .checkpoint "AfterLbrace" true,
       .list (Stmt.layouts stmts) [], .token "\x7d" (some rbrace)]

/-- The layout of one entry of a declaration. -/
def Spec.layout : Spec → Layout
  | .importPath name? path =>
    let name? := name?.map Ident.layout
    let path := path.layout
    .node .importSpec ⟨(name?.map Layout.start).getD path.start, path.stop⟩
      [.child name?, .checkpoint "AfterName" name?.isSome, .child (some path)]
  | .values names nameCommas type? assign? values valueCommas =>
    let names := names.map Ident.layout
    let type? := Expr.layout? type?
    let values := Expr.layouts values
    let start := startOfFirst names .zero
    .node .valueSpec ⟨start, stopOfLast values (stopOf type? (stopOfLast names start))⟩
      [.list names nameCommas, .checkpoint "AfterNames" true, .child type?,
       .token "=" assign?, .checkpoint "AfterAssign" assign?.isSome, .list values valueCommas]
  | .typeName name assign? type =>
    let name := name.layout
    let type := type.layout
    .node .typeSpec ⟨name.start, type.stop⟩
      [.child (some name), .checkpoint "AfterName" true, .token "=" assign?,
       .child (some type)]

/-- The layouts of the entries of a declaration. -/
def Spec.layouts : List Spec → List Layout
  | [] => []
  | spec :: specs => spec.layout :: Spec.layouts specs

/-- The layout of an import, constant, variable or type declaration. -/
def GenDecl.layout : GenDecl → Layout
  | { place, keyword, lparen?, specs, rparen? } =>
    let specs := Spec.layouts specs
    let bare := stopOfLast specs (place.advance keyword.text.utf8ByteSize)
    .node .genDecl ⟨place, (rparen?.map (·.advance 1)).getD bare⟩
      [.lexeme (some (place, keyword.text)), .checkpoint "AfterTok" true,
       .token "(" lparen?, .checkpoint "AfterLparen" lparen?.isSome, .list specs [],
       .token ")" rparen?]

/-- The layout of a statement. -/
def Stmt.layout : Stmt → Layout
  | .bad span => .placeholder .badStmt span
  | .empty semicolon implicit =>
    .node .emptyStmt (.ofLength semicolon (if implicit then 0 else 1))
      [.token ";" (if implicit then none else some semicolon)]
  | .labeled label colon stmt =>
    let label := label.layout
    let stmt := stmt.layout
    .node .labeledStmt ⟨label.start, stmt.stop⟩
      [.child (some label), .checkpoint "AfterLabel" true, .token ":" (some colon),
       .checkpoint "AfterColon" true, .child (some stmt)]
  | .decl decl =>
    let decl := decl.layout
    .node .declStmt decl.span [.child (some decl)]
  | .expr expr =>
    let expr := expr.layout
    .node .exprStmt expr.span [.child (some expr)]
  | .send channel arrow value =>
    let channel := channel.layout
    let value := value.layout
    .node .sendStmt ⟨channel.start, value.stop⟩
      [.child (some channel), .checkpoint "AfterChan" true, .token "<-" (some arrow),
       .checkpoint "AfterArrow" true, .child (some value)]
  | .assign left leftCommas opPlace op right rightCommas =>
    let left := Expr.layouts left
    let right := Expr.layouts right
    .node .assignStmt
      ⟨startOfFirst left opPlace, stopOfLast right (opPlace.advance op.text.utf8ByteSize)⟩
      [.list left leftCommas, .checkpoint "AfterLhs" true, .lexeme (some (opPlace, op.text)),
       .checkpoint "AfterTok" true, .list right rightCommas]
  | .incDec operand opPlace op =>
    let operand := operand.layout
    .node .incDecStmt ⟨operand.start, opPlace.advance 2⟩
      [.child (some operand), .checkpoint "AfterX" true, .lexeme (some (opPlace, op.text))]
  | .returnStmt place results commas =>
    let results := Expr.layouts results
    .node .returnStmt ⟨place, stopOfLast results (place.advance 6)⟩
      [.token "return" (some place), .checkpoint "AfterReturn" true, .list results commas]
  | .branch place keyword label? =>
    let label? := label?.map Ident.layout
    .node .branchStmt ⟨place, stopOf label? (place.advance keyword.text.utf8ByteSize)⟩
      [.lexeme (some (place, keyword.text)), .checkpoint "AfterTok" true, .child label?]
  | .block block => block.layout
  | .ifStmt place init? semicolon? cond body elsePlace? else? =>
    let init? := Stmt.layout? init?
    let body := body.layout
    let else? := Stmt.layout? else?
    .node .ifStmt ⟨place, stopOf else? body.stop⟩
      [.token "if" (some place), .checkpoint "AfterIf" true, .child init?,
       .checkpoint "AfterInit" init?.isSome, .token ";" semicolon?, .child (some cond.layout),
       .checkpoint "AfterCond" true, .child (some body), .token "else" elsePlace?,
       .checkpoint "AfterElse" else?.isSome, .child else?]
  | .forStmt place init? initSemicolon? cond? condSemicolon? post? body =>
    let init? := Stmt.layout? init?
    let cond? := Expr.layout? cond?
    let post? := Stmt.layout? post?
    let body := body.layout
    .node .forStmt ⟨place, body.stop⟩
      [.token "for" (some place), .checkpoint "AfterFor" true, .child init?,
       .checkpoint "AfterInit" init?.isSome, .token ";" initSemicolon?, .child cond?,
       .checkpoint "AfterCond" cond?.isSome, .token ";" condSemicolon?, .child post?,
       .checkpoint "AfterPost" post?.isSome, .child (some body)]
  | .rangeStmt place key? comma? value? opPlace? op? range operand body =>
    let key? := Expr.layout? key?
    let value? := Expr.layout? value?
    let body := body.layout
    .node .rangeStmt ⟨place, body.stop⟩
      [.token "for" (some place), .checkpoint "AfterFor" true, .child key?,
       .checkpoint "AfterKey" key?.isSome, .token "," comma?, .child value?,
       .checkpoint "AfterValue" value?.isSome,
       .lexeme (opPlace?.bind fun opPlace => op?.map fun op => (opPlace, op.text)),
       .token "range" (some range), .checkpoint "AfterRange" true,
       .child (some operand.layout), .checkpoint "AfterX" true, .child (some body)]
  | .switchStmt place init? semicolon? tag? body =>
    let init? := Stmt.layout? init?
    let tag? := Expr.layout? tag?
    let body := body.layout
    .node .switchStmt ⟨place, body.stop⟩
      [.token "switch" (some place), .checkpoint "AfterSwitch" true, .child init?,
       .checkpoint "AfterInit" init?.isSome, .token ";" semicolon?, .child tag?,
       .checkpoint "AfterTag" tag?.isSome, .child (some body)]
  | .caseClause place keyword exprs commas colon body =>
    let exprs := Expr.layouts exprs
    let body := Stmt.layouts body
    .node .caseClause ⟨place, stopOfLast body (colon.advance 1)⟩
      [.lexeme (some (place, keyword.text)), .checkpoint "AfterCase" true,
       .list exprs commas, .checkpoint "AfterList" !exprs.isEmpty, .token ":" (some colon),
       .checkpoint "AfterColon" true, .list body []]
  | .typeSwitch place init? semicolon? guard body =>
    let init? := Stmt.layout? init?
    let body := body.layout
    .node .typeSwitchStmt ⟨place, body.stop⟩
      [.token "switch" (some place), .checkpoint "AfterSwitch" true, .child init?,
       .checkpoint "AfterInit" init?.isSome, .token ";" semicolon?,
       .child (some guard.layout), .checkpoint "AfterAssign" true, .child (some body)]
  | .selectStmt place body =>
    let body := body.layout
    .node .selectStmt ⟨place, body.stop⟩
      [.token "select" (some place), .checkpoint "AfterSelect" true, .child (some body)]
  | .commClause place keyword comm? colon body =>
    let comm? := Stmt.layout? comm?
    let body := Stmt.layouts body
    .node .commClause ⟨place, stopOfLast body (colon.advance 1)⟩
      [.lexeme (some (place, keyword.text)), .checkpoint "AfterCase" true, .child comm?,
       .checkpoint "AfterComm" comm?.isSome, .token ":" (some colon),
       .checkpoint "AfterColon" true, .list body []]
  | .goStmt place call =>
    let call := call.layout
    .node .goStmt ⟨place, call.stop⟩
      [.token "go" (some place), .checkpoint "AfterGo" true, .child (some call)]
  | .deferStmt place call =>
    let call := call.layout
    .node .deferStmt ⟨place, call.stop⟩
      [.token "defer" (some place), .checkpoint "AfterDefer" true, .child (some call)]

/-- The layout of a statement that may be missing. -/
def Stmt.layout? : Option Stmt → Option Layout
  | none => none
  | some stmt => some stmt.layout

/-- The layouts of some statements. -/
def Stmt.layouts : List Stmt → List Layout
  | [] => []
  | stmt :: stmts => stmt.layout :: Stmt.layouts stmts

end

/-- The layout of a declared function. It lays out its signature itself. -/
def FuncDecl.layout (decl : FuncDecl) : Layout :=
  let receiver? := decl.receiver?.map FieldList.layout
  let params := decl.type.params.layout
  let results? := decl.type.results?.map FieldList.layout
  let body? := decl.body?.map Block.layout
  .node .funcDecl ⟨decl.func, stopOf body? (stopOf results? params.stop)⟩
    [.token "func" (some decl.func), .checkpoint "AfterFunc" true, .child receiver?,
     .checkpoint "AfterRecv" receiver?.isSome, .child (some decl.name.layout),
     .checkpoint "AfterName" true, .child (some params), .checkpoint "AfterParams" true,
     .child results?, .checkpoint "AfterResults" results?.isSome, .child body?]

/-- The layout of a declaration. -/
def Decl.layout : Decl → Layout
  | .bad span => .placeholder .badDecl span
  | .gen decl => decl.layout
  | .func decl => decl.layout

/-- The layout of a file. -/
def File.layout (file : File) : Layout :=
  .node .file file.span
    [.token "package" (some file.package), .checkpoint "AfterPackage" true,
     .child (some file.name.layout), .checkpoint "AfterName" true,
     .list (file.decls.map Decl.layout) []]

/-- The bytes that an expression covers. -/
def Expr.span (expr : Expr) : Span := expr.layout.span

/-- The bytes that a statement covers. -/
def Stmt.span (stmt : Stmt) : Span := stmt.layout.span

/-- The bytes that a name covers. -/
def Ident.span (name : Ident) : Span := name.layout.span

end GoTrace
