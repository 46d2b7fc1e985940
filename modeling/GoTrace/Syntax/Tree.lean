import GoTrace.Token.Basic

/-!
# Syntax trees

The tree of a Go source file. A node records the offset of every keyword and mark that it owns, the
commas and header semicolons among them, and the text of every name and literal, so a tree says
exactly which token stands where. Implicit semicolons have no text and are not recorded.

The three `bad` constructors are placeholders for text that could not be read. The parser of this
library never makes one, but other makers of trees may.

Everything that can hold an expression can, through a function literal, hold a statement, so the
types from `Expr` to `Stmt` are defined together.
-/

namespace GoTrace

/-- A name, and the offset where it stands. -/
structure Ident where
  place : Offset
  name : String

/-- A literal, and the offset where it stands. The text is as it is written, quotes included. -/
structure BasicLit where
  place : Offset
  kind : LitKind
  text : String

/-- Which ways values may go through a channel. -/
inductive ChanDir | both | send | recv
  deriving DecidableEq

/-- The brackets around a list of fields: round for parameters and results, curly for the fields of
a structure and the methods of an interface. -/
inductive Delimiter | paren | brace
  deriving DecidableEq

/-- The opening bracket. -/
def Delimiter.opening : Delimiter → String
  | paren => "("
  | brace => "\x7b"

/-- The closing bracket. -/
def Delimiter.closing : Delimiter → String
  | paren => ")"
  | brace => "\x7d"

mutual

/-- An expression or a type. -/
inductive Expr
  /-- A placeholder. -/
  | bad (span : Span)
  | ident (name : Ident)
  | basicLit (literal : BasicLit)
  /-- A type and its elements between braces; inside another such literal the type may be left out.
  The commas include a trailing one. -/
  | compositeLit (type? : Option Expr) (lbrace : Offset) (elements : List Expr)
      (commas : List Offset) (rbrace : Offset)
  | keyValue (key : Expr) (colon : Offset) (value : Expr)
  | paren (lparen : Offset) (inner : Expr) (rparen : Offset)
  | selector (base : Expr) (period : Offset) (name : Ident)
  | index (base : Expr) (lbrack : Offset) (index : Expr) (rbrack : Offset)
  | slice (base : Expr) (lbrack : Offset) (low? : Option Expr) (colon : Offset)
      (high? : Option Expr) (secondColon? : Option Offset) (max? : Option Expr) (rbrack : Offset)
  /-- A type assertion. A type switch has the keyword `type` in place of the type. -/
  | typeAssert (base : Expr) (period lparen : Offset) (type? : Option Expr)
      (typeKeyword? : Option Offset) (rparen : Offset)
  | star (star : Offset) (operand : Expr)
  | unary (opPlace : Offset) (op : Operator) (operand : Expr)
  | binary (left : Expr) (opPlace : Offset) (op : Operator) (right : Expr)
  | call (call : Call)
  | funcLit (type : FuncType) (body : Block)
  | arrayType (lbrack : Offset) (length? : Option Expr) (rbrack : Offset) (element : Expr)
  | mapType (map lbrack : Offset) (key : Expr) (rbrack : Offset) (value : Expr)
  | structType (struct : Offset) (fields : FieldList)
  | funcType (type : FuncType)
  | interfaceType (interface : Offset) (methods : FieldList)
  /-- A channel type. The arrow stands in front of the keyword for receiving, behind it for
  sending. -/
  | chanType (chan : Offset) (arrow? : Option Offset) (dir : ChanDir) (value : Expr)
  /-- Three dots: in front of the type of a variadic parameter, or for the length of an array. -/
  | ellipsis (dots : Offset) (element? : Option Expr)

/-- A function and its arguments. The commas include a trailing one; the dots stand behind the last
argument. -/
structure Call where
  fn : Expr
  lparen : Offset
  args : List Expr
  commas : List Offset
  dots? : Option Offset
  rparen : Offset

/-- Parameters and results. The keyword `func` is missing from the signature of a declared function
or of a method. -/
structure FuncType where
  func? : Option Offset
  params : FieldList
  results? : Option FieldList

/-- A parameter, result, structure field or interface method. -/
structure Field where
  names : List Ident
  commas : List Offset
  type : Expr
  tag? : Option BasicLit

/-- Fields between brackets. Only a single result without a name may go without brackets. -/
structure FieldList where
  delimiter : Delimiter
  opening? : Option Offset
  fields : List Field
  separators : List Offset
  closing? : Option Offset

/-- Statements between braces. -/
structure Block where
  lbrace : Offset
  stmts : List Stmt
  rbrace : Offset

/-- One import, constant, variable or type of a declaration. -/
inductive Spec
  | importPath (name? : Option Ident) (path : BasicLit)
  | values (names : List Ident) (nameCommas : List Offset) (type? : Option Expr)
      (assign? : Option Offset) (values : List Expr) (valueCommas : List Offset)
  | typeName (name : Ident) (assign? : Option Offset) (type : Expr)

/-- An import, constant, variable or type declaration; several stand between round brackets. -/
structure GenDecl where
  place : Offset
  keyword : Keyword
  lparen? : Option Offset
  specs : List Spec
  rparen? : Option Offset

/-- A statement. -/
inductive Stmt
  /-- A placeholder. -/
  | bad (span : Span)
  /-- The empty statement. An implicit one has no semicolon: it stands between a label and the
  closing brace at its offset. -/
  | empty (semicolon : Offset) (implicit : Bool)
  | labeled (label : Ident) (colon : Offset) (stmt : Stmt)
  | decl (decl : GenDecl)
  | expr (expr : Expr)
  | send (channel : Expr) (arrow : Offset) (value : Expr)
  | assign (left : List Expr) (leftCommas : List Offset) (opPlace : Offset) (op : Operator)
      (right : List Expr) (rightCommas : List Offset)
  | incDec (operand : Expr) (opPlace : Offset) (op : Operator)
  | returnStmt (place : Offset) (results : List Expr) (commas : List Offset)
  | branch (place : Offset) (keyword : Keyword) (label? : Option Ident)
  | block (block : Block)
  | ifStmt (place : Offset) (init? : Option Stmt) (semicolon? : Option Offset) (cond : Expr)
      (body : Block) (elsePlace? : Option Offset) (else? : Option Stmt)
  | forStmt (place : Offset) (init? : Option Stmt) (initSemicolon? : Option Offset)
      (cond? : Option Expr) (condSemicolon? : Option Offset) (post? : Option Stmt) (body : Block)
  | rangeStmt (place : Offset) (key? : Option Expr) (comma? : Option Offset)
      (value? : Option Expr) (opPlace? : Option Offset) (op? : Option Operator) (range : Offset)
      (operand : Expr) (body : Block)
  | switchStmt (place : Offset) (init? : Option Stmt) (semicolon? : Option Offset)
      (tag? : Option Expr) (body : Block)
  | caseClause (place : Offset) (keyword : Keyword) (exprs : List Expr) (commas : List Offset)
      (colon : Offset) (body : List Stmt)
  | typeSwitch (place : Offset) (init? : Option Stmt) (semicolon? : Option Offset)
      (guard : Stmt) (body : Block)
  | selectStmt (place : Offset) (body : Block)
  | commClause (place : Offset) (keyword : Keyword) (comm? : Option Stmt) (colon : Offset)
      (body : List Stmt)
  | goStmt (place : Offset) (call : Call)
  | deferStmt (place : Offset) (call : Call)

end

/-- A function or method declaration. It owns the keyword `func`; the body may be missing. -/
structure FuncDecl where
  func : Offset
  receiver? : Option FieldList
  name : Ident
  type : FuncType
  body? : Option Block

/-- A declaration outside all functions. -/
inductive Decl
  /-- A placeholder. -/
  | bad (span : Span)
  | gen (decl : GenDecl)
  | func (decl : FuncDecl)

/-- A source file. The comments are all those of the file, in order. Unlike any other node a file
spans the whole text. -/
structure File where
  package : Offset
  name : Ident
  decls : List Decl
  comments : List Comment
  span : Span

/-- The number of things a list of fields declares: a field without names declares one. -/
def FieldList.arity (l : FieldList) : Nat :=
  l.fields.foldl (fun n field => n + max field.names.length 1) 0

/-- Whether an expression is the guard of a type switch. -/
def Expr.isTypeGuard : Expr → Bool
  | typeAssert _ _ _ _ typeKeyword? _ => typeKeyword?.isSome
  | _ => false

end GoTrace
