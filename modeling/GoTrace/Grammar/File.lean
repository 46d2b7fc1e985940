import GoTrace.Grammar.Stmts
import GoTrace.Token.Lexer

/-!
# Files

The rules for a whole file, and the rules of every level of nesting put together.

`parseTokens` reads a list of tokens that need not come from a text; `parse` reads a text.
-/

namespace GoTrace

/-- The rules that may go `depth` levels deeper. -/
def Nested.level : (depth : Nat) → Nested
  | 0 => refusing
  | depth + 1 =>
    let rules := level depth
    { type := Grammar.type rules
      expr := Grammar.expr rules
      operand := Grammar.unary rules
      literal := Grammar.literal rules
      block := Grammar.block rules
      ifStmt := Grammar.ifStmt rules
      stmt := Grammar.stmt rules
      stmts := Grammar.stmts rules }

namespace Grammar

open GoTrace.Parser

/-- A function or method declaration. -/
def funcDecl (rules : Nested) : Parser FuncDecl := do
  let func ← expectKeyword .funcKw
  let receiver? ← if ← nextIsOp .lparen then some <$> parameters rules else pure none
  let name ← expectIdent
  if ← nextIsOp .lbrack then failHere (.unsupported .typeParameters)
  else
    let type ← signature rules none
    let body? ← if ← nextIsOp .lbrace then some <$> rules.block else pure none
    return ⟨func, receiver?, name, type, body?⟩

/-- A declaration outside all functions. -/
def decl (rules : Nested) : Parser Decl := do
  match ← peekKeyword? with
  | some .funcKw => return .func (← funcDecl rules)
  | some .importKw => return .gen (← genDecl rules .importKw)
  | some .varKw => return .gen (← genDecl rules .varKw)
  | some .constKw => return .gen (← genDecl rules .constKw)
  | some .typeKw => return .gen (← genDecl rules .typeKw)
  | _ => unexpected .declaration

/-- A declaration and the end of its line. -/
def declLine (rules : Nested) : Parser Decl := do
  let decl ← decl rules
  endOfDecl
  return decl

/-- A file. The comments at its end belong to the token for the end of the text. -/
def file (rules : Nested) : Parser File := do
  let package ← expectKeyword .packageKw
  let name ← expectIdent
  endOfDecl
  let decls ← many atEnd (declLine rules)
  let last ← take
  return ⟨package, name, decls, (← get).comments.toList, ⟨.zero, last.span.stop⟩⟩

end Grammar

/-- The file that a list of tokens spells, or the first reason why it spells none. -/
def parseTokens (tokens : List Token) : Except ParseError File :=
  match ((Grammar.file (.level maxNesting)).run ⟨true⟩).run ⟨tokens, #[], .zero⟩ with
  | .ok (file, _) => .ok file
  | .error e => .error e

/-- The file that a text spells, or the first reason why it spells none. -/
def parse (text : String) : Except ParseError File := parseTokens (tokens text)

end GoTrace
