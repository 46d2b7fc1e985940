import GoTrace.Grammar.Nested
import GoTrace.Grammar.Parameters

/-!
# Types

The rules for types, and for the parameters and results that signatures share with declared
functions.
-/

namespace GoTrace.Grammar

open GoTrace.Parser

/-- A type name, with or without the name of a package in front. -/
def typeName : Parser Expr := do
  let name ← expectIdent
  match ← takeOp? .period with
  | none => return .ident name
  | some period => return .selector (.ident name) period (← expectIdent)

/-- The length of an array type: missing for a slice, dots, or an expression. -/
def arrayLength? (rules : Nested) : Parser (Option Expr) := do
  if ← nextIsOp .rbrack then return none
  else
    match ← takeOp? .ellipsis with
    | some dots => return some (.ellipsis dots none)
    | none => return some (← withLiterals true rules.expr)

/-- An array or slice type. -/
def arrayType (rules : Nested) : Parser Expr := do
  let lbrack ← expectOp .lbrack
  let length? ← arrayLength? rules
  let rbrack ← expectOp .rbrack
  return .arrayType lbrack length? rbrack (← rules.type)

/-- A map type. -/
def mapType (rules : Nested) : Parser Expr := do
  let map ← expectKeyword .mapKw
  let lbrack ← expectOp .lbrack
  let key ← rules.type
  let rbrack ← expectOp .rbrack
  return .mapType map lbrack key rbrack (← rules.type)

/-- A channel type. -/
def chanType (rules : Nested) : Parser Expr := do
  match ← takeOp? .arrow with
  | some arrow =>
    let chan ← expectKeyword .chanKw
    return .chanType chan (some arrow) .recv (← rules.type)
  | none =>
    let chan ← expectKeyword .chanKw
    match ← takeOp? .arrow with
    | some arrow => return .chanType chan (some arrow) .send (← rules.type)
    | none => return .chanType chan none .both (← rules.type)

/-- A type between round brackets. -/
def parenType (rules : Nested) : Parser Expr := do
  let lparen ← takePlace
  let inner ← rules.type
  return .paren lparen inner (← expectOp .rparen)

/-- A pointer type. -/
def pointerType (rules : Nested) : Parser Expr := do
  let star ← takePlace
  return .star star (← rules.type)

/-! ## Structures and interfaces -/

/-- Fields between braces, each at the end of its line. -/
def bracedFields (field : Parser Field) : Parser FieldList := do
  let opening ← expectOp .lbrace
  let fields ← many (nextIsOp .rbrace) do
    let field ← field
    endOfLine .rbrace
    return field
  let closing ← expectOp .rbrace
  return ⟨.brace, some opening, fields, [], some closing⟩

/-- Whether a name in front of such a token is the type of an embedded field. -/
def endsEmbedded : Option TokenKind → Bool
  | none | some (.semicolon _) | some (.literal .string _) | some .eof
  | some (.operator .period) | some (.operator .rbrace) => true
  | _ => false

/-- The tag of a field. -/
def tag? : Parser (Option BasicLit) := do
  if ← nextIsString then return some (← expectLiteral) else return none

/-- A field of a structure: names and their type, or an embedded type. -/
def structField (rules : Nested) : Parser Field := do
  let (names, commas) ←
    if (← nextIsIdent) && !endsEmbedded (← peekSecondKind?) then commaSeparated expectIdent
    else pure ([], [])
  let type ← rules.type
  return ⟨names, commas, type, ← tag?⟩

/-- A structure type. -/
def structType (rules : Nested) : Parser Expr := do
  let struct ← expectKeyword .structKw
  return .structType struct (← bracedFields (structField rules))

/-! ## Signatures -/

/-- Whether a name in front of such a token is a parameter without a name of its own. -/
def endsParameter : Option TokenKind → Bool
  | some (.operator .comma) | some (.operator .rparen) | some (.operator .period) => true
  | _ => false

/-- The type of a parameter, with or without dots in front. -/
def parameterType (rules : Nested) : Parser Expr := do
  match ← takeOp? .ellipsis with
  | some dots => return .ellipsis dots (some (← rules.type))
  | none => rules.type

/-- An entry of a parameter list; it is the last if no comma is behind it. -/
def parameter (rules : Nested) : Parser (ParamEntry × Bool) := do
  let name? ←
    if (← nextIsIdent) && !endsParameter (← peekSecondKind?) then some <$> expectIdent
    else pure none
  let type ← parameterType rules
  let comma? ← takeOp? .comma
  return (⟨name?, type, comma?⟩, comma?.isNone)

/-- Parameters, or results, between round brackets. -/
def parameters (rules : Nested) : Parser FieldList := do
  let opening ← expectOp .lparen
  let entries ← collect (nextIsOp .rparen) (parameter rules)
  let closing ← expectOp .rparen
  let (fields, separators) ← fromExcept (ParamEntry.group entries)
  return ⟨.paren, some opening, fields, separators, some closing⟩

/-- Whether a type may begin with such a token. -/
def startsType : Option TokenKind → Bool
  | some (.ident _) | some (.operator .mul) | some (.operator .lbrack)
  | some (.operator .lparen) | some (.operator .arrow) | some (.keyword .mapKw)
  | some (.keyword .structKw) | some (.keyword .funcKw) | some (.keyword .chanKw)
  | some (.keyword .interfaceKw) => true
  | _ => false

/-- The results of a signature: between brackets, a single type, or none. -/
def results? (rules : Nested) : Parser (Option FieldList) := do
  if ← nextIsOp .lparen then return some (← parameters rules)
  else if startsType (← peekKind?) then
    let type ← rules.type
    return some ⟨.paren, none, [⟨[], [], type, none⟩], [], none⟩
  else return none

/-- Parameters and results; the keyword `func` may be in front of them. -/
def signature (rules : Nested) (func? : Option Offset) : Parser FuncType := do
  let params ← parameters rules
  return ⟨func?, params, ← results? rules⟩

/-- A method of an interface, or an embedded type. -/
def interfaceElem (rules : Nested) : Parser Field := do
  if (← nextIsIdent) && (← peekSecondKind?) == some (.operator .lparen) then
    let name ← expectIdent
    return ⟨[name], [], .funcType (← signature rules none), none⟩
  else
    return ⟨[], [], ← rules.type, none⟩

/-- An interface type. -/
def interfaceType (rules : Nested) : Parser Expr := do
  let interface ← expectKeyword .interfaceKw
  return .interfaceType interface (← bracedFields (interfaceElem rules))

/-- A function type. -/
def funcType (rules : Nested) : Parser Expr := do
  let func ← takePlace
  return .funcType (← signature rules (some func))

/-! ## All types -/

/-- A type. -/
def type (rules : Nested) : Parser Expr := do
  match ← peekKind? with
  | some (.ident _) => typeName
  | some (.operator .mul) => pointerType rules
  | some (.operator .lbrack) => arrayType rules
  | some (.operator .arrow) => chanType rules
  | some (.operator .lparen) => parenType rules
  | some (.keyword .mapKw) => mapType rules
  | some (.keyword .structKw) => structType rules
  | some (.keyword .funcKw) => funcType rules
  | some (.keyword .chanKw) => chanType rules
  | some (.keyword .interfaceKw) => interfaceType rules
  | _ => unexpected .type

end GoTrace.Grammar
