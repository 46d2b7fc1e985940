import GoTrace.Source.LineTable
import GoTrace.Token.Basic

/-!
# Why a text is not a file

Reading a file stops at the first error. An error is a cause and the span where it was found: as a
rule the span of the token that does not fit, or of the construct that may not stand where it does.
-/

namespace GoTrace

/-- What could have stood where something else was found. -/
inductive Expectation
  | operator (op : Operator)
  | keyword (word : Keyword)
  | identifier
  | literal
  | type
  | expression
  | declaration
  | importPath
  | semicolon
  | newline
  /-- The end of a line, or the bracket that closes what the line belongs to. -/
  | newlineOr (close : Operator)
  | singleOperand
  | singleChannel
  /-- A sign behind several expressions that makes an assignment of them. -/
  | assignment
  /-- The rest of an `else`. -/
  | ifOrBlock
  | moreInput
  deriving DecidableEq

/-- The words for what was expected. -/
def Expectation.text : Expectation → String
  | operator op => s!"`{op.text}`"
  | keyword word => s!"`{word.text}`"
  | identifier => "identifier"
  | literal => "literal"
  | type => "type"
  | expression => "expression"
  | declaration => "declaration"
  | importPath => "import path"
  | semicolon => "`;`"
  | newline => "newline"
  | newlineOr close => s!"newline or `{close.text}`"
  | singleOperand => "single operand"
  | singleChannel => "single channel"
  | assignment => "`=` or `:=`"
  | ifOrBlock => "`if` or `\x7b`"
  | moreInput => "more input"

/-- Go that this library does not read. -/
inductive UnsupportedFeature
  | explicitSemicolons
  | typeParameters
  deriving DecidableEq

/-- The words for what is not read. -/
def UnsupportedFeature.text : UnsupportedFeature → String
  | explicitSemicolons => "explicit `;` separators"
  | typeParameters => "type parameters"

/-- Why a text is not a file. -/
inductive ParseFault
  /-- A token does not fit. -/
  | unexpectedToken (expected : Expectation) (found : TokenKind)
  /-- The tokens end too early. -/
  | unexpectedEnd (expected : Expectation)
  /-- Text that is no token. -/
  | badToken (message : String)
  | unsupported (feature : UnsupportedFeature)
  | nestingTooDeep
  /-- The operand of this keyword is no call. -/
  | notACall (keyword : Keyword)
  /-- A statement stands for a condition. -/
  | notACondition
  /-- A slice has a second colon but no index in front of it. -/
  | missingMiddleIndex
  /-- Some parameters have names, and another has a type that could not be one. -/
  | mixedParameters
  /-- The last of the named parameters has no type. -/
  | missingParameterType
  deriving DecidableEq

/-- The five kinds of faults. -/
inductive ParseErrorKind
  | unexpectedToken | unexpectedEnd | badToken | unsupported | nestingTooDeep
  deriving DecidableEq

namespace ParseFault

/-- The kind of a fault. -/
def kind : ParseFault → ParseErrorKind
  | unexpectedToken _ _ | notACall _ | notACondition | missingMiddleIndex | mixedParameters
  | missingParameterType => .unexpectedToken
  | unexpectedEnd _ => .unexpectedEnd
  | badToken _ => .badToken
  | unsupported _ => .unsupported
  | nestingTooDeep => .nestingTooDeep

/-- The words for what was expected, if the fault is that something else was found. -/
def expected? : ParseFault → Option String
  | unexpectedToken expected _ | unexpectedEnd expected => some expected.text
  | notACall _ => some "function call"
  | notACondition => some "expression"
  | missingMiddleIndex => some "index"
  | mixedParameters => some "parameter name"
  | missingParameterType => some "parameter type"
  | badToken _ | unsupported _ | nestingTooDeep => none

/-- The words for what was found, if the fault is that something else was expected. -/
def found? : ParseFault → Option String
  | unexpectedToken _ found => some found.describe
  | notACall _ => some "expression"
  | notACondition => some "statement"
  | missingMiddleIndex => some "`:`"
  | mixedParameters => some "type"
  | missingParameterType => some "`)`"
  | unexpectedEnd _ | badToken _ | unsupported _ | nestingTooDeep => none

/-- The full words for a fault. -/
def message : ParseFault → String
  | unexpectedToken expected found => s!"expected {expected.text}, found {found.describe}"
  | unexpectedEnd expected => s!"expected {expected.text}, found end of input"
  | badToken message => message
  | unsupported feature => s!"{feature.text} are not supported"
  | nestingTooDeep => "maximum nesting depth exceeded"
  | notACall keyword => s!"expression in {keyword.text} must be a function call"
  | notACondition => "expected condition expression, found statement"
  | missingMiddleIndex => "middle index required in 3-index slice"
  | mixedParameters => "mixed named and unnamed parameters"
  | missingParameterType => "missing parameter type"

/-- The short words for a fault. -/
def summary (fault : ParseFault) : String :=
  match fault.kind with
  | .unexpectedToken => "unexpected token: `" ++ fault.found?.getD "" ++ "`"
  | .unexpectedEnd => "unexpected end of input"
  | .badToken => "lexer error"
  | .unsupported => "unsupported syntax"
  | .nestingTooDeep => "nesting too deep"

/-- What is wrong with a token that stands where something else was expected. -/
def ofToken (expected : Expectation) : TokenKind → ParseFault
  | .eof => unexpectedEnd expected
  | .error message => badToken message
  | kind => unexpectedToken expected kind

end ParseFault

/-- A fault and where it was found. -/
structure ParseError where
  /-- What is wrong. -/
  fault : ParseFault
  /-- Where it was found. -/
  span : Span
  deriving DecidableEq

namespace ParseError

/-- The words for an error. -/
def message (e : ParseError) : String := e.fault.message

/-- The words for an error and the byte it starts at. -/
def display (e : ParseError) : String := s!"{e.message} (at byte {e.span.start.toNat})"

/-- The words for an error behind its line and column, if the table has them. -/
def located (e : ParseError) (table : LineTable) : String :=
  match table.position? e.span.start with
  | some position => s!"{position.text}: {e.message}"
  | none => e.message

end ParseError

end GoTrace
