import GoTrace.Grammar.ParseError
import GoTrace.Syntax.Tree

/-!
# Parsers

A parser reads tokens off the front of a list, puts the comments of the tokens it takes aside, and
returns a value, or fails for good: there is no going back. What it may look at besides the tokens
in front of it is the end of the last token taken, which is where an error lies when no token is
left, and whether a brace behind a name opens a composite literal here.

**Loops.** `Parser.iterate` repeats a step. The tokens that are left when it starts are its fuel:
one more step than there are tokens. A step of this grammar that goes on takes a token, so the fuel
never runs out; the error for that case is only there because a definition has to say something.
-/

namespace GoTrace

/-- The tokens still to be read, and what is kept of those already taken. -/
structure ParseState where
  /-- The tokens still to be read. -/
  tokens : List Token
  /-- The comments in front of the tokens taken. -/
  comments : Array Comment
  /-- The end of the last token taken. -/
  lastStop : Offset

/-- What a parser is told by the rules around it. -/
structure ParseContext where
  /-- Whether a brace behind a name opens a composite literal, and not a block. -/
  literals : Bool

/-- A reader of tokens. -/
abbrev Parser := ReaderT ParseContext (StateT ParseState (Except ParseError))

namespace Parser

/-! ## Looking at the next token -/

/-- The token behind the next `n`, if there is one. -/
def peekNth (n : Nat) : Parser (Option Token) := return (← get).tokens[n]?

/-- The kind of the next token, if there is one. -/
def peekKind? : Parser (Option TokenKind) := return (← get).tokens.head?.map (·.kind)

/-- The kind of the token behind the next one, if there is one. -/
def peekSecondKind? : Parser (Option TokenKind) := return (← peekNth 1).map (·.kind)

/-- The span of the next token, or the end of the last one if none is left. -/
def peekSpan : Parser Span := do
  let state ← get
  return (state.tokens.head?.map (·.span)).getD (.empty state.lastStop)

/-- The next token, if it is an operator. -/
def peekOp? : Parser (Option Operator) := do
  match ← peekKind? with
  | some (.operator op) => return some op
  | _ => return none

/-- The next token, if it is a keyword. -/
def peekKeyword? : Parser (Option Keyword) := do
  match ← peekKind? with
  | some (.keyword word) => return some word
  | _ => return none

/-- Whether the next token is this operator. -/
def nextIsOp (op : Operator) : Parser Bool := return (← peekKind?) == some (.operator op)

/-- Whether the next token is this keyword. -/
def nextIsKeyword (word : Keyword) : Parser Bool := return (← peekKind?) == some (.keyword word)

/-- Whether the next token is an identifier. -/
def nextIsIdent : Parser Bool := do
  match ← peekKind? with
  | some (.ident _) => return true
  | _ => return false

/-- Whether the next token is a string literal. -/
def nextIsString : Parser Bool := do
  match ← peekKind? with
  | some (.literal .string _) => return true
  | _ => return false

/-- Whether the next token is a semicolon, written or not. -/
def nextIsSemicolon : Parser Bool := do
  match ← peekKind? with
  | some (.semicolon _) => return true
  | _ => return false

/-- Whether the next token is a written semicolon. -/
def nextIsWrittenSemicolon : Parser Bool := return (← peekKind?) == some (.semicolon false)

/-- Whether no token is left but the end of the text. -/
def atEnd : Parser Bool := return (← peekKind?).all (· == .eof)

/-! ## Failing -/

/-- Fails with a fault found at a span. -/
def failAt {α : Type} (span : Span) (fault : ParseFault) : Parser α := throw ⟨fault, span⟩

/-- Fails because something else should stand where the next token stands. -/
def unexpected {α : Type} (expected : Expectation) : Parser α := do
  let state ← get
  match state.tokens.head? with
  | some token => failAt token.span (.ofToken expected token.kind)
  | none => failAt (.empty state.lastStop) (.unexpectedEnd expected)

/-- Fails because of the next token. -/
def failHere {α : Type} (fault : ParseFault) : Parser α := do failAt (← peekSpan) fault

/-- Returns a value worked out without tokens, or fails as it does. -/
def fromExcept {α : Type} : Except ParseError α → Parser α
  | .ok value => return value
  | .error e => throw e

/-! ## Taking tokens -/

/-- Takes the next token. -/
def take : Parser Token := do
  let state ← get
  match state.tokens with
  | [] => unexpected .moreInput
  | token :: rest =>
    match token.kind with
    | .error message => failAt token.span (.badToken message)
    | _ =>
      set { state with
        tokens := rest, comments := state.comments ++ token.comments, lastStop := token.span.stop }
      return token

/-- Takes the next token and says where it stands. -/
def takePlace : Parser Offset := return (← take).span.start

/-- Takes the next token if it is this operator, and says where it stands. -/
def takeOp? (op : Operator) : Parser (Option Offset) := do
  if ← nextIsOp op then return some (← takePlace) else return none

/-- Takes this operator, which has to be next. -/
def expectOp (op : Operator) : Parser Offset := do
  if ← nextIsOp op then takePlace else unexpected (.operator op)

/-- Takes this keyword, which has to be next. -/
def expectKeyword (word : Keyword) : Parser Offset := do
  if ← nextIsKeyword word then takePlace else unexpected (.keyword word)

/-- Takes a written semicolon, which has to be next. -/
def expectWrittenSemicolon : Parser Offset := do
  if ← nextIsWrittenSemicolon then takePlace else unexpected .semicolon

/-- Takes an identifier, which has to be next. -/
def expectIdent : Parser Ident := do
  match ← peekKind? with
  | some (.ident name) => return ⟨← takePlace, name⟩
  | _ => unexpected .identifier

/-- Takes a literal, which has to be next. -/
def expectLiteral : Parser BasicLit := do
  match ← peekKind? with
  | some (.literal kind text) => return ⟨← takePlace, kind, text⟩
  | _ => unexpected .literal

/-- Ends a line inside the brackets that `close` closes: takes an implicit semicolon, or nothing if
the closing bracket follows on the same line. -/
def endOfLine (close : Operator) : Parser Unit := do
  match ← peekKind? with
  | some (.semicolon true) => let _ ← take
  | some (.semicolon false) => failHere (.unsupported .explicitSemicolons)
  | some (.operator op) => if op = close then return () else unexpected (.newlineOr close)
  | _ => unexpected (.newlineOr close)

/-- Ends a declaration outside all functions: takes an implicit semicolon, or nothing at the end of
the text. -/
def endOfDecl : Parser Unit := do
  match ← peekKind? with
  | some (.semicolon true) => let _ ← take
  | some (.semicolon false) => failHere (.unsupported .explicitSemicolons)
  | some .eof => return ()
  | _ => unexpected .newline

/-- Reads with composite literals allowed or not, whatever the rules around say. -/
def withLiterals {α : Type} (allowed : Bool) (p : Parser α) : Parser α :=
  withReader (fun _ => ⟨allowed⟩) p

/-! ## Repetition -/

/-- The outcome of a step of a loop: go on from `s`, or stop with `b`. -/
inductive Turn (σ β : Type)
  | goOn (s : σ)
  | stop (b : β)

/-- Repeats `step` until it stops, but for at most one step more than `fuel` is long. -/
def iterateWith {σ β : Type} (step : σ → Parser (Turn σ β)) : List Token → σ → Parser β
  | [], s => do
    match ← step s with
    | .goOn _ => unexpected .moreInput
    | .stop b => return b
  | _ :: fuel, s => do
    match ← step s with
    | .goOn s => iterateWith step fuel s
    | .stop b => return b

/-- Repeats `step` from `s` on until it stops. -/
def iterate {σ β : Type} (step : σ → Parser (Turn σ β)) (s : σ) : Parser β := do
  iterateWith step (← get).tokens s

/-- Reads one more item behind those read, unless `done` says that there is none. -/
def collectStep {α : Type} (done : Parser Bool) (item : Parser (α × Bool)) (items : Array α) :
    Parser (Turn (Array α) (List α)) := do
  if ← done then return .stop items.toList
  else do
    let (value, last) ← item
    if last then return .stop (items.push value).toList else return .goOn (items.push value)

/-- Reads items until `done` says so, or until an item says that it is the last. -/
def collect {α : Type} (done : Parser Bool) (item : Parser (α × Bool)) : Parser (List α) :=
  iterate (collectStep done item) #[]

/-- Reads items until `done` says so. -/
def many {α : Type} (done : Parser Bool) (item : Parser α) : Parser (List α) :=
  collect done do return (← item, false)

/-- Reads an item, and one more behind each comma that follows; the second list says where the
commas stand. -/
def commaSeparated {α : Type} (item : Parser α) : Parser (List α × List Offset) := do
  let first ← item
  let rest ← many (return !(← nextIsOp .comma)) do
    let comma ← takePlace
    return (comma, ← item)
  return (first :: rest.map (·.2), rest.map (·.1))

end Parser

end GoTrace
