import GoTrace.Source.Span
import GoTrace.Token.Keyword
import GoTrace.Token.Operator

/-!
# Tokens

A token is a word, literal, mark or end of the text, with its span and the comments in front of it.
Comments are not tokens of their own: they belong to the token that follows them, so a reader of
tokens meets each comment exactly once and in order.
-/

namespace GoTrace

/-- How a comment is written. -/
inductive CommentKind
  /-- From two slashes up to the end of the line. -/
  | line
  /-- Between a slash with a star and a star with a slash. -/
  | block
  deriving DecidableEq

/-- A comment. -/
structure Comment where
  /-- How it is written. -/
  kind : CommentKind
  /-- Its text, with the marks that begin and end it. -/
  text : String
  /-- The bytes it covers. -/
  span : Span
  deriving DecidableEq

/-- Whether the comment runs to the end of its line. -/
def Comment.isLine (c : Comment) : Bool := c.kind == .line

/-- What a literal denotes. -/
inductive LitKind | int | float | char | string
  deriving DecidableEq

/-- What a token is. Words and literals carry their text as it is written, quotes included. -/
inductive TokenKind
  | ident (name : String)
  | literal (kind : LitKind) (text : String)
  | keyword (word : Keyword)
  | operator (op : Operator)
  /-- The end of a statement. An implicit one stands for a newline or for the end of the text. -/
  | semicolon (implicit : Bool)
  | eof
  /-- Text that is no token, with a message that says why. -/
  | error (message : String)
  deriving DecidableEq

namespace TokenKind

/-- Whether a newline directly after the token ends the statement. -/
def endsStatement : TokenKind → Bool
  | ident _ | literal _ _ => true
  | keyword word => word.endsStatement
  | operator op => op.endsStatement
  | semicolon _ | eof | error _ => false

/-- The words for the token in an error message. -/
def describe : TokenKind → String
  | ident name => s!"identifier `{name}`"
  | literal _ text => s!"literal {text}"
  | keyword word => s!"`{word.text}`"
  | operator op => s!"`{op.text}`"
  | semicolon true => "newline"
  | semicolon false => "`;`"
  | eof => "end of input"
  | error message => message

end TokenKind

/-- A token, the comments in front of it, and the bytes it covers. -/
structure Token where
  /-- What the token is. -/
  kind : TokenKind
  /-- The comments between the token before and this one, in order. -/
  comments : List Comment
  /-- The bytes it covers. -/
  span : Span
  deriving DecidableEq

end GoTrace
