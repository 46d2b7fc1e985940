import GoTrace.Token.Lexer

/-!
# Looking ahead in a source of tokens

A `TokenStream` gives out the tokens of a source one by one and lets its user look at tokens that
are still to come. It takes a token from the source only when someone asks for it or for a later
one, and keeps it until it is given out. Each operation answers a question and returns the stream
behind it.
-/

namespace GoTrace

/-- Something that gives out tokens, one at a time, until it has no more. -/
class TokenSource (σ : Type) where
  /-- The next token and the source behind it. -/
  next? : σ → Option (Token × σ)

/-- A lexer gives out the tokens of its text. -/
instance : TokenSource Lexer := ⟨Lexer.next?⟩

/-- A list gives out its members from the front. -/
instance : TokenSource (List Token) where
  next?
    | [] => none
    | token :: rest => some (token, rest)

/-- A source of tokens, and those already taken from it but not yet given out. -/
structure TokenStream (σ : Type) where
  /-- Where further tokens come from. -/
  source : σ
  /-- The tokens to give out first. -/
  ahead : List Token

namespace TokenStream

variable {σ : Type}

/-- The stream of all tokens of a source. -/
def ofSource (source : σ) : TokenStream σ := ⟨source, []⟩

variable [TokenSource σ]

/-- Takes `n` more tokens from the source, or as many as it has. -/
def load : Nat → TokenStream σ → TokenStream σ
  | 0, s => s
  | n + 1, s =>
    match TokenSource.next? s.source with
    | none => s
    | some (token, rest) => load n ⟨rest, s.ahead ++ [token]⟩

/-- The token behind the next `n`, if there is one. -/
def peekNth (s : TokenStream σ) (n : Nat) : Option Token × TokenStream σ :=
  let s := s.load (n + 1 - s.ahead.length)
  (s.ahead[n]?, s)

/-- The next token, if there is one. -/
def peek (s : TokenStream σ) : Option Token × TokenStream σ := s.peekNth 0

/-- Gives out the next token, if there is one. -/
def consume (s : TokenStream σ) : Option Token × TokenStream σ :=
  let s := s.load (1 - s.ahead.length)
  match s.ahead with
  | [] => (none, s)
  | token :: rest => (some token, { s with ahead := rest })

/-- Whether no token is left, or only the end of the text and what is behind it. -/
def isAtEnd (s : TokenStream σ) : Bool × TokenStream σ :=
  let (token, s) := s.peek
  (token.all (·.kind == .eof), s)

end TokenStream

end GoTrace
