/-!
# Tokens

The tokens of Python source and the logical lines they stand on.

A formatted string literal is not one token but a bracketed run of them: `formatOpen`, then for
each replacement field `holeOpen`, the tokens of its expression, an optional `conversion`, an
optional `holeSpec` with the fields nested in the format specification, `holeClose`, and at last
`formatClose`. Its plain text leaves no token.
-/

namespace CodeSurvey.Python

/-- What a token is. -/
inductive Lexeme where
  /-- An identifier or a keyword; only its place tells which. -/
  | word (text : String)
  /-- A number literal. -/
  | number
  /-- A plain string literal, with the text between its quotes; a backquoted one has none. -/
  | literal (value : Option String)
  /-- The opening quote of a formatted string literal. -/
  | formatOpen
  /-- The closing quote of a formatted string literal. -/
  | formatClose
  /-- The brace that opens a replacement field. -/
  | holeOpen
  /-- The brace that closes a replacement field. -/
  | holeClose
  /-- The colon before a format specification. -/
  | holeSpec
  /-- A conversion such as `!r`. -/
  | conversion
  /-- An operator or a delimiter. -/
  | mark (symbol : String)
deriving DecidableEq

/-- A token with its place: the line it starts on, its offset in the source, and the text between
it and the token before it. -/
structure Token where
  lexeme : Lexeme
  line   : Nat
  site   : Nat
  gap    : String

/-- How many lines are joined to the next one in blank text, given whether it starts in a comment; a
backslash in a comment joins none. -/
def joinCount : Bool → List Char → Nat
  | _, []            => 0
  | true, c :: rest  => joinCount (c != '\n') rest
  | false, c :: rest => (if c == '\\' then 1 else 0) + joinCount (c == '#') rest

namespace Token

/-- How many lines are joined between the token before this one and it. -/
def joins (token : Token) : Nat :=
  joinCount false token.gap.toList

/-- Whether there is a comment between the token before this one and it, or lines are joined
there. -/
def isApart (token : Token) : Bool :=
  token.gap.toList.any fun c => c == '#' || c == '\\'

end Token

/-- A logical line: how far it is indented, the number of its first physical line, its tokens, and
whether the scanner met something in it that is no token. -/
structure LogicalLine where
  indent : Nat
  line   : Nat
  tokens : List Token
  broken : Bool

end CodeSurvey.Python
