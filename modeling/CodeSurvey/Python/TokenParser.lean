import CodeSurvey.Python.Token

/-!
# Parsing tokens

A parser takes tokens off the front of a list and gives a result, or fails and takes none.

* `word`, `mark` and `lexeme` take one token; their cousins that end in `?` take it only if it is
  there and say whether it was.
* `many` repeats a parser, at most as often as its fuel allows.
-/

namespace CodeSurvey.Python

/-- A parser over a list of tokens. -/
abbrev TokenParser (α : Type) : Type := StateT (List Token) Option α

namespace TokenParser

/-- The first token, which stays. -/
def peek : TokenParser (Option Token) :=
  fun tokens => some (tokens.head?, tokens)

/-- The lexeme of the first token, which stays. -/
def peekLexeme : TokenParser (Option Lexeme) :=
  fun tokens => some (tokens.head?.map Token.lexeme, tokens)

/-- Takes the first token. -/
def next : TokenParser Token
  | []            => none
  | token :: rest => some (token, rest)

/-- Succeeds at the end of the tokens. -/
def finish : TokenParser Unit
  | []     => some ((), [])
  | _ :: _ => none

/-- Fails unless the condition holds. -/
def require (condition : Bool) : TokenParser Unit :=
  if condition then pure () else failure

/-- Takes a token with the lexeme. -/
def lexeme (wanted : Lexeme) : TokenParser Token := do
  let token ← next
  require (token.lexeme = wanted)
  pure token

/-- Takes an operator. -/
def mark (symbol : String) : TokenParser Unit := do
  let _ ← lexeme (.mark symbol)

/-- Takes a given word. -/
def word (text : String) : TokenParser Token :=
  lexeme (.word text)

/-- Takes any word, and gives the token and its text. -/
def anyWord : TokenParser (Token × String) := do
  let token ← next
  match token.lexeme with
  | .word text => pure (token, text)
  | _          => failure

/-- Whether the first token has the lexeme. -/
def at? (wanted : Lexeme) : TokenParser Bool := do
  let found ← peekLexeme
  pure (found = some wanted)

/-- Whether the first token is one of the words. -/
def atWord? (words : List String) : TokenParser Bool := do
  match ← peekLexeme with
  | some (.word text) => pure (words.contains text)
  | _                 => pure false

/-- Whether the first token is one of the operators. -/
def atMark? (symbols : List String) : TokenParser Bool := do
  match ← peekLexeme with
  | some (.mark symbol) => pure (symbols.contains symbol)
  | _                   => pure false

/-- Takes an operator if it is there. -/
def mark? (symbol : String) : TokenParser Bool :=
  (do mark symbol; pure true) <|> pure false

/-- Takes a word if it is there. -/
def word? (text : String) : TokenParser Bool :=
  (do let _ ← word text; pure true) <|> pure false

/-- Takes one of the operators. -/
def markOf (symbols : List String) : TokenParser Unit := do
  let token ← next
  match token.lexeme with
  | .mark symbol => require (symbols.contains symbol)
  | _            => failure

/-- Repeats a parser until it fails. -/
def many {α : Type} (p : TokenParser α) : Nat → TokenParser (List α)
  | 0, tokens        => some ([], tokens)
  | fuel + 1, tokens =>
    match p tokens with
    | none           => some ([], tokens)
    | some (x, rest) => (many p fuel rest).map fun (xs, left) => (x :: xs, left)

/-- Items between commas, with the number of commas; a comma may follow the last item. -/
def commas {α : Type} (p : TokenParser α) (fuel : Nat) : TokenParser (List α × Nat) := do
  let first ← p
  let more ← many (do mark ","; p) fuel
  let trailing ← mark? ","
  pure (first :: more, more.length + if trailing then 1 else 0)

/-- Items between commas up to a closing operator, which may come at once. -/
def listUntil {α : Type} (p : TokenParser α) (closing : String) (fuel : Nat) :
    TokenParser (List α) := do
  if ← mark? closing then pure []
  else
    let (items, _) ← commas p fuel
    mark closing
    pure items

end TokenParser

end CodeSurvey.Python
