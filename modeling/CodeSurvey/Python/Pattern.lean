import CodeSurvey.Python.Expression

/-!
# Match patterns

The patterns of `case` clauses. Every name in a pattern is an ordinary occurrence of that name, in
source order, whether it captures, compares or names a class; only the wildcard `_` is none.
-/

namespace CodeSurvey.Python

open TokenParser

/-- The names of a dotted name. -/
def patternNames (size : Nat) : TokenParser (List Node) := do
  let (token, first) ← anyWord
  let more ← many (do
      mark "."
      let (part, name) ← anyWord
      pure (Node.name part.line name)) size
  let isWildcard := first = "_" && more.isEmpty
  let isLiteral := ["None", "True", "False"].contains first
  pure (if isWildcard || isLiteral then more else .name token.line first :: more)

/-- A number, signed or complex. -/
def patternNumber : TokenParser Unit := do
  let _ ← mark? "-"
  let _ ← lexeme .number
  let _ ← (do
      markOf ["+", "-"]
      let _ ← lexeme .number
      pure true) <|> pure false

/-- The name after a star. -/
def splatPattern : TokenParser Node := do
  markOf ["*", "**"]
  let (token, name) ← anyWord
  pure (if name = "_" then .absent else .name token.line name)

section

variable (size : Nat) (expr pattern : TokenParser Node)

/-- A pattern that is not an alternative of others, given the parser for those inside it. -/
def closedPattern : TokenParser Node :=
  splatPattern <|>
  (do
    mark "("
    let items ← listUntil pattern ")" size
    pure (.group items)) <|>
  (do
    mark "["
    let items ← listUntil pattern "]" size
    pure (.group items)) <|>
  (do
    mark "\x7b"
    let items ← listUntil (splatPattern <|> (do
        let key ← pattern
        mark ":"
        let value ← pattern
        pure (.group [key, value]))) "\x7d" size
    pure (.group items)) <|>
  (do patternNumber; pure .absent) <|>
  (do
    let names ← patternNames size
    let parts ← (do
        mark "("
        listUntil pattern ")" size) <|> pure []
    pure (.group (names ++ parts))) <|>
  strings size expr

/-- A pattern with its alternatives. -/
def unionPattern : TokenParser Node := do
  let first ← closedPattern size expr pattern
  let more ← many (do mark "|"; closedPattern size expr pattern) size
  pure (grouped (first :: more))

/-- A pattern, given the parser for those inside it. -/
def patternStep : TokenParser Node := do
  let name ← (do
      let (token, text) ← anyWord
      mark "="
      pure [Node.name token.line text]) <|> pure []
  let body ← unionPattern size expr pattern
  let captured ← (do
      let _ ← word "as"
      let (token, text) ← anyWord
      pure [Node.name token.line text]) <|> pure []
  pure (grouped (name ++ body :: captured))

end

/-- A pattern. The fuel bounds the nesting. -/
def casePattern (size : Nat) (expr : TokenParser Node) : Nat → TokenParser Node
  | 0, _             => none
  | fuel + 1, tokens => patternStep size expr (casePattern size expr fuel) tokens

/-- The head of a `case` clause up to its colon: patterns and the guard. -/
def caseHead (size : Nat) (expr : TokenParser Node) : TokenParser (List Node) := do
  let _ ← word "case"
  let pattern := casePattern size expr size
  let first ← pattern
  let more ← many (do
      mark ","
      require !(← atWord? ["if"])
      pattern) size
  let _ ← mark? ","
  let guard ← (do
      let _ ← word "if"
      let test ← expr
      pure [test]) <|> pure []
  mark ":"
  pure (first :: more ++ guard)

end CodeSurvey.Python
