import CodeSurvey.Python.Expression

/-!
# Simple statements

The statements that fit on one logical line, and the lines that hold several of them.

* `importStatement` reads the three forms of import. A dotted name keeps the blanks it was written
  with.
* `assignmentOrExpression` reads assignments of every kind and plain expressions.
* `simpleStatement` is any statement without a body; `simpleStatements` is a line of them.
-/

namespace CodeSurvey.Python

open TokenParser

/-! ### Imports -/

/-- A dotted name, spelled as in the source. -/
def dottedName (size : Nat) : TokenParser String := do
  let (_, first) ← anyWord
  let more ← many (do
      let dot ← lexeme (.mark ".")
      let (token, name) ← anyWord
      pure (dot.gap ++ "." ++ token.gap ++ name)) size
  pure (more.foldl (· ++ ·) first)

/-- A name to import, and its alias. -/
def importedName (size : Nat) : TokenParser ImportedName := do
  let name ← dottedName size
  let asName ← (do
      let _ ← word "as"
      let (_, text) ← anyWord
      pure (some text)) <|> pure none
  pure { name, asName }

/-- Names to import, with or without parentheses. -/
def importedNames (size : Nat) : TokenParser (List ImportedName) := do
  if ← mark? "(" then
    let (names, _) ← commas (importedName size) size
    mark ")"
    pure names
  else
    let (names, _) ← commas (importedName size) size
    pure names

/-- The number of dots that a token stands for at the start of a relative import. -/
def leadingDots : TokenParser Nat := do
  let token ← next
  match token.lexeme with
  | .mark "."   => pure 1
  | .mark "..." => pure 3
  | _           => failure

/-- An import statement. A future import binds nothing. -/
def importStatement (size : Nat) : TokenParser Node :=
  (do
    let start ← word "import"
    let (names, _) ← commas (importedName size) size
    pure (.imports start.line (.modules names))) <|>
  (do
    let start ← word "from"
    let dots ← many leadingDots size
    let level := dots.foldr (· + ·) 0
    let module ←
      (do
        require (level ≠ 0 && (← atWord? ["import"]))
        pure "") <|> dottedName size
    let _ ← word "import"
    if level = 0 && module = "__future__" then
      let _ ← importedNames size
      pure .absent
    else if ← mark? "*" then pure (.imports start.line (.everything module level))
    else
      let names ← importedNames size
      pure (.imports start.line (.members module level names)))

/-! ### Assignments -/

/-- The operators that assign and compute. -/
def augmentMarks : List String :=
  ["+=", "-=", "*=", "/=", "@=", "//=", "%=", "**=", ">>=", "<<=", "&=", "^=", "|="]

/-- The line of the first token. -/
def hereLine : TokenParser Nat := do
  let token ← peek
  pure ((token.map Token.line).getD 0)

/-- Expressions, and what is assigned to them. The fuel bounds the chain of assignments. -/
def assignmentOrExpression (size : Nat) (expr : TokenParser Node) : Nat → TokenParser Node
  | 0, _             => none
  | fuel + 1, tokens => (do
      let line ← hereLine
      let left ← bareList size expr
      let value := yieldExpression size expr <|> assignmentOrExpression size expr fuel
      if ← mark? "=" then
        require left.isTarget
        let right ← value
        pure (.assign line left .absent right)
      else if ← mark? ":" then
        require left.isTarget
        let type ← hint size expr size
        let right ← (do mark "="; value) <|> pure .absent
        pure (.assign line left type right)
      else if ← atMark? augmentMarks then
        let _ ← next
        require left.isTarget
        let right ← value
        pure (.augment left right)
      else pure left : TokenParser Node) tokens

/-- A statement that starts with an expression. -/
def expressionStatement (size : Nat) (expr : TokenParser Node) : TokenParser Node :=
  yieldExpression size expr <|> assignmentOrExpression size expr size

/-! ### Statements with a keyword -/

/-- Names between commas. -/
def nameList (size : Nat) : TokenParser (List String) := do
  let (_, first) ← anyWord
  let more ← many (do
      mark ","
      let (_, name) ← anyWord
      pure name) size
  pure (first :: more)

/-- `raise`, with what is raised and its cause. -/
def raiseStatement (size : Nat) (expr : TokenParser Node) : TokenParser Node := do
  let _ ← word "raise"
  let raised ←
    (do
      require !(← atWord? ["from"])
      let value ← bareList size expr
      pure [value]) <|> pure []
  let cause ← (do
      let _ ← word "from"
      let value ← expr
      pure [value]) <|> pure []
  pure (.group (raised ++ cause))

/-- `assert`, with its condition and message. -/
def assertStatement (size : Nat) (expr : TokenParser Node) : TokenParser Node := do
  let _ ← word "assert"
  let first ← expr
  let more ← many (do mark ","; expr) size
  pure (.group (first :: more))

/-- The statement `print` of old, with a file to print to or without. -/
def printStatement (size : Nat) (expr : TokenParser Node) : TokenParser Node := do
  let _ ← word "print"
  if ← mark? ">>" then
    let file ← expr
    let items ← many (do mark ","; expr) size
    let _ ← mark? ","
    pure (.group (file :: items))
  else
    let (items, _) ← commas expr size
    pure (.group items)

/-- Whether the statement prints to a file. -/
def printsToFile? : TokenParser Bool :=
  fun tokens =>
    let chevron : TokenParser Unit := do let _ ← word "print"; mark ">>"
    some ((chevron tokens).isSome, tokens)

/-- The statement `exec` of old. -/
def execStatement (size : Nat) (expr : TokenParser Node) : TokenParser Node := do
  let _ ← word "exec"
  let code ← (do
      let (token, name) ← anyWord
      pure (Node.name token.line name)) <|> strings size expr
  let spaces ← (do
      let _ ← word "in"
      let first ← expr
      let more ← many (do mark ","; expr) size
      pure (first :: more)) <|> pure []
  pure (.group (code :: spaces))

/-- `type name = …`. -/
def typeStatement (size : Nat) (expr : TokenParser Node) : TokenParser Node := do
  let _ ← word "type"
  match ← peekLexeme with
  | some (.word text) => require !(operandFollowers.contains text)
  | _                 => failure
  let left ← hint size expr size
  mark "="
  let right ← hint size expr size
  pure (.group [left, right])

/-- Succeeds at the end of a simple statement. -/
def statementEnd : TokenParser Unit := do
  match ← peekLexeme with
  | none             => pure ()
  | some (.mark ";") => pure ()
  | some _           => failure

/-- Runs a parser that has to reach the end of the statement. -/
def wholeStatement (p : TokenParser Node) : TokenParser Node := do
  let node ← p
  statementEnd
  pure node

/-- A simple statement that starts with a given word. -/
def keywordStatement (size : Nat) (expr : TokenParser Node) : String → TokenParser Node
  | "import" | "from" => importStatement size
  | "assert"          => assertStatement size expr
  | "raise"           => raiseStatement size expr
  | "return"          => do
    let _ ← next
    (do
      let value ← bareList size expr
      pure (.group [value])) <|> pure .absent
  | "del"             => do
    let _ ← next
    let targets ← bareList size expr
    pure (.group [targets])
  | "pass" | "break" | "continue" => do
    let _ ← next
    pure .absent
  | "global"          => do
    let _ ← next
    let names ← nameList size
    pure (.globals names)
  | "nonlocal"        => do
    let _ ← next
    let _ ← nameList size
    pure .absent
  | "print"           => do
    if ← printsToFile? then printStatement size expr
    else wholeStatement (expressionStatement size expr) <|> printStatement size expr
  | "exec"            => wholeStatement (expressionStatement size expr) <|> execStatement size expr
  | "type"            => typeStatement size expr <|> expressionStatement size expr
  | _                 => expressionStatement size expr

/-- A statement without a body. -/
def simpleStatement (size : Nat) (expr : TokenParser Node) : TokenParser Node := do
  let node ← match ← peekLexeme with
    | some (.word text) => keywordStatement size expr text
    | _                 => expressionStatement size expr
  statementEnd
  pure node

/-- Simple statements with semicolons between them, up to the end of the line. -/
def simpleStatements (size : Nat) (expr : TokenParser Node) : TokenParser (List Node) := do
  let first ← simpleStatement size expr
  let more ← many (do mark ";"; simpleStatement size expr) size
  let _ ← mark? ";"
  finish
  pure (first :: more)

end CodeSurvey.Python
