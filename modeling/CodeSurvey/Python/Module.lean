import CodeSurvey.Python.Lexer
import CodeSurvey.Python.Statement
import CodeSurvey.Python.Pattern

/-!
# Modules

From logical lines to the syntax tree of a source.

A block is the run of lines that are indented at least as far as its first line; a line indented
further without need belongs to it all the same. A colon with nothing behind it opens a block when
the next line is indented further, and leaves the body empty otherwise. Clauses such as `else`
belong to the statement before them unless they are indented less than the block it stands in.

* `block` reads a block and `statement` one statement with its body and clauses.
* `parse` reads a source; on failure it gives the line of the first statement that does not parse.
-/

namespace CodeSurvey.Python

open TokenParser

/-- A result, or the number of the offending line. -/
abbrev Reading : Type → Type := Except Nat

/-- The lines that are left. -/
abbrev Lines : Type := List LogicalLine

/-- The parser of blocks: the nodes of the lines indented at least so far. -/
abbrev BlockParser : Type := Nat → Lines → Reading (List Node × Lines)

/-! ### One line -/

/-- Runs a parser over all tokens of a line. -/
def onLine {α : Type} (p : Nat → TokenParser Node → TokenParser α) (line : LogicalLine) :
    Reading α :=
  let size := line.tokens.length + 1
  let whole : TokenParser α := do
    let result ← p size (expression size size)
    finish
    pure result
  if line.broken then .error line.line
  else
    match whole line.tokens with
    | some (result, _) => .ok result
    | none             => .error line.line

/-- Whether a line starts with one of the words. -/
def LogicalLine.startsWith (line : LogicalLine) (words : List String) : Bool :=
  match line.tokens with
  | ⟨.word text, _, _, _⟩ :: _ => words.contains text
  | _                          => false

/-- The head of a compound statement, its colon, and the statements behind the colon if there are
any. -/
def headed {α : Type} (head : Nat → TokenParser Node → TokenParser α) (size : Nat)
    (expr : TokenParser Node) :
    TokenParser (α × Option (List Node)) := do
  let result ← head size expr
  mark ":"
  match ← peek with
  | none   => pure (result, none)
  | some _ =>
    let inner ← simpleStatements size expr
    pure (result, some inner)

/-- The head of a clause that is only a word. -/
def bareHead (text : String) (_ : Nat) (_ : TokenParser Node) : TokenParser Unit := do
  let _ ← word text

/-- The head of a clause with a condition. -/
def conditionHead (text : String) (_ : Nat) (expr : TokenParser Node) : TokenParser Node := do
  let _ ← word text
  expr

/-- The head of an `except` clause. -/
def exceptHead (_ : Nat) (expr : TokenParser Node) : TokenParser (List Node) := do
  let _ ← word "except"
  match ← peek with
  | some ⟨.mark "*", _, _, ""⟩ => do
    let _ ← next
    let value ← expr
    pure [value]
  | _ =>
    (do
      let value ← expr
      let target ← (do
          mark ","
          let node ← expr
          pure [Node.asTarget node]) <|> pure []
      pure (value :: target)) <|> pure []

/-- The head of a `for` loop: its target and what it runs over. -/
def forHead (size : Nat) (expr : TokenParser Node) : TokenParser (Node × Node) := do
  let _ ← word? "async"
  let _ ← word "for"
  let target ← targetList size (primary size expr size)
  let _ ← word "in"
  let values ← bareList size expr
  pure (target, values)

/-- The head of a `with` statement. -/
def withHead (size : Nat) (expr : TokenParser Node) : TokenParser (List Node) := do
  let _ ← word? "async"
  let _ ← word "with"
  let (items, _) ← commas expr size
  pure items

/-- Type parameters, which are read and forgotten. -/
def typeParameters (size : Nat) (expr : TokenParser Node) : TokenParser Unit := do
  if ← mark? "[" then
    let type := hint size expr size
    let _ ← commas (do
        let _ ← type
        many (do mark ":"; type) size) size
    mark "]"

/-- What the head of a definition says. -/
structure DefinitionHead where
  line    : Nat
  id      : String
  site    : Nat
  params  : List Node
  returns : Node

/-- The head of a function definition. -/
def functionHead (size : Nat) (expr : TokenParser Node) : TokenParser DefinitionHead := do
  let start ← peek
  let _ ← word? "async"
  let _ ← word "def"
  let (token, id) ← anyWord
  typeParameters size expr
  mark "("
  let params ← listUntil (parameter size expr true) ")" size
  let returns ← (do mark "->"; hint size expr size) <|> pure .absent
  pure { line := token.line, id, site := (start.map Token.site).getD 0, params, returns }

/-- The head of a class definition; its parameters are the bases. -/
def classHead (size : Nat) (expr : TokenParser Node) : TokenParser DefinitionHead := do
  let start ← word "class"
  let (token, id) ← anyWord
  typeParameters size expr
  let bases ← if ← atMark? ["("] then arguments size expr (primary size expr size) else pure []
  pure { line := token.line, id, site := start.site, params := bases, returns := .absent }

/-- A decorator. -/
def decorator (_ : Nat) (expr : TokenParser Node) : TokenParser Node := do
  mark "@"
  expr

/-- The head of a `match` statement, which has nothing behind its colon. -/
def matchHead (size : Nat) (expr : TokenParser Node) : TokenParser (List Node) := do
  let _ ← word "match"
  let (subjects, _) ← commas expr size
  mark ":"
  pure subjects

/-! ### Bodies and clauses -/

section

variable (inner : BlockParser)

/-- The body of a compound statement in a block at `top`: the statements behind its colon, or the
lines indented further. -/
def body (top : Nat) (behind : Option (List Node)) (lines : Lines) :
    Reading (List Node × Lines) :=
  match behind, lines with
  | some nodes, _      => .ok (nodes, lines)
  | none, []           => .ok ([], [])
  | none, next :: _    => if top < next.indent then inner next.indent lines else .ok ([], lines)

/-- Whether the next line is a clause of the statement before it. -/
def clauseNext (top : Nat) (words : List String) : Lines → Bool
  | next :: _ => decide (top ≤ next.indent) && next.startsWith words
  | []        => false

/-- A head on the first line, and its body. -/
def clause {α : Type} (head : Nat → TokenParser Node → TokenParser α) (top : Nat)
    (line : LogicalLine)
    (lines : Lines) : Reading ((α × List Node) × Lines) := do
  let (result, behind) ← onLine (headed head) line
  let (nodes, rest) ← body inner top behind lines
  pure ((result, nodes), rest)

/-- A clause that is only a word, if it is there. -/
def optionalClause (text : String) (top : Nat) (lines : Lines) : Reading (List Node × Lines) :=
  match lines with
  | line :: rest =>
    if clauseNext top [text] lines then do
      let ((_, nodes), after) ← clause inner (bareHead text) top line rest
      pure ([.branch nodes], after)
    else pure ([], lines)
  | [] => pure ([], [])

/-- As many clauses of one word as there are. The fuel bounds them. -/
def clauses (text : String) (head : Nat → TokenParser Node → TokenParser (List Node)) (top : Nat) :
    Nat → Lines → Reading (List Node × Lines)
  | 0, lines                => pure ([], lines)
  | _ + 1, []               => pure ([], [])
  | fuel + 1, line :: rest =>
    if clauseNext top [text] (line :: rest) then do
      let ((parts, nodes), after) ← clause inner head top line rest
      let (more, final) ← clauses text head top fuel after
      pure (.branch (parts ++ nodes) :: more, final)
    else pure ([], line :: rest)

/-! ### Compound statements -/

/-- `if`, with its `elif` and `else` clauses. -/
def ifStatement (top : Nat) (line : LogicalLine) (lines : Lines) : Reading (Node × Lines) := do
  let ((test, nodes), rest) ← clause inner (conditionHead "if") top line lines
  let elifHead size expr := do
    let condition ← conditionHead "elif" size expr
    pure [condition]
  let (elifs, rest) ← clauses inner "elif" elifHead top rest.length rest
  let (otherwise, rest) ← optionalClause inner "else" top rest
  pure (.branch (test :: nodes ++ elifs ++ otherwise), rest)

/-- `while`, with its `else` clause. -/
def whileStatement (top : Nat) (line : LogicalLine) (lines : Lines) : Reading (Node × Lines) := do
  let ((test, nodes), rest) ← clause inner (conditionHead "while") top line lines
  let (otherwise, rest) ← optionalClause inner "else" top rest
  pure (.group (test :: nodes ++ otherwise), rest)

/-- `for`, with its `else` clause. -/
def forStatement (top : Nat) (line : LogicalLine) (lines : Lines) : Reading (Node × Lines) := do
  let (((target, values), nodes), rest) ← clause inner forHead top line lines
  let (otherwise, rest) ← optionalClause inner "else" top rest
  pure (.forLoop target (values :: nodes ++ otherwise), rest)

/-- `with`. -/
def withStatement (top : Nat) (line : LogicalLine) (lines : Lines) : Reading (Node × Lines) := do
  let ((items, nodes), rest) ← clause inner withHead top line lines
  pure (.group (items ++ nodes), rest)

/-- `try`, with its clauses: `except` clauses or a `finally` clause at the least. -/
def tryStatement (top : Nat) (line : LogicalLine) (lines : Lines) : Reading (Node × Lines) := do
  let ((_, nodes), rest) ← clause inner (bareHead "try") top line lines
  let (handlers, rest) ← clauses inner "except" exceptHead top rest.length rest
  let (otherwise, rest) ←
    if handlers.isEmpty then pure ([], rest) else optionalClause inner "else" top rest
  let (final, rest) ← optionalClause inner "finally" top rest
  if handlers.isEmpty && final.isEmpty then .error line.line
  else pure (.branch (nodes ++ handlers ++ otherwise ++ final), rest)

/-- A function definition. -/
def functionStatement (top : Nat) (line : LogicalLine) (lines : Lines) :
    Reading (Node × Lines) := do
  let ((head, nodes), rest) ← clause inner functionHead top line lines
  pure (.function head.line head.id head.site head.params head.returns nodes, rest)

/-- A class definition. -/
def classStatement (top : Nat) (line : LogicalLine) (lines : Lines) :
    Reading (Node × Lines) := do
  let ((head, nodes), rest) ← clause inner classHead top line lines
  pure (.classDef head.line head.id head.site head.params nodes, rest)

/-- Whether a line starts a function definition. -/
def startsFunction (line : LogicalLine) : Bool :=
  match line.tokens with
  | ⟨.word "def", _, _, _⟩ :: _                              => true
  | ⟨.word "async", _, _, _⟩ :: ⟨.word "def", _, _, _⟩ :: _  => true
  | _                                                        => false

/-- Whether a line starts with a given word, or with `async` and then that word. -/
def startsMaybeAsync (text : String) (line : LogicalLine) : Bool :=
  match line.tokens with
  | ⟨.word first, _, _, _⟩ :: ⟨.word second, _, _, _⟩ :: _ =>
    first = text || (first = "async" && second = text)
  | ⟨.word first, _, _, _⟩ :: _                            => first = text
  | _                                                      => false

/-- Whether a line starts with a decorator. -/
def startsDecorator (line : LogicalLine) : Bool :=
  match line.tokens with
  | ⟨.mark "@", _, _, _⟩ :: _ => true
  | _                         => false

/-- Decorators from the first line on, and the definition they stand before. The fuel bounds
them. -/
def decoratedStatement (top : Nat) (first : Nat) :
    Nat → List Node → Lines → Reading (Node × Lines)
  | 0, _, _                              => .error first
  | _ + 1, _, []                         => .error first
  | fuel + 1, decorators, line :: lines =>
    if line.indent < top then .error first
    else if startsDecorator line then do
      let node ← onLine decorator line
      decoratedStatement top first fuel (decorators ++ [node]) lines
    else if startsFunction line then do
      let (node, rest) ← functionStatement inner top line lines
      pure (.decorated decorators node, rest)
    else if line.startsWith ["class"] then do
      let (node, rest) ← classStatement inner top line lines
      pure (.decorated decorators node, rest)
    else .error first

/-- The `case` clauses of a `match` statement at `level`. The fuel bounds them. -/
def caseClauses (level : Nat) : Nat → Lines → Reading (List Node × Lines)
  | 0, lines               => pure ([], lines)
  | _ + 1, []              => pure ([], [])
  | fuel + 1, line :: lines =>
    if line.indent < level then pure ([], line :: lines)
    else do
      let head size expr := do
        let parts ← caseHead size expr
        match ← peek with
        | none   => pure (parts, none)
        | some _ =>
          let nodes ← simpleStatements size expr
          pure (parts, some nodes)
      let (parts, behind) ← onLine head line
      let (nodes, rest) ← body inner level behind lines
      let (more, final) ← caseClauses level fuel rest
      pure (.group (parts ++ nodes) :: more, final)

/-- `match`, whose subjects have been read. -/
def matchStatement (top : Nat) (subjects : List Node) (lines : Lines) :
    Reading (Node × Lines) := do
  match lines with
  | []        => pure (.group subjects, [])
  | next :: _ =>
    if top < next.indent then
      let (cases, rest) ← caseClauses inner next.indent lines.length lines
      pure (.group (subjects ++ cases), rest)
    else pure (.group subjects, lines)

/-- A line of simple statements. -/
def simpleLine (line : LogicalLine) (lines : Lines) : Reading (Node × Lines) := do
  let nodes ← onLine simpleStatements line
  pure (grouped nodes, lines)

/-- One statement in a block at `top`: its first line, its body and its clauses. -/
def statement (top : Nat) (line : LogicalLine) (lines : Lines) : Reading (Node × Lines) :=
  if line.startsWith ["if"] then ifStatement inner top line lines
  else if line.startsWith ["while"] then whileStatement inner top line lines
  else if line.startsWith ["try"] then tryStatement inner top line lines
  else if line.startsWith ["class"] then classStatement inner top line lines
  else if startsFunction line then functionStatement inner top line lines
  else if startsMaybeAsync "for" line then forStatement inner top line lines
  else if startsMaybeAsync "with" line then withStatement inner top line lines
  else if startsDecorator line then
    decoratedStatement inner top line.line (lines.length + 1) [] (line :: lines)
  else if line.startsWith ["match"] then
    match onLine matchHead line with
    | .ok subjects => matchStatement inner top subjects lines
    | .error _     => simpleLine line lines
  else simpleLine line lines

end

/-! ### Blocks -/

/-- The statements of the lines indented at least as far as `top`. The fuel bounds the lines. -/
def block : Nat → BlockParser
  | 0, _, lines              => .ok ([], lines)
  | _ + 1, _, []             => .ok ([], [])
  | fuel + 1, top, line :: lines =>
    if line.indent < top then .ok ([], line :: lines)
    else do
      let (node, rest) ← statement (block fuel) top line lines
      let (nodes, final) ← block fuel top rest
      pure (node :: nodes, final)

/-- The syntax tree of a source, or the line of its first offending statement. -/
def parse (source : String) : Reading (List Node) := do
  let lines := lex source
  let (nodes, _) ← block (lines.length + 1) 0 lines
  pure nodes

end CodeSurvey.Python
