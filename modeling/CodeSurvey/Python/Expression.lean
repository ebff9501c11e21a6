import CodeSurvey.Python.TokenParser
import CodeSurvey.Python.Node

/-!
# Expressions

The expression grammar, as far as names are concerned: which tokens form an expression, and which
of them are names, attributes, calls, bindings and scopes. Precedence leaves no trace in the tree,
since an operator only groups its operands in source order.

No word is reserved. A keyword counts as one only where the grammar allows it, and is a name
everywhere else.

Every parser of this module takes `size`, a bound on all repetitions, and `expr`, the parser for
the expressions inside; `expression` ties the knot with fuel.
-/

namespace CodeSurvey.Python

open TokenParser

/-! ### Words -/

/-- Words that go on after an operand and so do not start one. -/
def operandFollowers : List String :=
  ["if", "else", "and", "or", "in", "is", "not", "for", "async", "as", "from"]

/-- Whether a token starts the operand of an `await`. -/
def startsAwaited : Option Lexeme → Bool
  | some (.word text)    => !operandFollowers.contains text
  | some .number         => true
  | some (.literal _)    => true
  | some .formatOpen     => true
  | some (.mark symbol)  => ["(", "[", "\x7b", "-", "+", "~", "..."].contains symbol
  | _                    => false

/-- A run of nodes as one: itself if it is alone. -/
def grouped : List Node → Node
  | [node] => node
  | nodes  => .group nodes

/-! ### Strings -/

section

variable (size : Nat) (expr : TokenParser Node)

/-- Expressions with commas between them, as they stand without brackets. -/
def bareList : TokenParser Node := do
  let (items, commaCount) ← commas expr size
  pure (if commaCount = 0 then grouped items else .bundle .bare items)

/-- `yield`, with what it yields. -/
def yieldExpression : TokenParser Node := do
  let _ ← word "yield"
  if ← word? "from" then
    let value ← expr
    pure (.group [value])
  else
    (do let value ← bareList size expr; pure (.group [value])) <|> pure .absent

/-- A `yield` or expressions. -/
def yieldOrExpressions : TokenParser Node :=
  yieldExpression size expr <|> bareList size expr

/-- What stands in a replacement field before its format specification, from its opening brace. -/
def holeHead : TokenParser Node := do
  let _ ← lexeme .holeOpen
  let value ← yieldOrExpressions size expr
  let _ ← mark? "="
  let _ ← (do let _ ← lexeme .conversion; pure true) <|> pure false
  pure value

/-- A replacement field, with fields nested `depth` deep in its format specification. -/
def hole : Nat → TokenParser Node
  | 0, _              => none
  | depth + 1, tokens => (do
      let value ← holeHead size expr
      let nested ← (do
          let _ ← lexeme .holeSpec
          many (hole depth) size) <|> pure []
      let _ ← lexeme .holeClose
      pure (grouped (value :: nested)) : TokenParser Node) tokens

/-- One string literal. -/
def stringLiteral : TokenParser Node := do
  let token ← next
  match token.lexeme with
  | .literal value => pure (.string value [])
  | .formatOpen    =>
    let holes ← many (hole size expr size) size
    let _ ← lexeme .formatClose
    pure (.string none holes)
  | _              => failure

/-- String literals side by side, which are one. -/
def strings : TokenParser Node := do
  let first ← stringLiteral size expr
  let more ← many (stringLiteral size expr) size
  pure (grouped (first :: more))

/-! ### Comprehensions -/

/-- Targets with commas between them; a comma may stand before the word `in`. -/
def targetList (target : TokenParser Node) : TokenParser Node := do
  let item : TokenParser Node := do
    let node ← target
    require node.isTarget
    pure node
  let first ← item
  let more ← many (do
      mark ","
      require !(← atWord? ["in"])
      item) size
  let trailing ← mark? ","
  pure (if more.isEmpty && !trailing then first else .bundle .bare (first :: more))

/-- The clause `for target in …` of a comprehension. -/
def forClause (target : TokenParser Node) : TokenParser Node := do
  let _ ← word? "async"
  let _ ← word "for"
  let left ← targetList size target
  let _ ← word "in"
  let first ← expr
  let more ← many (do
      mark ","
      require !(← atWord? ["for", "if", "async"])
      expr) size
  let _ ← mark? ","
  pure (.forIn left (first :: more))

/-- The clause `if …` of a comprehension. -/
def ifClause : TokenParser Node := do
  let _ ← word "if"
  let condition ← expr
  pure (.group [condition])

/-- Whether the word `else` stands among tokens outside all brackets but `depth`. -/
def mentionsElse : Nat → List Token → Bool
  | _, []                => false
  | depth, token :: rest =>
    match token.lexeme with
    | .word "else"  => depth == 0 || mentionsElse depth rest
    | .formatOpen   => mentionsElse (depth + 1) rest
    | .formatClose  => mentionsElse (depth - 1) rest
    | .mark symbol  =>
      if ["(", "[", "\x7b"].contains symbol then mentionsElse (depth + 1) rest
      else if [")", "]", "\x7d"].contains symbol then mentionsElse (depth - 1) rest
      else mentionsElse depth rest
    | _             => mentionsElse depth rest

/-- An expression that is not conditional. -/
def unconditional : TokenParser Node := fun tokens =>
  (expr tokens).bind fun (node, rest) =>
    if mentionsElse 0 (tokens.take (tokens.length - rest.length)) then none else some (node, rest)

/-- The clauses of a comprehension. The expressions in them are not conditional, so that an `if`
always starts a clause. -/
def comprehensionClauses (target : TokenParser Node) : TokenParser (List Node) := do
  let plain := unconditional expr
  let first ← forClause size plain target
  let more ← many (forClause size plain target <|> ifClause plain) size
  pure (first :: more)

/-! ### Arguments and subscripts -/

/-- One argument of a call. -/
def argument : TokenParser Node :=
  (do
    let (_, name) ← anyWord
    mark "="
    require !(["None", "True", "False"].contains name)
    let value ← expr
    pure (.keyword name value)) <|>
  (do
    mark "*"
    let value ← expr
    pure (.bundle .starred [value])) <|>
  (do
    mark "**"
    let value ← expr
    pure (.group [value])) <|>
  expr

/-- Whether an argument may be the element of a generator. -/
def isElement : Node → Bool
  | .keyword .. => false
  | _           => true

/-- For all lines that are joined before the next token, parts that mean nothing; in the argument
list of a call they count as arguments. -/
def joinedLines : TokenParser (List Node) := do
  let token ← peek
  pure (List.replicate ((token.map Token.joins).getD 0) .absent)

/-- One more argument of a call, with what comes before it since the last one. -/
def nextArgument : TokenParser (List Node) := do
  let before ← joinedLines
  mark ","
  let between ← joinedLines
  let item ← argument expr
  pure (before ++ between ++ [item])

/-- The arguments of a call, from its parenthesis. A generator may be the only one, and a comma may
stand alone. -/
def arguments (target : TokenParser Node) : TokenParser (List Node) := do
  let opening ← lexeme (.mark "(")
  let before ← joinedLines
  if ← mark? ")" then pure []
  else if ← mark? "," then
    mark ")"
    pure []
  else
    let spreads ← atMark? ["**"]
    let first ← argument expr
    if ← atWord? ["for", "async"] then
      require (!spreads && isElement first)
      let clauses ← comprehensionClauses size expr target
      mark ")"
      pure [.comprehension opening.site (before ++ first :: clauses)]
    else
      let more ← many (nextArgument expr) size
      let _ ← mark? ","
      mark ")"
      pure (before ++ first :: more.flatten)

/-- The rest of a slice after its first colon. -/
def sliceTail : TokenParser (List Node) := do
  let upper ← (do let node ← expr; pure [node]) <|> pure []
  let stride ← (do
      mark ":"
      (do let node ← expr; pure [node]) <|> pure []) <|> pure []
  pure (upper ++ stride)

/-- One index of a subscript: an expression or a slice. -/
def subscriptIndex : TokenParser Node :=
  (do
    mark ":"
    let parts ← sliceTail expr
    pure (.group parts)) <|>
  (do
    let first ← expr
    if ← mark? ":" then
      let parts ← sliceTail expr
      pure (.group (first :: parts))
    else pure first)

/-- One step from an operand to a part of it or to the result of calling it. -/
def trailer (target : TokenParser Node) (object : Node) : TokenParser Node :=
  (do
    mark "."
    let (token, field) ← anyWord
    pure (.attribute object token.line field)) <|>
  (do
    let items ← arguments size expr target
    pure (.call object items)) <|>
  (do
    mark "["
    let (items, _) ← commas (subscriptIndex expr) size
    mark "]"
    pure (.subscript object items))

/-- All steps from an operand. -/
def trailers (target : TokenParser Node) : Nat → Node → TokenParser Node
  | 0, object, tokens        => some (object, tokens)
  | fuel + 1, object, tokens =>
    match trailer size expr target object tokens with
    | some (longer, rest) => trailers target fuel longer rest
    | none                => some (object, tokens)

/-! ### Brackets -/

/-- One element of a list, a tuple or a set. -/
def element : TokenParser Node :=
  yieldExpression size expr <|>
  (do
    mark "*"
    let value ← expr
    pure (.bundle .starred [value])) <|>
  expr

/-- What stands between an opening bracket and its closing one: elements, or a comprehension. -/
def bracketed (target : TokenParser Node) (site : Nat) (closing : String) : TokenParser Node := do
  if ← mark? closing then pure (.bundle .enclosed [])
  else
    let yields ← atWord? ["yield"]
    let first ← element size expr
    if ← atWord? ["for", "async"] then
      require !yields
      let clauses ← comprehensionClauses size expr target
      mark closing
      pure (.comprehension site (first :: clauses))
    else
      let more ← many (do mark ","; element size expr) size
      let _ ← mark? ","
      mark closing
      pure (.bundle .enclosed (first :: more))

/-- One entry of a dictionary. -/
def pair : TokenParser Node := do
  let key ← expr
  mark ":"
  let value ← expr
  pure (.group [key, value])

/-- Another dictionary spread into this one. -/
def spread : TokenParser Node := do
  mark "**"
  let value ← expr
  pure (.group [value])

/-- The rest of a bracket after its first part: more parts or, if the first part may be repeated,
comprehension clauses. -/
def bracedTail (target part : TokenParser Node) (site : Nat) (repeats : Bool) (first : Node) :
    TokenParser Node := do
  if ← atWord? ["for", "async"] then
    require repeats
    let clauses ← comprehensionClauses size expr target
    mark "\x7d"
    pure (.comprehension site (first :: clauses))
  else
    let more ← many (do mark ","; part) size
    let _ ← mark? ","
    mark "\x7d"
    pure (.group (first :: more))

/-- What stands between braces: a dictionary, a set, or a comprehension of one. -/
def braced (target : TokenParser Node) (site : Nat) : TokenParser Node := do
  if ← mark? "\x7d" then pure .absent
  else if ← mark? "," then
    mark "\x7d"
    pure .absent
  else if ← atMark? ["**"] then
    let first ← spread expr
    bracedTail size expr target (spread expr <|> pair expr) site false first
  else
    let yields ← atWord? ["yield"]
    let first ← element size expr
    if ← mark? ":" then
      let value ← expr
      bracedTail size expr target (spread expr <|> pair expr) site true (.group [first, value])
    else bracedTail size expr target (element size expr) site (!yields) first

/-! ### Operands -/

/-- An operand without what follows it. -/
def atom (target : TokenParser Node) : TokenParser Node := do
  match ← peek with
  | none       => failure
  | some token =>
    match token.lexeme with
    | .word text =>
      let _ ← next
      pure (if ["None", "True", "False"].contains text then .absent else .name token.line text)
    | .number    => do let _ ← next; pure .absent
    | .mark "..." => do let _ ← next; pure .absent
    | .mark "("  => do let _ ← next; bracketed size expr target token.site ")"
    | .mark "["  => do let _ ← next; bracketed size expr target token.site "]"
    | .mark "\x7b" => do let _ ← next; braced size expr target token.site
    | _          => strings size expr

/-- An operand with its attributes, calls and subscripts, or a starred one. The fuel bounds the
targets of the comprehensions inside it. -/
def primary : Nat → TokenParser Node
  | 0, _             => none
  | fuel + 1, tokens => (do
      if ← mark? "*" then
        let node ← primary fuel
        require node.isPlainTarget
        pure (.bundle .starred [node])
      else
        let node ← atom size expr (primary fuel)
        trailers size expr (primary fuel) size node : TokenParser Node) tokens

/-- A sign or an `await` before an operand. -/
def sign : TokenParser Unit :=
  markOf ["-", "+", "~"] <|>
  (do
    let _ ← word "await"
    require (startsAwaited (← peekLexeme)))

/-- An operand with its signs. -/
def operand : TokenParser Node := do
  let signs ← many sign size
  let node ← primary size expr size
  pure (if signs.isEmpty then node else .group [node])

/-! ### Operators -/

/-- The operators between operands that are no comparisons. -/
def binaryMarks : List String :=
  ["+", "-", "*", "@", "/", "%", "//", "**", "|", "&", "^", "<<", ">>"]

/-- The comparisons that are no words. -/
def comparisonMarks : List String :=
  ["<", "<=", "==", "!=", ">=", ">", "<>"]

/-- An operator between two operands. -/
def operator : TokenParser Unit :=
  markOf (binaryMarks ++ comparisonMarks) <|>
  (do let _ ← word "in") <|>
  (do let _ ← word "not"; let _ ← word "in") <|>
  (do let _ ← word "is"; let _ ← word? "not")

/-- Operands with operators between them. -/
def operation : TokenParser Node := do
  let first ← operand size expr
  let more ← many (do operator; operand size expr) size
  pure (grouped (first :: more))

/-! ### Hints -/

/-- Words that never name the head of a type with arguments. -/
def hintKeywords : List String :=
  ["None", "True", "False", "not", "lambda", "await", "async", "print", "exec", "match"]

/-- Whether a type with arguments comes next. -/
def atGeneric? : TokenParser Bool := fun tokens =>
  match tokens with
  | ⟨.word name, _, _, _⟩ :: ⟨.mark "[", _, _, _⟩ :: _ =>
    some (!hintKeywords.contains name, tokens)
  | _                                                  => some (false, tokens)

/-- A type with arguments, such as `list[int]`, given the parser for the arguments. -/
def generic (inner : TokenParser Node) : TokenParser Node := do
  let (token, name) ← anyWord
  mark "["
  let (items, _) ← commas inner size
  mark "]"
  pure (.group (.name token.line name :: items))

/-- A name after two stars among types. -/
def starredHint : TokenParser Node := do
  mark "**"
  let (token, name) ← anyWord
  pure (.name token.line name)

/-- A type hint: any expression, or types with arguments and what is made of them. A type argument
may be bounded by a type after a colon. The fuel bounds the nesting. -/
def hint : Nat → TokenParser Node
  | 0, _             => none
  | fuel + 1, tokens => (do
      let bounded : TokenParser Node := do
        let first ← hint fuel
        let more ← many (do mark ":"; hint fuel) size
        pure (grouped (first :: more))
      let simple : TokenParser Node := do
        if ← atGeneric? then generic size bounded
        else if ← atMark? ["**"] then starredHint
        else expr
      let first ← simple
      let more ← many ((do mark "|"; simple) <|> (do
        mark "."
        let (token, name) ← anyWord
        pure (.name token.line name))) size
      pure (grouped (first :: more)) : TokenParser Node) tokens

/-! ### Lambdas -/

/-- The name a starred parameter binds. It binds none if another target comes after the star, or a
comment or joined lines come before the name. -/
def starredParameter (symbol : String) : TokenParser (Option String) := do
  mark symbol
  let first ← peek
  let node ← primary size expr size
  require node.isPlainTarget
  pure (if first.any Token.isApart then none else node.identifier?.map Prod.snd)

/-- What a parameter binds, and what may follow it. -/
structure ParameterName where
  bound       : Option String
  hintable    : Bool
  defaultable : Bool

/-- The name of one parameter. A separator or a tuple binds none. -/
def parameterName : TokenParser ParameterName :=
  (do
    let bound ← starredParameter size expr "*" <|> starredParameter size expr "**"
    pure ⟨bound, true, false⟩) <|>
  (do
    markOf ["*", "/"]
    pure ⟨none, false, false⟩) <|>
  (do
    let (_, name) ← anyWord
    pure ⟨some name, true, true⟩) <|>
  (do
    require (← atMark? ["("])
    let node ← primary size expr size
    require node.isTarget
    pure ⟨none, false, true⟩)

/-- A parameter, with a hint if `annotated` allows one. -/
def parameter (annotated : Bool) : TokenParser Node := do
  let name ← parameterName size expr
  let type ←
    (do
      require (annotated && name.hintable)
      mark ":"
      hint size expr size) <|> pure .absent
  let fallback ←
    (do
      require name.defaultable
      mark "="
      expr) <|> pure .absent
  pure (.param name.bound type fallback)

/-- A lambda. -/
def lambdaExpression : TokenParser Node := do
  let start ← word "lambda"
  let params ← listUntil (parameter size expr false) ":" size
  let body ← expr
  pure (.lambda start.site params body)

/-! ### Expressions -/

/-- An expression up to its first `and` or `or`. -/
def term : TokenParser Node := do
  if ← atWord? ["lambda"] then lambdaExpression size expr
  else if ← word? "not" then
    let node ← expr
    pure (.group [node])
  else
    (do
      let (token, name) ← anyWord
      mark ":="
      let value ← expr
      pure (.walrus token.line name value)) <|>
    operation size expr

/-- An expression, given the parser for those inside it. -/
def expressionStep : TokenParser Node := do
  let first ← term size expr
  let more ← many (do
      let _ ← word "and" <|> word "or"
      term size expr) size
  let condition ← (do
      let _ ← word "if"
      let test ← expr
      let _ ← word "else"
      let other ← expr
      pure [test, other]) <|> pure []
  let target ← (do
      let _ ← word "as"
      let node ← expr
      pure [Node.asTarget node]) <|> pure []
  pure (grouped (first :: more ++ condition ++ target))

end

/-- An expression. The fuel bounds the nesting. -/
def expression (size : Nat) : Nat → TokenParser Node
  | 0, _             => none
  | fuel + 1, tokens => expressionStep size (expression size fuel) tokens

end CodeSurvey.Python
