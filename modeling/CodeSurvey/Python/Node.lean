/-!
# Syntax trees

What a parsed source is made of, as far as names are concerned.

The tree keeps every identifier, the forms that bind names and the forms that open a scope, all in
source order. Operators, literals without a text and statement keywords are gone: whatever only
groups its parts is a `group`, and a part that is left out is the empty group `absent`. Comments and
joined lines are gone too, but for joined lines among the arguments of a call, each of which is an
`absent`.

A form that opens a scope carries the offset of its first token, its `site`. No two of them start
at one place, so the site is the identity of the scope.
-/

namespace CodeSurvey.Python

/-- The kinds of bundle that an assignment looks through. -/
inductive Shape where
  /-- A list, a tuple in parentheses, or one parenthesised expression. -/
  | enclosed
  /-- Expressions with commas and no brackets. -/
  | bare
  /-- An expression after a star. -/
  | starred
deriving DecidableEq

/-- One name of an import statement: the dotted name as written and its alias. -/
structure ImportedName where
  name   : String
  asName : Option String
deriving DecidableEq

/-- What an import statement asks for. -/
inductive ImportClause where
  /-- `import a.b, c as d`. -/
  | modules (names : List ImportedName)
  /-- `from ..module import a, b as c`, with the number of leading dots. -/
  | members (module : String) (level : Nat) (names : List ImportedName)
  /-- `from module import *`. -/
  | everything (module : String) (level : Nat)
deriving DecidableEq

/-- A piece of syntax. -/
inductive Node where
  /-- An identifier. -/
  | name (line : Nat) (id : String)
  /-- A string literal: its plain text, if it has one, and the expressions formatted into it. -/
  | string (value : Option String) (holes : List Node)
  /-- `object.field`; the line is that of the field. -/
  | attribute (object : Node) (line : Nat) (field : String)
  /-- `value[indices]`. -/
  | subscript (value : Node) (indices : List Node)
  /-- `callee(arguments)`. -/
  | call (callee : Node) (arguments : List Node)
  /-- The argument `name=value`. -/
  | keyword (name : String) (value : Node)
  /-- Parts that an assignment target may also consist of. -/
  | bundle (shape : Shape) (items : List Node)
  /-- Parts in source order. -/
  | group (items : List Node)
  /-- `lambda params: body`. -/
  | lambda (site : Nat) (params : List Node) (body : Node)
  /-- A comprehension or a generator: its element, then its clauses. -/
  | comprehension (site : Nat) (items : List Node)
  /-- The clause `for target in rest` of a comprehension. -/
  | forIn (target : Node) (rest : List Node)
  /-- `id := value`. -/
  | walrus (line : Nat) (id : String) (value : Node)
  /-- The target after `as`. -/
  | asTarget (target : Node)
  /-- `target: hint = value`. -/
  | assign (line : Nat) (target hint value : Node)
  /-- `target += value`. -/
  | augment (target value : Node)
  /-- `for target in …: …`, with everything after the target. -/
  | forLoop (target : Node) (rest : List Node)
  /-- A conditional region: `if`, `try`, or one of their clauses. -/
  | branch (items : List Node)
  /-- A function definition; the line is that of its name. -/
  | function (line : Nat) (id : String) (site : Nat) (params : List Node) (returns : Node)
      (body : List Node)
  /-- A class definition; the line is that of its name. -/
  | classDef (line : Nat) (id : String) (site : Nat) (bases : List Node) (body : List Node)
  /-- A definition with decorators. -/
  | decorated (decorators : List Node) (definition : Node)
  /-- An import statement. -/
  | imports (line : Nat) (clause : ImportClause)
  /-- `global names`. -/
  | globals (names : List String)
  /-- A parameter: the name it binds, its hint and its default value. -/
  | param (id : Option String) (hint fallback : Node)

namespace Node

/-- A part that is left out. -/
def absent : Node := .group []

instance : Inhabited Node := ⟨absent⟩

/-- The line and the text of a node that is an identifier. -/
def identifier? : Node → Option (Nat × String)
  | .name line id => some (line, id)
  | _             => none

/-- The text of a plain string literal. -/
def literal? : Node → Option String
  | .string value _ => value
  | _               => none

/-- The plain string literals directly inside a list, a tuple or parentheses. -/
def literals : Node → List String
  | .bundle .enclosed items => items.filterMap literal?
  | _                       => []

/-- Whether a starred target may stand for the node: a name, an attribute or a subscript. -/
def isPlainTarget : Node → Bool
  | .name ..      => true
  | .attribute .. => true
  | .subscript .. => true
  | _             => false

mutual

/-- Whether the node may stand on the left of an assignment. -/
def isTarget : Node → Bool
  | .name ..                => true
  | .attribute ..           => true
  | .subscript ..           => true
  | .bundle .starred items  => items.all isPlainTarget
  | .bundle _ items         => areTargets items
  | _                       => false

/-- Whether all nodes may stand on the left of an assignment. -/
def areTargets : List Node → Bool
  | []           => true
  | node :: rest => node.isTarget && areTargets rest

end

end Node

end CodeSurvey.Python
