import CodeSurvey.Index.Scope
import CodeSurvey.Python.Node

/-!
# The first pass: definitions

Reads the syntax of a file once and fills its table: a scope for every body, a symbol for every
definition, and the imports.

* `Python.Node.targets` are the names that an assignment to a node binds.
* `Python.Node.mentioned` are the names that a loop variable or an alias hides.
* `collect` is the pass. Parts that no name can be bound in are not entered: default values,
  type hints, decorators, bases and assignment targets.
-/

namespace CodeSurvey

open Python (Node ImportClause ImportedName)

/-! ### Names in targets -/

namespace Python.Node

mutual

/-- The names that an assignment to the node binds, with their lines. -/
def targets : Node → List (Nat × String)
  | .name line id    => [(line, id)]
  | .bundle _ items  => targetsOf items
  | _                => []

/-- The names that an assignment to the nodes binds. -/
def targetsOf : List Node → List (Nat × String)
  | []           => []
  | node :: rest => node.targets ++ targetsOf rest

end

mutual

/-- The identifiers in the node that are not below an attribute or a subscript. -/
def mentioned : Node → List String
  | .name _ id                  => [id]
  | .string _ holes             => mentionedIn holes
  | .call callee arguments      => callee.mentioned ++ mentionedIn arguments
  | .keyword key value          => key :: value.mentioned
  | .bundle _ items             => mentionedIn items
  | .group items                => mentionedIn items
  | .lambda _ params body       => mentionedIn params ++ body.mentioned
  | .comprehension _ items      => mentionedIn items
  | .forIn target rest          => target.mentioned ++ mentionedIn rest
  | .walrus _ id value          => id :: value.mentioned
  | .asTarget target            => target.mentioned
  | .param id hint fallback =>
    id.toList ++ hint.mentioned ++ fallback.mentioned
  | _                           => []

/-- The identifiers in the nodes that are not below an attribute or a subscript. -/
def mentionedIn : List Node → List String
  | []           => []
  | node :: rest => node.mentioned ++ mentionedIn rest

end

/-- The names that parameters bind. -/
def paramNames (params : List Node) : List String :=
  params.filterMap fun
    | .param id _ _ => id
    | _             => none

end Python.Node

/-! ### Binding -/

namespace SymbolTable

/-- Binds every name that an assignment to a target binds. -/
def bindTargets (table : SymbolTable) (scope : Nat) (target : Node) : SymbolTable :=
  target.targets.foldl (fun t (line, name) =>
    (t.bindSymbol scope { name, kind := .assigned, line }).2) table

/-- Binds the parameters of a function or a lambda. -/
def bindParams (table : SymbolTable) (scope : Nat) (params : List Node) : SymbolTable :=
  (Node.paramNames params).foldl (fun t name => t.bind scope name .hidden) table

/-- The imports of a statement. -/
def importsOf (clause : ImportClause) (line : Nat) (isConditional : Bool) : List Import :=
  match clause with
  | .modules names =>
    names.map fun entry =>
      { module := entry.name, name := none, asName := entry.asName, level := 0, line, isConditional,
        isWildcard := false }
  | .members module level names =>
    names.map fun entry =>
      { module, name := some entry.name, asName := entry.asName, level, line, isConditional,
        isWildcard := false }
  | .everything module level =>
    [{ module, name := none, asName := none, level, line, isConditional, isWildcard := true }]

/-- Records an import and binds its name. -/
def addImport (table : SymbolTable) (scope : Nat) (entry : Import) : SymbolTable :=
  let index := table.imports.length
  let grown := { table with imports := table.imports ++ [entry] }
  match entry.binding with
  | none      => grown
  | some name =>
    (grown.bindSymbol scope
      { name, kind := .imported, line := entry.line, isConditional := entry.isConditional,
        source := some index }).2

/-- Records the imports of a statement. -/
def addImports (table : SymbolTable) (scope line : Nat) (isConditional : Bool)
    (clause : ImportClause) : SymbolTable :=
  (importsOf clause line isConditional).foldl (fun t entry => t.addImport scope entry) table

/-- Notes the names that a module-level assignment to `__all__` lists. -/
def setExports (table : SymbolTable) (scope line : Nat) (target value : Node) : SymbolTable :=
  match target with
  | .name _ "__all__" =>
    if scope = 0 then { table with exports := some value.literals, exportsLine := line } else table
  | _ => table

/-- Adds the names that a module-level `__all__ += …` lists. -/
def addExports (table : SymbolTable) (scope : Nat) (target value : Node) : SymbolTable :=
  match target with
  | .name _ "__all__" =>
    if scope = 0 then { table with exports := some (table.exports.getD [] ++ value.literals) }
    else table
  | _ => table

/-- Defines a function: binds its name, opens its scope and binds its parameters there. -/
def enterFunction (table : SymbolTable) (scope line : Nat) (id : String) (site : Nat)
    (params : List Node) (isDecorated : Bool) : Nat × SymbolTable :=
  let (_, bound) := table.bindSymbol scope { name := id, kind := .function, line, isDecorated }
  let (inner, opened) := bound.push site .function scope (bound.qualify scope id)
  (inner, opened.bindParams inner params)

/-- Defines a class: binds its name and opens the scope of its body. -/
def enterClass (table : SymbolTable) (scope line : Nat) (id : String) (site : Nat)
    (isDecorated : Bool) : Nat × SymbolTable :=
  let (symbol, bound) := table.bindSymbol scope { name := id, kind := .classDef, line, isDecorated }
  let (inner, opened) := bound.push site .classBody scope (bound.qualify scope id)
  match symbol with
  | some index => (inner, { opened with classBodies := (index, inner) :: opened.classBodies })
  | none       => (inner, opened)

/-- Opens the scope of a lambda or a comprehension, which qualifies names like the scope around
it. -/
def enterNameless (table : SymbolTable) (scope site : Nat) (kind : ScopeKind) :
    Nat × SymbolTable :=
  table.push site kind scope (table.scope scope).qualifier

end SymbolTable

/-! ### The pass -/

mutual

/-- Reads a node that stands in a scope. `isConditional` says that it stands in a conditional
region of the body it belongs to, and `isDecorated` that it is a definition with decorators. -/
def collect (scope : Nat) (isConditional isDecorated : Bool) : Node → SymbolTable → SymbolTable
  | .function line id site params _ body, table =>
    let (inner, opened) := table.enterFunction scope line id site params isDecorated
    collectAll inner false body opened
  | .classDef line id site _ body, table =>
    let (inner, opened) := table.enterClass scope line id site isDecorated
    collectAll inner false body opened
  | .decorated _ definition, table => collect scope isConditional true definition table
  | .imports line clause, table    => table.addImports scope line isConditional clause
  | .globals names, table          => table.declareGlobal scope names
  | .assign line target _ value, table =>
    collect scope isConditional false value
      ((table.bindTargets scope target).setExports scope line target value)
  | .augment target value, table =>
    collect scope isConditional false value (table.addExports scope target value)
  | .walrus line id value, table =>
    collect scope isConditional false value
      (table.bindSymbol scope { name := id, kind := .assigned, line }).2
  | .forLoop target rest, table =>
    collectAll scope isConditional rest (table.hide scope target.mentioned)
  | .lambda site params body, table =>
    let (inner, opened) := table.enterNameless scope site .lambda
    collect inner isConditional false body (opened.bindParams inner params)
  | .comprehension site items, table =>
    let (inner, opened) := table.enterNameless scope site .comprehension
    collectAll inner isConditional items opened
  | .forIn target rest, table =>
    collectAll scope isConditional rest
      (collect scope isConditional false target (table.hide scope target.mentioned))
  | .asTarget target, table         => table.hide scope target.mentioned
  | .branch items, table            => collectAll scope true items table
  | .name _ _, table                => table
  | .string _ holes, table          => collectAll scope isConditional holes table
  | .attribute object _ _, table    => collect scope isConditional false object table
  | .subscript value indices, table =>
    collectAll scope isConditional indices (collect scope isConditional false value table)
  | .call callee arguments, table   =>
    collectAll scope isConditional arguments (collect scope isConditional false callee table)
  | .keyword _ value, table         => collect scope isConditional false value table
  | .bundle _ items, table          => collectAll scope isConditional items table
  | .group items, table             => collectAll scope isConditional items table
  | .param _ _ _, table             => table

/-- Reads nodes that stand in a scope, one after the other. -/
def collectAll (scope : Nat) (isConditional : Bool) : List Node → SymbolTable → SymbolTable
  | [], table           => table
  | node :: rest, table =>
    collectAll scope isConditional rest (collect scope isConditional false node table)

end

end CodeSurvey
