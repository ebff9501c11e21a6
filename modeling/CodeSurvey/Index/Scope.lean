import CodeSurvey.Index.Symbol

/-!
# Scopes

The table that indexing a file builds up: its scopes, the names bound in them, and the symbols
behind those names.

* `SymbolTable.push` opens a scope for the syntax at a site.
* `SymbolTable.bindSymbol` binds a name to a symbol, a new one unless the name is bound already.
* `SymbolTable.lookup` finds what a name means in a scope: class bodies are seen only from
  directly inside.
-/

namespace CodeSurvey

/-- What a name is bound to. -/
inductive Binding where
  /-- A symbol, by its place in the table. -/
  | symbol (index : Nat)
  /-- A parameter, a loop variable or the like: it hides outer names and is no symbol. -/
  | hidden
deriving DecidableEq

/-- A scope: its kind, the scope around it, the dotted name its definitions are qualified with,
the names bound in it, the last first, and those declared global. -/
structure Scope where
  kind      : ScopeKind
  parent    : Option Nat
  qualifier : String
  bindings  : List (String × Binding)
  globals   : List String

/-- What a name is bound to in a scope. -/
def Scope.find (scope : Scope) (name : String) : Option Binding :=
  scope.bindings.lookup name

/-- A fresh module scope. -/
def Scope.module : Scope :=
  { kind := .module, parent := none, qualifier := "", bindings := [], globals := [] }

instance : Inhabited Scope := ⟨Scope.module⟩

/-- The table of one file. Scope `0` is the module. `sites` maps the site of a scope's syntax to
the scope, and `classBodies` a class symbol to the scope of its body. -/
structure SymbolTable where
  file        : Path
  scopes      : List Scope
  sites       : List (Nat × Nat)
  classBodies : List (Nat × Nat)
  symbols     : List Symbol
  imports     : List Import
  exports     : Option (List String)
  exportsLine : Nat

namespace SymbolTable

/-- The table of a file before anything is read. -/
def empty (file : Path) : SymbolTable :=
  { file, scopes := [.module], sites := [], classBodies := [], symbols := [], imports := [],
    exports := none, exportsLine := 0 }

/-- A scope by its number. -/
def scope (table : SymbolTable) (index : Nat) : Scope :=
  table.scopes.getD index .module

/-- Changes a scope. -/
def updateScope (table : SymbolTable) (index : Nat) (change : Scope → Scope) : SymbolTable :=
  { table with scopes := table.scopes.modify index change }

/-- A name qualified by the scope it is defined in. -/
def qualify (table : SymbolTable) (scope : Nat) (name : String) : String :=
  let qualifier := (table.scope scope).qualifier
  if qualifier = "" then name else s!"{qualifier}.{name}"

/-- The place of the symbol with an identity. -/
def indexOf (table : SymbolTable) (id : SymbolId) : Option Nat :=
  table.symbols.findIdx? fun symbol => symbol.id = id

/-! ### Binding names -/

/-- Opens a scope inside another for the syntax at a site, and gives its number. -/
def push (table : SymbolTable) (site : Nat) (kind : ScopeKind) (parent : Nat)
    (qualifier : String) : Nat × SymbolTable :=
  let index := table.scopes.length
  let scope : Scope := { kind, parent := some parent, qualifier, bindings := [], globals := [] }
  (index, { table with
    scopes := table.scopes ++ [scope]
    sites  := (site, index) :: table.sites })

/-- Binds a name, whatever it was bound to before. -/
def bind (table : SymbolTable) (scope : Nat) (name : String) (binding : Binding) : SymbolTable :=
  table.updateScope scope fun s => { s with bindings := (name, binding) :: s.bindings }

/-- Hides outer names in a scope, unless it binds them already. -/
def hide (table : SymbolTable) (scope : Nat) (names : List String) : SymbolTable :=
  names.foldl (fun t name =>
    if ((t.scope scope).find name).isSome then t else t.bind scope name .hidden) table

/-- Declares names global in a scope. -/
def declareGlobal (table : SymbolTable) (scope : Nat) (names : List String) : SymbolTable :=
  table.updateScope scope fun s => { s with globals := names ++ s.globals }

/-- What a definition says about its symbol. -/
structure Definition where
  name          : String
  kind          : SymbolKind
  line          : Nat
  isDecorated   : Bool := false
  isConditional : Bool := false
  source        : Option Nat := none

/-- The scope that a definition binds in: the module for names declared global, except imports. -/
def bindingScope (table : SymbolTable) (scope : Nat) (definition : Definition) : Nat :=
  if definition.kind ≠ .imported ∧ definition.name ∈ (table.scope scope).globals then 0 else scope

/-- The symbol of a definition in a scope. -/
def symbolOf (table : SymbolTable) (scope : Nat) (definition : Definition) : Symbol :=
  { id            := ⟨table.file, table.qualify scope definition.name, definition.kind⟩
    name          := definition.name
    line          := definition.line
    scope         := (table.scope scope).kind
    isPrivate     := Text.startsWith definition.name "_" && !isDunder definition.name
    isExported    := false
    isDecorated   := definition.isDecorated
    isConditional := definition.isConditional
    source        := definition.source }

/-- Binds a defined name to its symbol, and gives the place of the symbol if it is new. A name that
is bound already stays as it is, and two scopes that qualify alike share a symbol. -/
def bindSymbol (table : SymbolTable) (scope : Nat) (definition : Definition) :
    Option Nat × SymbolTable :=
  let target := table.bindingScope scope definition
  if definition.name = "" ∨ ((table.scope target).find definition.name).isSome then (none, table)
  else
    let symbol := table.symbolOf target definition
    match table.indexOf symbol.id with
    | some index => (none, table.bind target definition.name (.symbol index))
    | none       =>
      let index := table.symbols.length
      let grown := { table with symbols := table.symbols ++ [symbol] }
      (some index, grown.bind target definition.name (.symbol index))

/-! ### Finding names -/

/-- What a name means in the scopes from `scope` outwards, class bodies left out. The fuel bounds
the scopes. -/
def lookupOutward (table : SymbolTable) (name : String) : Nat → Option Nat → Option Binding
  | 0, _                 => none
  | _ + 1, none          => none
  | fuel + 1, some index =>
    let scope := table.scope index
    match if scope.kind = .classBody then none else scope.find name with
    | some binding => some binding
    | none         => lookupOutward table name fuel scope.parent

/-- What a name means in a scope: its own binding, the module's if it is declared global, or that
of the nearest scope around it which is no class body. -/
def lookup (table : SymbolTable) (index : Nat) (name : String) : Option Binding :=
  let scope := table.scope index
  match scope.find name with
  | some binding => some binding
  | none         =>
    if name ∈ scope.globals then (table.scope 0).find name
    else table.lookupOutward name table.scopes.length scope.parent

/-- The nearest class body at or around a scope. The fuel bounds the scopes. -/
def classAround (table : SymbolTable) : Nat → Option Nat → Option Nat
  | 0, _                 => none
  | _ + 1, none          => none
  | fuel + 1, some index =>
    let scope := table.scope index
    if scope.kind = .classBody then some index else classAround table fuel scope.parent

/-- The class body that a scope lies in. -/
def enclosingClass (table : SymbolTable) (index : Nat) : Option Nat :=
  table.classAround (table.scopes.length + 1) (some index)

/-- The scope of the syntax at a site, or `outer` if none was opened for it. -/
def scopeAt (table : SymbolTable) (site outer : Nat) : Nat :=
  (table.sites.lookup site).getD outer

end SymbolTable

end CodeSurvey
