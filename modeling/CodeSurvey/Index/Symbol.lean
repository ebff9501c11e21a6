import CodeSurvey.Source
import CodeSurvey.Text.Lines

/-!
# Symbols, imports and references

The index of one file: the symbols it defines, the imports it makes, and the places where it uses
a name.

* `SymbolId` identifies a definition within one survey.
* `Import.binding` is the name an import binds; `Import.boundPath` is what that name stands for.
* `Reference` is one use of a name, with what is known about its target.
* `FileIndex` is the whole; `FileIndex.topLevel` finds a module-level definition.
-/

namespace CodeSurvey

/-- The kinds of definition, in their order. -/
inductive SymbolKind where
  | imported
  | function
  | classDef
  | assigned
deriving DecidableEq

namespace SymbolKind

/-- The name of a kind. -/
def label : SymbolKind → String
  | imported => "import"
  | function => "function"
  | classDef => "class"
  | assigned => "variable"

/-- The place of a kind in the order of kinds. -/
def rank : SymbolKind → Nat
  | imported => 0
  | function => 1
  | classDef => 2
  | assigned => 3

end SymbolKind

/-- The identity of a definition. -/
structure SymbolId where
  file      : Path
  qualified : String
  kind      : SymbolKind
deriving DecidableEq

namespace SymbolId

/-- The order of identities: file, then qualified name, then kind. -/
def order (a b : SymbolId) : Ordering :=
  (a.file.order b.file).then
    ((compare a.qualified b.qualified).then (compare a.kind.rank b.kind.rank))

/-- The text of an identity. -/
def text (id : SymbolId) : String :=
  s!"{id.file.slash}:{id.kind.label}:{id.qualified}"

end SymbolId

/-- The kinds of scope. -/
inductive ScopeKind where
  | module
  | classBody
  | function
  | lambda
  | comprehension
deriving DecidableEq

/-- The name of a scope kind. -/
def ScopeKind.label : ScopeKind → String
  | module        => "module"
  | classBody     => "class"
  | function      => "function"
  | lambda        => "lambda"
  | comprehension => "comprehension"

/-- Whether a name has two underscores at either end and something between them. -/
def isDunder (name : String) : Bool :=
  decide (4 < name.utf8ByteSize) && Text.startsWith name "__" && Text.endsWith name "__"

/-- A definition: where it is, the kind of scope it lives in, and what is known about it. Import
symbols point to their import. -/
structure Symbol where
  id            : SymbolId
  name          : String
  line          : Nat
  scope         : ScopeKind
  isPrivate     : Bool
  isExported    : Bool
  isDecorated   : Bool
  isConditional : Bool
  source        : Option Nat
deriving DecidableEq

namespace Symbol

/-- Whether the symbol has a name that the language itself gives meaning to. -/
def isDunder (symbol : Symbol) : Bool :=
  CodeSurvey.isDunder symbol.name

/-- Whether the symbol is defined at module level. -/
def isTopLevel (symbol : Symbol) : Bool :=
  symbol.scope = .module

end Symbol

/-! ### Imports -/

/-- One imported module or member: the dotted module as written, the member, the alias, the number
of leading dots, where it stands, and whether it stands in a conditional region or takes
everything. -/
structure Import where
  module        : String
  name          : Option String
  asName        : Option String
  level         : Nat
  line          : Nat
  isConditional : Bool
  isWildcard    : Bool
deriving DecidableEq

/-- A dotted name cut at its dots. -/
def dottedParts (name : String) : List String :=
  (name.toList.splitOn '.').map String.ofList

/-- The first part of a dotted name. -/
def firstPart (name : String) : String :=
  String.ofList (name.toList.takeWhile (· ≠ '.'))

namespace Import

/-- The name that the import binds where it stands. -/
def binding (entry : Import) : Option String :=
  if entry.isWildcard then none
  else
    match entry.asName, entry.name with
    | some name, _    => some name
    | none, some name => some name
    | none, none      => some (firstPart entry.module)

/-- The dotted path that the bound name stands for. `import a.b` binds `a`, so its path is `a`;
with an alias it is the whole `a.b`. -/
def boundPath (entry : Import) : String :=
  match entry.name, entry.asName with
  | some name, _   => if entry.module = "" then name else s!"{entry.module}.{name}"
  | none, some _   => entry.module
  | none, none     => firstPart entry.module

end Import

/-! ### References -/

/-- What is known about the target of a reference. -/
inductive Resolution where
  | resolved
  | dynamicUncertain
  | unknown
deriving DecidableEq

/-- The name of a resolution. -/
def Resolution.label : Resolution → String
  | resolved         => "resolved"
  | dynamicUncertain => "dynamic-uncertain"
  | unknown          => "unknown"

/-- An attribute reached through an imported name: the import and the attributes after it. -/
structure ImportAccess where
  source     : Nat
  attributes : List String
deriving DecidableEq

/-- One use of a name. -/
structure Reference where
  target     : Option SymbolId
  name       : String
  access     : Option ImportAccess
  file       : Path
  line       : Nat
  resolution : Resolution
deriving DecidableEq

/-! ### The index of a file -/

/-- Everything the index knows about one file. -/
structure FileIndex where
  file       : SourceFile
  moduleName : String
  symbols    : List Symbol
  imports    : List Import
  references : List Reference
  exports    : Option (List String)
  lineCount  : Nat
deriving DecidableEq

namespace FileIndex

/-- The path of the file below the root. -/
def path (index : FileIndex) : Path :=
  index.file.path

/-- The first module-level definition of a name. -/
def topLevel (index : FileIndex) (name : String) : Option Symbol :=
  index.symbols.find? fun symbol => symbol.isTopLevel && symbol.name == name

/-- The first definition with a qualified name. -/
def findQualified (index : FileIndex) (qualified : String) : Option Symbol :=
  index.symbols.find? fun symbol => symbol.id.qualified == qualified

end FileIndex

end CodeSurvey
