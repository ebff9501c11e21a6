import CodeSurvey.Index.Symbol
import CodeSurvey.Text.Lines

/-!
# The public surface of a module

What a module offers to others: the names that `__all__` lists, or else its public top-level
symbols.

* `exportNames` are the names alone.
* `exportEntries` are the entries of a document; a class comes with its methods.
-/

namespace CodeSurvey

/-- Whether a symbol is meant for others. -/
def Symbol.isPublic (symbol : Symbol) : Bool :=
  !symbol.isPrivate && !symbol.isDunder

/-- The public top-level symbols of a file. -/
def FileIndex.publicSymbols (index : FileIndex) : List Symbol :=
  index.symbols.filter fun s => s.isTopLevel && s.isPublic

/-- The names that a module offers. -/
def exportNames (index : FileIndex) : List String :=
  match index.exports with
  | some names => names
  | none       =>
    (index.publicSymbols.filter fun s => s.id.kind ≠ .imported || s.isExported).map Symbol.name

/-- Whether a qualified name is that of something directly inside another. -/
def isDirectlyInside (outer qualified : String) : Bool :=
  match Text.dropStart? (outer.toList ++ ['.']) qualified.toList with
  | some rest => !rest.contains '.'
  | none      => false

/-- The public methods of a class. -/
def methodsOf (index : FileIndex) (classSymbol : Symbol) : List Symbol :=
  index.symbols.filter fun s =>
    s.id.kind = .function && s.isPublic && isDirectlyInside classSymbol.id.qualified s.id.qualified

/-- The entry of a public symbol. -/
def exportEntry (index : FileIndex) (symbol : Symbol) : Option String :=
  match symbol.id.kind with
  | .classDef =>
    some (s!"- class {symbol.name}" ++
      String.join ((methodsOf index symbol).map fun method => s!"\n  - {method.name}()"))
  | .function => some s!"- {symbol.name}()"
  | .assigned => some s!"- {symbol.name}"
  | .imported => if symbol.isExported then some s!"- {symbol.name}" else none

/-- The entries of a module's public surface. -/
def exportEntries (index : FileIndex) : List String :=
  match index.exports with
  | some names => names.map fun name => s!"- {name}"
  | none       => index.publicSymbols.filterMap (exportEntry index)

end CodeSurvey
