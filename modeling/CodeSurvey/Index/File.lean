import CodeSurvey.Diagnostic
import CodeSurvey.Text.Lines
import CodeSurvey.Text.Utf8
import CodeSurvey.Index.References
import CodeSurvey.Python.Module

/-!
# The index of a file

Both passes over a source, and what only the whole file can tell: which symbols are exported, and
which imports may be missing at run time.

* `indexSource` indexes a source text.
* `indexBytes` indexes the bytes of a file in a language that is understood.
-/

namespace CodeSurvey

namespace SymbolTable

/-- The symbol that a name means at module level. -/
def moduleSymbol (table : SymbolTable) (name : String) : Option Nat :=
  match (table.scope 0).find name with
  | some (.symbol i) => some i
  | _                => none

/-- The symbols that `__all__` lists, by their places. -/
def listedSymbols (table : SymbolTable) : List Nat :=
  (table.exports.getD []).filterMap table.moduleSymbol

/-- Whether an import makes its name part of a package: the public names that the module level of
a package marker imports. -/
def isReexport (isPackageMarker : Bool) (symbol : Symbol) : Bool :=
  isPackageMarker && symbol.isTopLevel && !symbol.isPrivate && symbol.id.kind = .imported

/-- The symbols with their export marks. -/
def markedSymbols (table : SymbolTable) (isPackageMarker : Bool) : List Symbol :=
  let listed := table.listedSymbols
  table.symbols.zipIdx.map fun (symbol, i) =>
    { symbol with isExported := listed.contains i || isReexport isPackageMarker symbol }

/-- The names that `__all__` lists, as uses that only run time can confirm. -/
def exportReferences (table : SymbolTable) : List Reference :=
  (table.exports.getD []).map fun name =>
    table.reference (table.moduleSymbol name) name table.exportsLine .dynamicUncertain

/-- The conditional imports, as uses that only run time can confirm. -/
def conditionalReferences (table : SymbolTable) : List Reference :=
  (table.symbols.zipIdx.filter fun (symbol, _) =>
      symbol.id.kind = .imported && symbol.isConditional).map fun (symbol, i) =>
    table.reference (some i) symbol.name symbol.line .dynamicUncertain

end SymbolTable

/-- The table of a file's syntax. -/
def definitionsOf (file : SourceFile) (nodes : List Python.Node) : SymbolTable :=
  collectAll 0 false nodes (.empty file.path)

/-- The index of a file whose syntax is known. -/
def indexNodes (file : SourceFile) (nodes : List Python.Node) (lineCount : Nat) : FileIndex :=
  let table := definitionsOf file nodes
  { file
    moduleName := file.path.moduleName
    symbols    := table.markedSymbols file.isPackageMarker
    imports    := table.imports
    references := occurrencesIn table 0 false nodes ++ table.exportReferences ++
      table.conditionalReferences
    exports    := table.exports
    lineCount }

/-- The index of a source text, or the place where it does not parse. -/
def indexSource (file : SourceFile) (source : String) : Except Failure FileIndex :=
  match Python.parse source with
  | .ok nodes   => .ok (indexNodes file nodes (Text.lineCount source))
  | .error line => .error (.parse file.path.text s!"syntax error near line {line}")

/-- The index of a file's bytes, as an answer to reading them. -/
def indexBytes (file : SourceFile) (content : Except String ByteArray) :
    Except Failure FileIndex :=
  if file.language ≠ .python then
    .error (.parse file.path.text s!"unsupported language: {file.language.name}")
  else
    match content with
    | .error reason => .error (.io file.path.text reason)
    | .ok bytes     =>
      match Text.decode bytes with
      | .error fault => .error (.parse file.path.text s!"not valid UTF-8: {fault.message}")
      | .ok source   => indexSource file source

end CodeSurvey
