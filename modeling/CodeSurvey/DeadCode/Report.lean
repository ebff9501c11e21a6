import CodeSurvey.DeadCode.Score
import CodeSurvey.Graph.Build

/-!
# The dead code report

Scores every symbol that may be dead code and reports those that reach a threshold.

* `isCandidate` leaves out names that the language or a test framework uses on its own, and the
  local variables of functions.
* `deadCode` is the report of a project.
* `DeadCodeReport.filtered` raises its threshold afterwards.
-/

namespace CodeSurvey

/-- A symbol that may be dead code. -/
structure Finding where
  file       : Path
  symbol     : String
  kind       : SymbolKind
  line       : Nat
  confidence : Nat
  bucket     : Bucket
  evidence   : List String
  testOnly   : Bool
deriving DecidableEq

/-- The report in numbers. -/
structure DeadCodeSummary where
  high       : Nat
  medium     : Nat
  low        : Nat
  testOnly   : Nat
  emptyFiles : Nat
deriving DecidableEq

/-- Counts findings by bucket. -/
def summarize (findings : List Finding) (emptyFiles : Nat) : DeadCodeSummary :=
  { high     := findings.countP fun f => f.bucket = .high
    medium   := findings.countP fun f => f.bucket = .medium
    low      := findings.countP fun f => f.bucket = .low
    testOnly := findings.countP Finding.testOnly
    emptyFiles }

/-- The findings in order, the modules without any content, and the numbers. -/
structure DeadCodeReport where
  findings   : List Finding
  emptyFiles : List Path
  summary    : DeadCodeSummary
deriving DecidableEq

namespace DeadCodeReport

/-- The report of findings and empty modules. -/
def of (findings : List Finding) (emptyFiles : List Path) : DeadCodeReport :=
  ⟨findings, emptyFiles, summarize findings emptyFiles.length⟩

/-- The findings in a file. -/
def forFile (report : DeadCodeReport) (file : Path) : List Finding :=
  report.findings.filter fun f => f.file = file

/-- The findings in a bucket. -/
def inBucket (report : DeadCodeReport) (bucket : Bucket) : List Finding :=
  report.findings.filter fun f => f.bucket = bucket

/-- The report without the findings below a confidence. -/
def filtered (report : DeadCodeReport) (least : Nat) : DeadCodeReport :=
  .of (report.findings.filter fun f => decide (least ≤ f.confidence)) report.emptyFiles

end DeadCodeReport

/-! ### Candidates -/

/-- Whether a test framework finds the symbol by its name. -/
def isTestEntry (symbol : Symbol) : Bool :=
  (symbol.id.kind = .function && Text.startsWith symbol.name "test") ||
    (symbol.id.kind = .classDef && Text.startsWith symbol.name "Test")

/-- Whether the symbol is a variable inside a function, a lambda or a comprehension. -/
def isLocalVariable (symbol : Symbol) : Bool :=
  [ScopeKind.function, .lambda, .comprehension].contains symbol.scope &&
    symbol.id.kind = .assigned

/-- Whether a symbol may be reported. -/
def isCandidate (file : SourceFile) (symbol : Symbol) : Bool :=
  !symbol.isDunder && !(["self", "cls", "_"].contains symbol.name) && !isLocalVariable symbol &&
    !(file.isTest && isTestEntry symbol)

/-! ### The report -/

/-- The finding of a scored symbol, if it reaches the threshold. -/
def findingOf (threshold : Nat) (file : SourceFile) (symbol : Symbol) (score : Score) :
    Option Finding :=
  (Bucket.ofConfidence score.confidence).bind fun bucket =>
    if score.confidence < threshold then none
    else some
      { file       := file.path
        symbol     := symbol.id.qualified
        kind       := symbol.id.kind
        line       := symbol.line
        confidence := score.confidence
        bucket
        evidence   := score.evidence
        testOnly   := score.testOnly }

/-- The findings among the symbols of a file, unless a score leaves its range. -/
def findingsIn (threshold : Nat) (weights : Weights) (graph : ReferenceGraph)
    (index : FileIndex) : Option (List Finding) :=
  ((index.symbols.filter (isCandidate index.file)).mapM fun symbol =>
      (score (.ofSymbol symbol (graph.usage symbol.id) index.file.isTest) weights).map
        (findingOf threshold index.file symbol)).map
    List.reduceOption

/-- The order of findings: file, then line, then symbol. -/
def Finding.order (a b : Finding) : Ordering :=
  (a.file.order b.file).then ((compare a.line b.line).then (compare a.symbol b.symbol))

/-- Whether a module has no content and is no package marker. -/
def isEmptyModule (index : FileIndex) : Bool :=
  index.file.size == 0 && !index.file.isPackageMarker

/-- The report of a project, unless a score leaves its range. -/
def deadCode (threshold : Nat) (weights : Weights) (files : List FileIndex)
    (graph : ReferenceGraph) : Option DeadCodeReport :=
  (files.mapM (findingsIn threshold weights graph)).map fun findings =>
    .of (sortBy Finding.order findings.flatten) ((files.filter isEmptyModule).map FileIndex.path)

end CodeSurvey
