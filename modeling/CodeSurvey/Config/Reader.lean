import CodeSurvey.Config.Basic
import CodeSurvey.Toml.Reader

/-!
# Reading the configuration

From TOML values to a configuration. A key that is left out keeps its default, a key that is not
known is ignored, and a value of the wrong kind or out of range makes the whole unreadable.

* `Config.ofValue` reads a configuration from a table.
* `Config.ofText` reads the text of a configuration file and checks it.
-/

namespace CodeSurvey

open Toml (Value)

/-! ### Fields -/

/-- What a record's value says about a field: a table names its fields, and an array lists them in
order. -/
def fieldValue (names : List String) (name : String) : Value → Option Value
  | .array items => (names.findIdx? (· == name)).bind fun i => items[i]?
  | value        => value.find name

/-- Whether a value can be a record. -/
def isRecord : Value → Bool
  | .table _ => true
  | .array _ => true
  | _        => false

/-- A record under construction: the reader of one field, the default if the field is missing. -/
def readField {α : Type} (names : List String) (record : Value) (name : String)
    (reader : Value → Option α) (fallback : α) : Option α :=
  match fieldValue names name record with
  | none       => some fallback
  | some value => reader value

/-- A text. -/
def readText : Value → Option String
  | .text content => some content
  | _             => none

/-- A truth value. -/
def readBoolean : Value → Option Bool
  | .boolean b => some b
  | _          => none

/-- An integer within bounds. -/
def readInteger (least greatest : Int) : Value → Option Int
  | .integer n => if least ≤ n ∧ n ≤ greatest then some n else none
  | _          => none

/-- A count up to a bound. -/
def readCount (greatest : Nat) (value : Value) : Option Nat :=
  (readInteger 0 greatest value).map Int.toNat

/-- A list of texts. -/
def readTexts : Value → Option (List String)
  | .array items => items.mapM readText
  | _            => none

/-- A budget unit: its name, or a table with the name as its only key and nothing in it. -/
def readBudgetUnit : Value → Option BudgetUnit
  | .text "chars"                    => some .chars
  | .text "tokens"                   => some .tokens
  | .table [("chars", .table [])]    => some .chars
  | .table [("tokens", .table [])]   => some .tokens
  | .table [("chars", .array [])]    => some .chars
  | .table [("tokens", .array [])]   => some .tokens
  | _                                => none

/-! ### Records -/

/-- The names of the weights, in order. -/
def weightNames : List String :=
  ["base_import", "base_function", "base_variable", "base_class", "unused", "private_unused",
   "per_self_reference", "per_import_use", "per_cross_reference", "exported", "test_only",
   "decorated", "conditional_import", "dynamic", "dynamic_cap"]

/-- Weights from a record. -/
def Weights.ofValue (record : Value) : Option Weights := do
  let defaults : Weights := {}
  let points := readField weightNames record
  let reader := readInteger leastPoints greatestPoints
  if isRecord record then
    pure
      { baseImport        := ← points "base_import" reader defaults.baseImport
        baseFunction      := ← points "base_function" reader defaults.baseFunction
        baseVariable      := ← points "base_variable" reader defaults.baseVariable
        baseClass         := ← points "base_class" reader defaults.baseClass
        unused            := ← points "unused" reader defaults.unused
        privateUnused     := ← points "private_unused" reader defaults.privateUnused
        perSelfReference  := ← points "per_self_reference" reader defaults.perSelfReference
        perImportUse      := ← points "per_import_use" reader defaults.perImportUse
        perCrossReference := ← points "per_cross_reference" reader defaults.perCrossReference
        exported          := ← points "exported" reader defaults.exported
        testOnly          := ← points "test_only" reader defaults.testOnly
        decorated         := ← points "decorated" reader defaults.decorated
        conditionalImport := ← points "conditional_import" reader defaults.conditionalImport
        dynamic           := ← points "dynamic" reader defaults.dynamic
        dynamicCap        := ← points "dynamic_cap" reader defaults.dynamicCap }
  else none

/-- The names of the analysis fields, in order. -/
def analysisNames : List String :=
  ["confidence_threshold", "scan_timeout_ms", "threads", "test_file_patterns", "test_directories",
   "weights"]

/-- The analysis part from a record. -/
def AnalysisConfig.ofValue (record : Value) : Option AnalysisConfig := do
  let defaults : AnalysisConfig := {}
  let optional (value : Value) : Option (Option Nat) := (readCount greatestCount value).map some
  if isRecord record then
    let confidenceThreshold ← readField analysisNames record "confidence_threshold"
      (readCount 255) defaults.confidenceThreshold
    let scanTimeout ← readField analysisNames record "scan_timeout_ms" optional none
    let threads ← readField analysisNames record "threads" optional none
    let testFilePatterns ← readField analysisNames record "test_file_patterns" readTexts
      defaults.testFilePatterns
    let testDirectories ← readField analysisNames record "test_directories" readTexts
      defaults.testDirectories
    let weights ← readField analysisNames record "weights" Weights.ofValue {}
    pure { confidenceThreshold, scanTimeout, threads, testFilePatterns, testDirectories, weights }
  else none

/-- The names of the output fields, in order. -/
def outputNames : List String :=
  ["budget", "budget_unit", "module_budget", "critical_paths"]

/-- The output part from a record. -/
def OutputConfig.ofValue (record : Value) : Option OutputConfig := do
  let defaults : OutputConfig := {}
  let count := readCount greatestCount
  if isRecord record then
    let budget ← readField outputNames record "budget" count defaults.budget
    let budgetUnit ← readField outputNames record "budget_unit" readBudgetUnit .tokens
    let moduleBudget ← readField outputNames record "module_budget" count defaults.moduleBudget
    let criticalPaths ← readField outputNames record "critical_paths" count defaults.criticalPaths
    pure { budget, budgetUnit, moduleBudget, criticalPaths }
  else none

namespace Config

/-- The names of the fields, in order. -/
def fieldNames : List String :=
  ["target_directory", "exclude_patterns", "file_extensions", "max_file_size",
   "respect_gitignore", "follow_links", "analysis", "output"]

/-- A configuration from a record. -/
def ofValue (record : Value) : Option Config := do
  let defaults : Config := {}
  if isRecord record then
    let targetDirectory ← readField fieldNames record "target_directory" readText "."
    let excludePatterns ← readField fieldNames record "exclude_patterns" readTexts defaultExcludes
    let fileExtensions ← readField fieldNames record "file_extensions" readTexts
      defaults.fileExtensions
    let maxFileSize ← readField fieldNames record "max_file_size" (readCount greatestCount)
      defaults.maxFileSize
    let respectGitignore ← readField fieldNames record "respect_gitignore" readBoolean true
    let followLinks ← readField fieldNames record "follow_links" readBoolean true
    let analysis ← readField fieldNames record "analysis" AnalysisConfig.ofValue {}
    let output ← readField fieldNames record "output" OutputConfig.ofValue {}
    pure
      { targetDirectory, excludePatterns, fileExtensions, maxFileSize, respectGitignore,
        followLinks, analysis, output }
  else none

end Config

/-- Why a configuration cannot be had. -/
inductive ConfigError where
  /-- The file cannot be read. -/
  | unreadable
  /-- The text is no TOML, or does not fit. -/
  | malformed
  /-- A value is one that no survey can run with. -/
  | invalid (failure : Failure)

namespace Config

/-- A configuration from the text of its file. -/
def ofText (text : String) : Except ConfigError Config :=
  match (Toml.read text).bind ofValue with
  | none        => .error .malformed
  | some config =>
    match config.invalid with
    | some failure => .error (.invalid failure)
    | none         => .ok config

end Config

end CodeSurvey
