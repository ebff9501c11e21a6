import CodeSurvey.Config.Basic
import CodeSurvey.Toml.Writer

/-!
# Writing the configuration

A configuration as the text of its file: the plain fields first, then the parts under their
headers. Options that are not set are left out.
-/

namespace CodeSurvey

open Toml (Value)

/-- A count as a value. -/
def countValue (n : Nat) : Value :=
  .integer n

/-- Texts as a value. -/
def textsValue (texts : List String) : Value :=
  .array (texts.map .text)

/-- The entries of the weights. -/
def Weights.entries (weights : Weights) : List (String × Value) :=
  [("base_import", .integer weights.baseImport),
   ("base_function", .integer weights.baseFunction),
   ("base_variable", .integer weights.baseVariable),
   ("base_class", .integer weights.baseClass),
   ("unused", .integer weights.unused),
   ("private_unused", .integer weights.privateUnused),
   ("per_self_reference", .integer weights.perSelfReference),
   ("per_import_use", .integer weights.perImportUse),
   ("per_cross_reference", .integer weights.perCrossReference),
   ("exported", .integer weights.exported),
   ("test_only", .integer weights.testOnly),
   ("decorated", .integer weights.decorated),
   ("conditional_import", .integer weights.conditionalImport),
   ("dynamic", .integer weights.dynamic),
   ("dynamic_cap", .integer weights.dynamicCap)]

/-- The plain entries of the analysis part. -/
def AnalysisConfig.entries (analysis : AnalysisConfig) : List (String × Value) :=
  [("confidence_threshold", countValue analysis.confidenceThreshold)] ++
    (analysis.scanTimeout.map fun n => ("scan_timeout_ms", countValue n)).toList ++
    (analysis.threads.map fun n => ("threads", countValue n)).toList ++
    [("test_file_patterns", textsValue analysis.testFilePatterns),
     ("test_directories", textsValue analysis.testDirectories)]

/-- The entries of the output part. -/
def OutputConfig.entries (output : OutputConfig) : List (String × Value) :=
  [("budget", countValue output.budget),
   ("budget_unit", .text output.budgetUnit.label),
   ("module_budget", countValue output.moduleBudget),
   ("critical_paths", countValue output.criticalPaths)]

namespace Config

/-- The plain entries of a configuration. -/
def entries (config : Config) : List (String × Value) :=
  [("target_directory", .text config.targetDirectory),
   ("exclude_patterns", textsValue config.excludePatterns),
   ("file_extensions", textsValue config.fileExtensions),
   ("max_file_size", countValue config.maxFileSize),
   ("respect_gitignore", .boolean config.respectGitignore),
   ("follow_links", .boolean config.followLinks)]

/-- The sections of a configuration file. -/
def sections (config : Config) : List (String × List (String × Value)) :=
  [("", config.entries),
   ("analysis", config.analysis.entries),
   ("analysis.weights", config.analysis.weights.entries),
   ("output", config.output.entries)]

/-- Whether a value can be written: integers have to fit in 64 bits with a sign. -/
def isWritable : Value → Bool
  | .integer n => decide (n ≤ 9223372036854775807)
  | _          => true

/-- The text of a configuration file, unless a count is too great for one. -/
def write (config : Config) : Option String :=
  if config.sections.all fun (_, entries) => entries.all fun (_, value) => isWritable value then
    some (Toml.writeSections config.sections)
  else none

end Config

end CodeSurvey
