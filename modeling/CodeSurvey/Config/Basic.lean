import CodeSurvey.Diagnostic
import CodeSurvey.DeadCode.Score

/-!
# Configuration

What a survey can be told, and the defaults.

* `Config` has a part for the analysis and one for the documents.
* `Config.invalid` says what is wrong with values that no survey can run with.
-/

namespace CodeSurvey

/-- The unit of the size budgets. -/
inductive BudgetUnit where
  | chars
  | tokens
deriving DecidableEq

namespace BudgetUnit

/-- The name of a unit. -/
def label : BudgetUnit → String
  | chars  => "chars"
  | tokens => "tokens"

/-- An amount in characters: a token counts for four, up to the greatest count. -/
def toChars (unit : BudgetUnit) (amount : Nat) : Nat :=
  match unit with
  | chars  => amount
  | tokens => min (amount * 4) greatestCount

end BudgetUnit

/-- What the analysis can be told. -/
structure AnalysisConfig where
  confidenceThreshold : Nat := 20
  scanTimeout         : Option Nat := none
  threads             : Option Nat := none
  testFilePatterns    : List String := ["test_*.py", "*_test.py", "conftest.py"]
  testDirectories     : List String := ["tests", "test", "testing"]
  weights             : Weights := {}
deriving DecidableEq

/-- What the documents can be told. -/
structure OutputConfig where
  budget        : Nat := 2000
  budgetUnit    : BudgetUnit := .tokens
  moduleBudget  : Nat := 1000
  criticalPaths : Nat := 3
deriving DecidableEq

namespace OutputConfig

/-- The greatest size of the project document, in characters. -/
def aggregateLimit (output : OutputConfig) : Nat :=
  output.budgetUnit.toChars output.budget

/-- The greatest size of a module's section, in characters. -/
def moduleLimit (output : OutputConfig) : Nat :=
  output.budgetUnit.toChars output.moduleBudget

end OutputConfig

/-- The names that discovery passes over unless told otherwise. -/
def defaultExcludes : List String :=
  ["venv", ".venv", "env", "ENV", ".env", "site-packages",
   "__pycache__", "*.py[cod]",
   "build", "dist", "*.egg-info", ".eggs",
   ".mypy_cache", ".pytest_cache", ".ruff_cache", ".cache", ".ipynb_checkpoints",
   ".tox", ".nox", ".coverage", "htmlcov", ".nyc_output",
   ".idea", ".vscode", ".fleet", ".DS_Store",
   ".git", ".svn", ".hg",
   "node_modules", "vendor",
   ".claude", ".next", ".nuxt", "tmp", "temp", "target",
   "*.log", "*.bak", "*.swp", "*~"]

/-- What a survey can be told. -/
structure Config where
  targetDirectory  : String := "."
  excludePatterns  : List String := defaultExcludes
  fileExtensions   : List String := ["py"]
  maxFileSize      : Nat := 1048576
  respectGitignore : Bool := true
  followLinks      : Bool := true
  analysis         : AnalysisConfig := {}
  output           : OutputConfig := {}
deriving DecidableEq

/-- The name of the configuration file in a project's root. -/
def configFileName : String := ".context-scan.toml"

namespace Config

/-- What is wrong with the configuration, if anything is. -/
def invalid (config : Config) : Option Failure :=
  if 100 < config.analysis.confidenceThreshold then
    some (.config
      s!"confidence_threshold must be within 0-100, got {config.analysis.confidenceThreshold}")
  else if config.analysis.threads = some 0 then some (.config "threads must be at least 1")
  else if config.output.budget = 0 then some (.config "output budget must be positive")
  else none

end Config

end CodeSurvey
