/-!
# The configuration template

The text of a configuration file with every option and its default, explained.
-/

namespace CodeSurvey

/-- The lines of the template. -/
def templateLines : List String :=
  ["# context-scan configuration",
   "# Place this file at the root of the scanned project as .context-scan.toml",
   "",
   "# Exclusion globs. Patterns without '/' match a single path component at any",
   "# depth (so \"venv\" prunes nested virtual environments too); patterns with '/'",
   "# match the root-relative path. Directories holding a pyvenv.cfg are always",
   "# skipped.",
   "exclude_patterns = [",
   "    \"venv\", \".venv\", \"env\", \"ENV\", \".env\", \"site-packages\",",
   "    \"__pycache__\", \"*.py[cod]\",",
   "    \"build\", \"dist\", \"*.egg-info\", \".eggs\",",
   "    \".mypy_cache\", \".pytest_cache\", \".ruff_cache\", \".cache\", \".ipynb_checkpoints\",",
   "    \".tox\", \".nox\", \".coverage\", \"htmlcov\", \".nyc_output\",",
   "    \".idea\", \".vscode\", \".fleet\", \".DS_Store\",",
   "    \".git\", \".svn\", \".hg\",",
   "    \"node_modules\", \"vendor\",",
   "    \".claude\", \".next\", \".nuxt\", \"tmp\", \"temp\", \"target\",",
   "    \"*.log\", \"*.bak\", \"*.swp\", \"*~\",",
   "]",
   "",
   "# Extensions handed to the indexer (only Python is understood)",
   "file_extensions = [\"py\"]",
   "",
   "# Files above this size (bytes) are skipped with a diagnostic",
   "max_file_size = 1048576",
   "",
   "# Honour the root .gitignore",
   "respect_gitignore = true",
   "",
   "# Follow symlinks (cycles are detected and reported)",
   "follow_links = true",
   "",
   "[analysis]",
   "# Minimum dead-code confidence to report (0-100).",
   "# Buckets: high >= 80, medium >= 60, low >= 20.",
   "confidence_threshold = 20",
   "",
   "# Global scan budget in milliseconds; the result is marked incomplete on expiry",
   "# scan_timeout_ms = 30000",
   "",
   "# Indexer worker threads (defaults to the number of CPU cores)",
   "# threads = 4",
   "",
   "# Test file detection",
   "test_file_patterns = [\"test_*.py\", \"*_test.py\", \"conftest.py\"]",
   "test_directories = [\"tests\", \"test\", \"testing\"]",
   "",
   "# Dead-code score adjustments. Only the bucket bounds are fixed, so these can",
   "# be tuned; any key left out keeps its default.",
   "# [analysis.weights]",
   "# base_import = 75",
   "# base_function = 70",
   "# base_variable = 65",
   "# base_class = 60",
   "# unused = 25",
   "# private_unused = 10",
   "# per_self_reference = 8",
   "# per_import_use = 60",
   "# per_cross_reference = 25",
   "# exported = 25",
   "# test_only = 8",
   "# decorated = 20",
   "# conditional_import = 30",
   "# dynamic = 15",
   "# dynamic_cap = 79",
   "",
   "[output]",
   "# Size budget of PROJECT.llm; lowest-centrality modules are dropped first",
   "budget = 2000",
   "# \"tokens\" (4 chars each) or \"chars\"",
   "budget_unit = \"tokens\"",
   "# Size budget of each per-module CONTEXT.llm section",
   "module_budget = 1000",
   "# Number of dependency chains listed under @critical_paths",
   "critical_paths = 3"]

/-- A configuration file that sets every option to its default and says what it does. -/
def configTemplate : String :=
  String.join (templateLines.map (· ++ "\n"))

end CodeSurvey
