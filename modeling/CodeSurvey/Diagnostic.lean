import CodeSurvey.Order
import CodeSurvey.Path

/-!
# Diagnostics

What can go wrong during a survey, and the line it leaves in the diagnostics.

* `Failure` is a cause. None of them stops a survey: each becomes a `Diagnostic`.
* `Diagnostic.order` sorts by file, then kind, then reason; `Diagnostic.settle` sorts and removes
  repetitions.
-/

namespace CodeSurvey

/-- The kinds of diagnostic, in their order. -/
inductive DiagnosticKind where
  | parseError
  | ioError
  | linkCycle
  | importCycle
  | skippedFile
  | ambiguousConflict
  | budgetExceeded
  | scanTimeout
  | config
deriving DecidableEq

namespace DiagnosticKind

/-- The place of a kind in the order of kinds. -/
def rank : DiagnosticKind → Nat
  | parseError        => 0
  | ioError           => 1
  | linkCycle         => 2
  | importCycle       => 3
  | skippedFile       => 4
  | ambiguousConflict => 5
  | budgetExceeded    => 6
  | scanTimeout       => 7
  | config            => 8

/-- The name of a kind in a diagnostic's line. -/
def label : DiagnosticKind → String
  | parseError        => "parse-error"
  | ioError           => "io-error"
  | linkCycle         => "link-cycle"
  | importCycle       => "import-cycle"
  | skippedFile       => "skipped-file"
  | ambiguousConflict => "ambiguous-conflict"
  | budgetExceeded    => "budget-exceeded"
  | scanTimeout       => "scan-timeout"
  | config            => "config"

/-- The name of a kind in structured output. -/
def key : DiagnosticKind → String
  | parseError        => "parse_error"
  | ioError           => "io_error"
  | linkCycle         => "link_cycle"
  | importCycle       => "import_cycle"
  | skippedFile       => "skipped_file"
  | ambiguousConflict => "ambiguous_conflict"
  | budgetExceeded    => "budget_exceeded"
  | scanTimeout       => "scan_timeout"
  | config            => "config"

end DiagnosticKind

/-! ### Failures -/

/-- What went wrong. Paths are spelled as they were met. -/
inductive Failure where
  | parse (path reason : String)
  | io (path reason : String)
  | linkCycle (path ancestor : String)
  | ambiguous (key : String) (members : List String)
  | budget (limit actual : Nat)
  | timeout (elapsed pending : Nat)
  | config (reason : String)
deriving DecidableEq

namespace Failure

/-- The kind of diagnostic a failure becomes. -/
def kind : Failure → DiagnosticKind
  | parse ..     => .parseError
  | io ..        => .ioError
  | linkCycle .. => .linkCycle
  | ambiguous .. => .ambiguousConflict
  | budget ..    => .budgetExceeded
  | timeout ..   => .scanTimeout
  | config ..    => .config

/-- The path a failure is about. -/
def subject : Failure → String
  | parse path _     => path
  | io path _        => path
  | linkCycle path _ => path
  | ambiguous key _  => key
  | budget ..        => "PROJECT.llm"
  | timeout ..       => "."
  | config ..        => "."

/-- The text of a failure. -/
def message : Failure → String
  | parse _ reason          => s!"parse error: {reason}"
  | io _ reason             => s!"io error: {reason}"
  | linkCycle _ ancestor    => s!"symlink cycle back to {ancestor}"
  | ambiguous key members   =>
    s!"{members.length} names normalize to '{key}': " ++ String.intercalate ", " members
  | budget limit actual     => s!"output needs {actual} chars but the budget is {limit}"
  | timeout elapsed pending =>
    s!"scan timed out after {elapsed}ms with {pending} files not indexed"
  | config reason           => s!"invalid configuration: {reason}"

end Failure

/-! ### Diagnostics -/

/-- One line of the diagnostics: a file as it is spelled, what kind of trouble, and why. -/
structure Diagnostic where
  file   : String
  kind   : DiagnosticKind
  reason : String
deriving DecidableEq

namespace Diagnostic

/-- The diagnostic of a failure. -/
def ofFailure (failure : Failure) : Diagnostic :=
  ⟨failure.subject, failure.kind, failure.message⟩

/-- The diagnostic of a file left out. -/
def skipped (file reason : String) : Diagnostic :=
  ⟨file, .skippedFile, reason⟩

/-- The diagnostic of an import cycle, on the first of its modules. -/
def importCycle (modules : List String) : Diagnostic :=
  { file   := modules.headD ""
    kind   := .importCycle
    reason := "import cycle: " ++
      String.intercalate " -> " (modules.map fun path => (Path.ofText path).slash) }

/-- The line of a diagnostic. -/
def text (d : Diagnostic) : String :=
  s!"{d.file} [{d.kind.label}] {d.reason}"

/-- The diagnostic with its file seen from `root`. -/
def relativeTo (root : String) (d : Diagnostic) : Diagnostic :=
  match Path.strip root d.file with
  | none      => d
  | some ""   => { d with file := "." }
  | some rest => { d with file := rest }

/-- The order of diagnostics: file, then kind, then reason. -/
def order (a b : Diagnostic) : Ordering :=
  ((Path.ofText a.file).order (Path.ofText b.file)).then
    ((compare a.kind.rank b.kind.rank).then (compare a.reason b.reason))

/-- Diagnostics in order, each once. -/
def settle (diagnostics : List Diagnostic) : List Diagnostic :=
  sortedSet order diagnostics

end Diagnostic

end CodeSurvey
