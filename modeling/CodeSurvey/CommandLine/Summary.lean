import CodeSurvey.Report

/-!
# The summary of a survey

A survey in some lines for people to read.
-/

namespace CodeSurvey

/-- A graph in numbers, as lines. -/
def ReferenceGraph.Analysis.summary (analysis : ReferenceGraph.Analysis) : List String :=
  ["Dependency Graph Analysis:",
   s!"  Modules: {analysis.totalModules}",
   s!"  Import edges: {analysis.totalEdges}",
   s!"  External modules: {analysis.externalModules}",
   "  Average degree: " ++ analysis.averageDegree.fixed 2,
   s!"  References: {analysis.totalReferences} ({analysis.resolvedReferences} resolved)",
   s!"  Import cycles: {analysis.cycles}"] ++
  if analysis.mostImported.isEmpty then []
  else "  Most imported:" :: analysis.mostImported.map fun (name, n) => s!"    {name}: {n}"

namespace ProjectModel

variable (model : ProjectModel)

/-- The lines about the files. -/
def fileSummary : List String :=
  let stats := model.stats
  ["📁 Files:",
   s!"  Discovered: {stats.discoveredFiles}",
   s!"  Indexed: {stats.indexedFiles} ({stats.cachedFiles} from cache)",
   s!"  Failed: {stats.failedFiles}",
   s!"  Test files: {stats.testFiles}",
   s!"  Lines: {stats.totalLines}"] ++
  if model.isIncomplete then [s!"  ⚠️  Incomplete: {stats.skippedFiles} files were not indexed"]
  else []

/-- The lines about the dead code. -/
def deadCodeSummary : List String :=
  let summary := model.deadCode.summary
  ["🧹 Dead code:",
   s!"  High: {summary.high}  Medium: {summary.medium}  Low: {summary.low}",
   s!"  Test-only: {summary.testOnly}  Empty files: {summary.emptyFiles}"]

/-- The lines about what went wrong, if anything did. -/
def diagnosticSummary : List String :=
  if model.diagnostics.isEmpty then []
  else "" :: s!"⚠️  Diagnostics ({model.diagnostics.length}):" ::
    model.diagnostics.map fun d => "  " ++ d.text

/-- A survey as lines. -/
def summary : List String :=
  [s!"📊 Project Scan Summary: {model.name}", "==========================", ""] ++
    model.fileSummary ++
    ["", "🔗 Dependencies:"] ++
    model.graph.analysis.summary ++
    ["", s!"🔀 Conflicts: {model.conflicts.length}"] ++
    model.conflicts.map (fun c => s!"  [{c.severity.label}] {c.issue}") ++
    [""] ++ model.deadCodeSummary ++
    model.diagnosticSummary

end ProjectModel

end CodeSurvey
