import CodeSurvey.Document.Exports
import CodeSurvey.Json
import CodeSurvey.Scan

/-!
# The report

All of a survey as one record, for other programs to read.

* `report` is the record, and `exportReport` its text.
-/

namespace CodeSurvey

/-- The version of the format and of the program. -/
def programVersion : String := "0.1.0"

/-- Paths as texts. -/
def pathTexts (paths : List Path) : Json :=
  .texts (paths.map Path.text)

/-- A survey in numbers. -/
def ScanStats.toJson (stats : ScanStats) : Json :=
  .record
    [("discovered_files", .count stats.discoveredFiles),
     ("indexed_files", .count stats.indexedFiles),
     ("cached_files", .count stats.cachedFiles),
     ("failed_files", .count stats.failedFiles),
     ("skipped_files", .count stats.skippedFiles),
     ("test_files", .count stats.testFiles),
     ("total_size", .count stats.totalSize),
     ("total_lines", .count stats.totalLines),
     ("total_symbols", .count stats.totalSymbols),
     ("total_references", .count stats.totalReferences),
     ("languages", .record (stats.languages.map fun (name, n) => (name, .count n)))]

namespace ReferenceGraph.Analysis

/-- The average number of modules that a module imports. -/
def averageDegree (analysis : Analysis) : Double :=
  .ofRatio analysis.totalEdges analysis.totalModules

/-- A graph in numbers. -/
def toJson (analysis : Analysis) : Json :=
  .record
    [("total_modules", .count analysis.totalModules),
     ("total_edges", .count analysis.totalEdges),
     ("external_modules", .count analysis.externalModules),
     ("total_references", .count analysis.totalReferences),
     ("resolved_references", .count analysis.resolvedReferences),
     ("cycles", .count analysis.cycles),
     ("most_imported", .array (analysis.mostImported.map fun (name, n) =>
       .array [.text name, .count n])),
     ("avg_degree", .decimal analysis.averageDegree)]

end ReferenceGraph.Analysis

/-- A module with its neighbours. -/
def moduleReport (graph : ReferenceGraph) (index : FileIndex) : Json :=
  let path := index.path
  .record
    [("path", .text path.text),
     ("module_name", .text index.moduleName),
     ("is_test", .boolean index.file.isTest),
     ("lines", .count index.lineCount),
     ("symbols", .count index.symbols.length),
     ("exports", .texts (exportNames index)),
     ("dependencies", pathTexts ((graph.dependencies path).map ModuleNode.file)),
     ("dependents", pathTexts ((graph.dependents path).map ModuleNode.file)),
     ("external_imports", .texts ((graph.external.lookup path).getD []))]

/-- A member of a conflict. -/
def ConflictMember.toJson (member : ConflictMember) : Json :=
  .record
    [("name", .text member.name),
     ("paths", .texts member.paths),
     ("file_count", .count member.fileCount),
     ("inbound", .count member.inbound),
     ("non_empty", .boolean member.nonEmpty)]

/-- A conflict. -/
def Conflict.toJson (conflict : Conflict) : Json :=
  .record
    [("key", .text conflict.key),
     ("members", .array (conflict.members.map ConflictMember.toJson)),
     ("suggested_primary", .ofOption .text conflict.suggestedPrimary),
     ("severity", .text conflict.severity.label),
     ("ambiguous", .boolean conflict.isAmbiguous),
     ("issue", .text conflict.issue)]

/-- A finding. -/
def Finding.toJson (finding : Finding) : Json :=
  .record
    [("file", .text finding.file.text),
     ("symbol", .text finding.symbol),
     ("kind", .text finding.kind.label),
     ("line", .count finding.line),
     ("confidence", .count finding.confidence),
     ("bucket", .text finding.bucket.label),
     ("evidence", .texts finding.evidence),
     ("test_only", .boolean finding.testOnly)]

/-- The dead code report. -/
def DeadCodeReport.toJson (dead : DeadCodeReport) : Json :=
  let summary := dead.summary
  .record
    [("findings", .array (dead.findings.map Finding.toJson)),
     ("empty_files", pathTexts dead.emptyFiles),
     ("summary", .record
       [("high", .count summary.high),
        ("medium", .count summary.medium),
        ("low", .count summary.low),
        ("test_only", .count summary.testOnly),
        ("empty_files", .count summary.emptyFiles)])]

/-- A diagnostic. -/
def Diagnostic.toJson (diagnostic : Diagnostic) : Json :=
  .record
    [("file", .text diagnostic.file),
     ("kind", .text diagnostic.kind.key),
     ("reason", .text diagnostic.reason)]

/-- All of a survey, with a dead code report that may be a part of the survey's. -/
def reportWith (model : ProjectModel) (output : OutputConfig) (dead : DeadCodeReport) : Json :=
  let graph := model.graph
  .record
    [("project_name", .text model.name),
     ("version", .text programVersion),
     ("incomplete", .boolean model.isIncomplete),
     ("stats", model.stats.toJson),
     ("dependency_analysis", graph.analysis.toJson),
     ("modules", .array (model.files.map (moduleReport graph))),
     ("conflicts", .array (model.conflicts.map Conflict.toJson)),
     ("cycles", .array (graph.cycles.map pathTexts)),
     ("critical_paths", .array ((graph.criticalPaths output.criticalPaths).map pathTexts)),
     ("dead_code", dead.toJson),
     ("diagnostics", .array (model.diagnostics.map Diagnostic.toJson))]

/-- All of a survey. -/
def report (model : ProjectModel) (output : OutputConfig) : Json :=
  reportWith model output model.deadCode

/-- All of a survey as a text. -/
def exportReport (model : ProjectModel) (output : OutputConfig) : String :=
  (report model output).pretty

end CodeSurvey
