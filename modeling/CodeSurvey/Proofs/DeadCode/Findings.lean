import CodeSurvey.DeadCode.Report
import CodeSurvey.Proofs.Entries
import CodeSurvey.Proofs.Order
import Mathlib.Data.List.ReduceOption

/-!
# Findings are those of scored symbols

* `isSome_deadCode`: there is a report exactly if no score leaves its range.
* `mem_findings_iff`: its findings are those of the symbols that may be reported and whose scores
  reach the threshold.
-/

namespace CodeSurvey

variable {threshold : Nat} {weights : Weights} {files : List FileIndex} {graph : ReferenceGraph}

/-- **There is a report exactly if every symbol that may be reported has a score.** -/
theorem isSome_deadCode (threshold : Nat) : (deadCode threshold weights files graph).isSome ↔
    ∀ index ∈ files, ∀ symbol ∈ index.symbols, isCandidate index.file symbol →
      (score (.ofSymbol symbol (graph.usage symbol.id) index.file.isTest) weights).isSome := by
  simp only [deadCode, findingsIn, Option.isSome_map, isSome_mapM, List.mem_filter, and_imp]

theorem mem_findingsIn_iff {index : FileIndex} {findings : List Finding}
    (h : findingsIn threshold weights graph index = some findings) {finding : Finding} :
    finding ∈ findings ↔ ∃ symbol ∈ index.symbols, isCandidate index.file symbol ∧
      ∃ s, score (.ofSymbol symbol (graph.usage symbol.id) index.file.isTest) weights = some s ∧
        findingOf threshold index.file symbol s = some finding := by
  obtain ⟨results, all, rfl⟩ := Option.map_eq_some_iff.1 h
  simp only [List.reduceOption_mem_iff, mem_mapM_iff all, List.mem_filter, Option.map_eq_some_iff,
    and_assoc]

/-- **The findings are those of the symbols that may be reported**, by their scores. -/
theorem mem_findings_iff {report : DeadCodeReport}
    (h : deadCode threshold weights files graph = some report) {finding : Finding} :
    finding ∈ report.findings ↔
      ∃ index ∈ files, ∃ symbol ∈ index.symbols, isCandidate index.file symbol ∧
        ∃ s, score (.ofSymbol symbol (graph.usage symbol.id) index.file.isTest) weights = some s ∧
          findingOf threshold index.file symbol s = some finding := by
  obtain ⟨lists, all, rfl⟩ := Option.map_eq_some_iff.1 h
  simp only [DeadCodeReport.of, mem_sortBy, List.mem_flatten, mem_mapM_iff all]
  constructor
  · rintro ⟨findings, ⟨index, listed, eq⟩, there⟩
    exact ⟨index, listed, (mem_findingsIn_iff eq).1 there⟩
  · rintro ⟨index, listed, found⟩
    have each : ∀ index ∈ files, (findingsIn threshold weights graph index).isSome :=
      isSome_mapM.1 (by rw [all]; rfl)
    obtain ⟨findings, eq⟩ := Option.isSome_iff_exists.1 (each index listed)
    exact ⟨findings, ⟨index, listed, eq⟩, (mem_findingsIn_iff eq).2 found⟩

end CodeSurvey
