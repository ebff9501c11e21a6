import CodeSurvey.Proofs.DeadCode.Findings
import CodeSurvey.Proofs.Index.WellFormed
import Mathlib.Order.MinMax

/-!
# Thresholds afterwards

A report can be made for a threshold, or be made for a lower one and lose the findings below it
afterwards. The first leaves findings out before they are sorted, the second when they are.

* `findingOf_max`: a higher threshold drops the findings that do not reach it.
* `deadCode_max`: the report for it is the filtered one.
* `reaches_deadCode`: the findings of a report reach its threshold, and are counted by their
  buckets.
* `deadCode_filtered`: both at once, where no score leaves its range.
-/

namespace CodeSurvey

open Std (TransCmp OrientedCmp)

variable {threshold : Nat} {weights : Weights} {files : List FileIndex} {graph : ReferenceGraph}

/-! ### Raising the threshold -/

instance : TransCmp Finding.order := by
  have files : TransCmp fun a b : Finding => a.file.order b.file :=
    { eq_swap := OrientedCmp.eq_swap
      isLE_trans := TransCmp.isLE_trans }
  have lines : TransCmp fun a b : Finding => compare a.line b.line :=
    inferInstanceAs (TransCmp (compareOn Finding.line))
  have symbols : TransCmp fun a b : Finding => compare a.symbol b.symbol :=
    inferInstanceAs (TransCmp (compareOn Finding.symbol))
  exact inferInstanceAs (TransCmp (compareLex (fun a b : Finding => a.file.order b.file)
    (compareLex (fun a b => compare a.line b.line) fun a b => compare a.symbol b.symbol)))

/-- A higher threshold drops the findings that do not reach it. -/
theorem findingOf_max (threshold least : Nat) (file : SourceFile) (symbol : Symbol) :
    findingOf (max threshold least) file symbol =
      Option.filter (fun f => decide (least ≤ f.confidence)) ∘ findingOf threshold file symbol := by
  funext s
  rw [Function.comp_apply, findingOf, findingOf]
  cases Bucket.ofConfidence s.confidence with
  | none => rfl
  | some bucket =>
      simp only [Option.bind_some, lt_max_iff]
      by_cases low : s.confidence < threshold
      · simp [low]
      · by_cases less : s.confidence < least
        · simp [low, less, Option.filter]
        · simp [low, less, Option.filter, Nat.not_lt.1 less]

theorem findingsIn_max (threshold least : Nat) (index : FileIndex) :
    findingsIn (max threshold least) weights graph index =
      (findingsIn threshold weights graph index).map
        (List.filter fun f => decide (least ≤ f.confidence)) := by
  simp only [findingsIn, findingOf_max, ← Option.map_map]
  rw [mapM_map, Option.map_map, Option.map_map]
  congr 1
  funext results
  simp only [Function.comp_apply, List.reduceOption, List.filterMap_map, List.filter_filterMap]
  rfl

/-- **Filtering a report is making it for a higher threshold.** -/
theorem deadCode_max (threshold least : Nat) :
    deadCode (max threshold least) weights files graph =
      (deadCode threshold weights files graph).map (·.filtered least) := by
  have each : findingsIn (max threshold least) weights graph =
      fun index => (findingsIn threshold weights graph index).map
        (List.filter fun f => decide (least ≤ f.confidence)) :=
    funext fun index => findingsIn_max threshold least index
  rw [deadCode, deadCode, each, mapM_map, Option.map_map, Option.map_map]
  congr 1
  funext findings
  -- the order has equal findings, and sorting keeps these as they come
  simp only [Function.comp_apply, DeadCodeReport.filtered, DeadCodeReport.of]
  rw [← List.filter_flatten, sortBy_filter]

/-! ### What a report holds -/

/-- Every finding is in one of the buckets. -/
theorem summarize_total (findings : List Finding) (emptyFiles : Nat) :
    (summarize findings emptyFiles).high + (summarize findings emptyFiles).medium +
      (summarize findings emptyFiles).low = findings.length := by
  simp only [summarize]
  induction findings with
  | nil => rfl
  | cons finding rest ih =>
      rw [List.length_cons, ← ih]
      cases bucket : finding.bucket <;> simp [bucket] <;> omega

/-- Reports whose findings are in the buckets of their confidence, which reaches the threshold and
the least that is reported, and are counted by their buckets. -/
structure DeadCodeReport.Reaches (report : DeadCodeReport) (threshold : Nat) : Prop where
  bucket  : ∀ finding ∈ report.findings,
    Bucket.ofConfidence finding.confidence = some finding.bucket
  reached : ∀ finding ∈ report.findings, max 20 threshold ≤ finding.confidence
  counted : report.summary.high + report.summary.medium + report.summary.low =
    report.findings.length

theorem of_findingOf {file : SourceFile} {symbol : Symbol} {s : Score} {finding : Finding}
    (h : findingOf threshold file symbol s = some finding) :
    Bucket.ofConfidence finding.confidence = some finding.bucket ∧
      threshold ≤ finding.confidence := by
  obtain ⟨bucket, same, h⟩ := Option.bind_eq_some_iff.1 h
  split at h
  · cases h
  · rename_i reached
    cases h
    exact ⟨same, Nat.not_lt.1 reached⟩

theorem Bucket.le_of_ofConfidence {confidence : Nat} {bucket : Bucket}
    (h : ofConfidence confidence = some bucket) : 20 ≤ confidence := by
  rw [ofConfidence] at h
  split at h
  · omega
  · split at h
    · omega
    · split at h
      · assumption
      · cases h

/-- **The findings of a report reach its threshold**, and the least confidence that has a bucket. -/
theorem reaches_deadCode {report : DeadCodeReport}
    (h : deadCode threshold weights files graph = some report) : report.Reaches threshold := by
  have each : ∀ finding ∈ report.findings,
      Bucket.ofConfidence finding.confidence = some finding.bucket ∧
        threshold ≤ finding.confidence := by
    intro finding listed
    obtain ⟨_, _, _, _, _, _, _, made⟩ := (mem_findings_iff h).1 listed
    exact of_findingOf made
  refine ⟨fun finding listed => (each finding listed).1, fun finding listed => ?_, ?_⟩
  · obtain ⟨bucket, reached⟩ := each finding listed
    exact max_le (Bucket.le_of_ofConfidence bucket) reached
  · obtain ⟨_, _, rfl⟩ := Option.map_eq_some_iff.1 h
    exact summarize_total ..

/-- **A report that is filtered afterwards is the one for the higher threshold**: the same findings
in the same order, the same empty modules and the same numbers. In both, every finding is in the
bucket of its confidence, which reaches the threshold, and the buckets add up. -/
theorem deadCode_filtered (threshold least : Nat)
    (inRange : ∀ index ∈ files, ∀ symbol ∈ index.symbols, isCandidate index.file symbol →
      (score (.ofSymbol symbol (graph.usage symbol.id) index.file.isTest) weights).isSome) :
    ∃ report, deadCode threshold weights files graph = some report ∧
      deadCode (max threshold least) weights files graph = some (report.filtered least) ∧
      report.Reaches threshold ∧ (report.filtered least).Reaches (max threshold least) := by
  obtain ⟨report, made⟩ := Option.isSome_iff_exists.1 ((isSome_deadCode threshold).2 inRange)
  have raised : deadCode (max threshold least) weights files graph =
      some (report.filtered least) := by
    rw [deadCode_max, made, Option.map_some]
  exact ⟨report, made, raised, reaches_deadCode made, reaches_deadCode raised⟩

/-- A function that its own file calls twice is reported at one threshold, and not at a higher
one. -/
theorem deadCode_filtered_called : ∃ index report,
    indexSource (rootModule "a.py" false) "def f(): pass\nf()\nf()\n" = .ok index ∧
      deadCode 30 {} [index] (buildGraph [index]) = some report ∧
      (∃ finding ∈ report.findings, finding.symbol = "f" ∧ finding.confidence = 54) ∧
      deadCode 80 {} [index] (buildGraph [index]) = some (report.filtered 80) ∧
      (report.filtered 80).Reaches 80 := by
  have read : ∃ index symbol s finding,
      indexSource (rootModule "a.py" false) "def f(): pass\nf()\nf()\n" = .ok index ∧
      (∀ file ∈ [index], ∀ symbol ∈ file.symbols, isCandidate file.file symbol →
        (score (.ofSymbol symbol ((buildGraph [index]).usage symbol.id)
          file.file.isTest) {}).isSome) ∧
      symbol ∈ index.symbols ∧ isCandidate index.file symbol ∧
      score (.ofSymbol symbol ((buildGraph [index]).usage symbol.id) index.file.isTest) {} =
        some s ∧
      findingOf 30 index.file symbol s = some finding ∧
      finding.symbol = "f" ∧ finding.confidence = 54 :=
    ⟨_, _, _, _, rfl, by decide, List.mem_cons_self, by decide, rfl, rfl,
      by decide⟩
  obtain ⟨index, symbol, s, finding, indexed, inRange, own, candidate, scored, made, found⟩ := read
  obtain ⟨report, first, raised, -, reaches⟩ := deadCode_filtered 30 80 inRange
  have listed := (mem_findings_iff first).2
    ⟨index, List.mem_cons_self, symbol, own, candidate, s, scored, made⟩
  exact ⟨index, report, indexed, first, ⟨finding, listed, found⟩, raised, reaches⟩

end CodeSurvey
