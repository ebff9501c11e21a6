import CodeSurvey.Proofs.DeadCode.Confidence
import CodeSurvey.Proofs.DeadCode.Findings
import CodeSurvey.Proofs.Graph.Carrying
import CodeSurvey.Proofs.Index.Exports

/-!
# Uncertain uses dampen findings

A symbol that may be used where only run time can tell is never reported as surely dead.

* `dynamic_pos`: an uncertain reference counts as a dynamic use of every symbol that it may mean.
* `confidence_le_of_dynamic`: the score of a symbol with such a use is capped.
* `deadCode_dampens`: so a report has no such symbol among its findings of high confidence,
  whichever file the reference stands in and whatever else speaks against the symbol.
-/

namespace CodeSurvey

variable {files : List FileIndex} {weights : Weights}

/-! ### Uncertain references -/

/-- Only run time can confirm a use of a name in the source that an index is of. -/
def FileIndex.Uncertain (index : FileIndex) (r : Reference) : Prop :=
  ∃ file source nodes, Python.parse source = .ok nodes ∧ indexSource file source = .ok index ∧
    UncertainUse (definitionsOf file nodes) nodes r

theorem FileIndex.Indexed.uncertain_iff {index : FileIndex} (h : index.Indexed) {r : Reference} :
    r ∈ index.references ∧ r.resolution = .dynamicUncertain ↔ index.Uncertain r := by
  constructor
  · obtain ⟨file, source, nodes, parsed, rfl⟩ := h.exists_parse
    intro uncertain
    exact ⟨file, source, nodes, parsed, indexSource_of_parse parsed,
      mem_references_uncertain_iff.1 uncertain⟩
  · rintro ⟨file, source, nodes, parsed, indexed, uncertain⟩
    rw [indexSource_of_parse parsed] at indexed
    cases indexed
    exact mem_references_uncertain_iff.2 uncertain

/-! ### Symbols that are spared -/

/-- The symbols that a reference may mean: its target, or any symbol of its name if it has none. -/
def Reference.MayMean (r : Reference) (symbol : Symbol) : Prop :=
  r.target = some symbol.id ∨ r.target = none ∧ r.name = symbol.name

/-- The finding is one about a symbol. -/
structure Finding.Reports (finding : Finding) (symbol : Symbol) : Prop where
  file : finding.file = symbol.id.file
  name : finding.symbol = symbol.id.qualified
  kind : finding.kind = symbol.id.kind

/-- No finding of high confidence is about the symbol. -/
def DeadCodeReport.Spares (report : DeadCodeReport) (symbol : Symbol) : Prop :=
  ∀ finding ∈ report.inBucket .high, ¬ finding.Reports symbol

/-! ### Counts and scores -/

/-- **An uncertain reference is a dynamic use of every symbol that it may mean.** -/
theorem dynamic_pos {graph : ReferenceGraph} {r : Reference} (there : r ∈ graph.references)
    (uncertain : r.resolution = .dynamicUncertain) {symbol : Symbol} (own : symbol ∈ graph.symbols)
    (means : r.MayMean symbol) : 0 < (graph.usage symbol.id).dynamic := by
  have counts : 0 < r.dynamicUses graph.symbols symbol.id := by
    rw [Reference.dynamicUses, if_pos uncertain]
    rcases means with target | ⟨untargeted, name⟩
    · simp [target]
    · simp only [untargeted]
      exact List.countP_pos_iff.2 ⟨symbol, own, by simp [name]⟩
  rw [ReferenceGraph.usage, countUsage]
  exact List.sum_pos_iff_exists_pos_nat.2 ⟨_, List.mem_map_of_mem there, counts⟩

theorem confidence_le_of_dynamic {input : ScoreInput} {s : Score} (h : score input weights = some s)
    (dynamic : 0 < input.usage.dynamic) (cap : weights.dynamicCap ≤ 79) : s.confidence ≤ 79 := by
  rw [confidence_of_score h, ScoreInput.cappedPoints, if_pos dynamic, clampConfidence]
  omega

theorem le_of_high {confidence : Nat} (h : Bucket.ofConfidence confidence = some .high) :
    80 ≤ confidence := by
  rw [Bucket.ofConfidence] at h
  split at h
  · assumption
  · split at h
    · cases h
    · split at h <;> cases h

/-! ### Findings -/

/-- A finding is about the symbol that it is made for, and has the bucket of its score. -/
theorem findingOf_eq_some {threshold : Nat} {file : SourceFile} {symbol : Symbol} {s : Score}
    {finding : Finding} (h : findingOf threshold file symbol s = some finding) :
    finding.file = file.path ∧ finding.symbol = symbol.id.qualified ∧
      finding.kind = symbol.id.kind ∧ Bucket.ofConfidence s.confidence = some finding.bucket := by
  obtain ⟨bucket, eq, h⟩ := Option.bind_eq_some_iff.1 h
  split at h
  · cases h
  · cases h
    exact ⟨rfl, rfl, rfl, eq⟩

/-- **A symbol with a dynamic use is spared.** In a report on files that were indexed, a finding
about it is that of a symbol with its id, and so with its uses. -/
theorem spares_of_dynamic {threshold : Nat} {report : DeadCodeReport} {symbol : Symbol}
    (cap : weights.dynamicCap ≤ 79) (indexed : ∀ index ∈ files, index.Indexed)
    (h : deadCode threshold weights files (buildGraph files) = some report)
    (dynamic : 0 < ((buildGraph files).usage symbol.id).dynamic) : report.Spares symbol := by
  rintro finding there ⟨file, name, kind⟩
  obtain ⟨found, high⟩ := List.mem_filter.1 there
  obtain ⟨index, listed, reported, own, -, s, scored, made⟩ := (mem_findings_iff h).1 found
  obtain ⟨path, qualified, ofKind, bucket⟩ := findingOf_eq_some made
  have home := (indexed index listed).wellFormed.home reported own
  have same : reported.id = symbol.id :=
    calc reported.id
        = ⟨reported.id.file, reported.id.qualified, reported.id.kind⟩ := rfl
      _ = ⟨symbol.id.file, symbol.id.qualified, symbol.id.kind⟩ := by
          rw [home.trans (path.symm.trans file), ← qualified, name, ← ofKind, kind]
      _ = symbol.id := rfl
  rw [of_decide_eq_true high] at bucket
  have enough := le_of_high bucket
  have capped := confidence_le_of_dynamic scored (same ▸ dynamic) cap
  omega

/-- **Dynamic dampening.** If no score leaves its range and the cap is below the highest bucket,
then every symbol that an uncertain reference of the graph may mean is spared.

The uncertain references of the graph are the uncertain uses in the sources of its files: the names
that `__all__` lists, the imports that may not run, the names in strings and the attributes of
objects of which no class is known. So module-level symbols that `__all__` lists and conditional
imports are spared. -/
theorem deadCode_dampens (cap : weights.dynamicCap ≤ 79) (indexed : ∀ index ∈ files, index.Indexed)
    (inRange : ∀ index ∈ files, ∀ symbol ∈ index.symbols, isCandidate index.file symbol →
      (scoreIn files weights index symbol).isSome) (threshold : Nat) :
    ∃ report, deadCode threshold weights files (buildGraph files) = some report ∧
      (∀ r ∈ (buildGraph files).references, r.resolution = .dynamicUncertain →
        ∀ index ∈ files, ∀ symbol ∈ index.symbols, r.MayMean symbol → report.Spares symbol) ∧
      (∀ r, r ∈ (buildGraph files).references ∧ r.resolution = .dynamicUncertain ↔
        ∃ index ∈ files, index.Uncertain r) ∧
      (∀ index ∈ files, ∀ symbol ∈ index.symbols, symbol.isTopLevel →
        ∀ names, index.exports = some names → symbol.name ∈ names → report.Spares symbol) ∧
      ∀ index ∈ files, ∀ symbol ∈ index.symbols, symbol.id.kind = .imported →
        symbol.isConditional → report.Spares symbol := by
  obtain ⟨report, eq⟩ := Option.isSome_iff_exists.1 ((isSome_deadCode threshold).2 inRange)
  have spared : ∀ r ∈ (buildGraph files).references, r.resolution = .dynamicUncertain →
      ∀ index ∈ files, ∀ symbol ∈ index.symbols, r.MayMean symbol → report.Spares symbol := by
    intro r there uncertain index listed symbol own means
    have own : symbol ∈ (buildGraph files).symbols := List.mem_flatMap.2 ⟨index, listed, own⟩
    exact spares_of_dynamic cap indexed eq (dynamic_pos there uncertain own means)
  have inGraph : ∀ index ∈ files, ∀ r ∈ index.references, r.resolution = .dynamicUncertain →
      r ∈ (buildGraph files).references :=
    fun index listed r own uncertain =>
      (mem_linkReferences_uncertain_iff indexed uncertain).2 ⟨index, listed, own⟩
  refine ⟨report, eq, spared, fun r => ⟨?_, ?_⟩, ?_, ?_⟩
  · rintro ⟨there, uncertain⟩
    obtain ⟨index, listed, own⟩ := (mem_linkReferences_uncertain_iff indexed uncertain).1 there
    exact ⟨index, listed, (indexed index listed).uncertain_iff.1 ⟨own, uncertain⟩⟩
  · rintro ⟨index, listed, use⟩
    obtain ⟨own, uncertain⟩ := (indexed index listed).uncertain_iff.2 use
    exact ⟨inGraph index listed r own uncertain, uncertain⟩
  · intro index listed symbol own top names exports there
    obtain ⟨r, mem, uncertain, target⟩ :=
      exists_uncertain_of_listed (indexed index listed) exports own top there
    exact spared r (inGraph index listed r mem uncertain) uncertain index listed symbol own
      (.inl target)
  · intro index listed symbol own imported optional
    obtain ⟨r, mem, uncertain, target⟩ :=
      (indexed index listed).wellFormed.conditional symbol own imported optional
    exact spared r (inGraph index listed r mem uncertain) uncertain index listed symbol own
      (.inl target)

/-- Three functions that nothing calls: `__all__` lists the first, a string in another file names
the second, and only the third is surely dead. -/
theorem deadCode_dampens_named : ∃ a b report,
    indexSource (rootModule "a.py" false)
        "__all__ = [\"f\"]\ndef f(): pass\ndef g(): pass\ndef h(): pass\n" = .ok a ∧
      indexSource (rootModule "b.py" false) "getattr(x, \"g\")\n" = .ok b ∧
      deadCode 20 { exported := 0, dynamic := 0 } [a, b] (buildGraph [a, b]) = some report ∧
      (∃ finding ∈ report.inBucket .high, finding.symbol = "h") ∧
      (∃ r ∈ (buildGraph [a, b]).references, r.resolution = .dynamicUncertain ∧ r.target = none ∧
        r.name = "g") ∧
      ∀ symbol ∈ a.symbols, symbol.name = "f" ∨ symbol.name = "g" → report.Spares symbol := by
  have read : ∃ a b,
      indexSource (rootModule "a.py" false)
          "__all__ = [\"f\"]\ndef f(): pass\ndef g(): pass\ndef h(): pass\n" = .ok a ∧
        indexSource (rootModule "b.py" false) "getattr(x, \"g\")\n" = .ok b ∧
        (∀ index ∈ [a, b], ∀ symbol ∈ index.symbols, isCandidate index.file symbol →
          (scoreIn [a, b] { exported := 0, dynamic := 0 } index symbol).isSome) ∧
        (∃ symbol ∈ a.symbols, isCandidate a.file symbol ∧
          ((scoreIn [a, b] { exported := 0, dynamic := 0 } a symbol).bind
            (findingOf 20 a.file symbol)).any
              fun finding => finding.bucket = .high ∧ finding.symbol = "h") ∧
        (∃ r ∈ (buildGraph [a, b]).references, r.resolution = .dynamicUncertain ∧ r.target = none ∧
          r.name = "g") ∧
        a.exports = some ["f"] ∧ ∀ symbol ∈ a.symbols, symbol.isTopLevel :=
    ⟨_, _, rfl, rfl, by decide +kernel⟩
  obtain ⟨a, b, indexedA, indexedB, inRange, ⟨dead, defined, candidate, surely⟩,
    ⟨r, there, uncertain, untargeted, name⟩, exports, top⟩ := read
  have indexed : ∀ index ∈ [a, b], index.Indexed := by
    rw [List.forall_mem_cons, List.forall_mem_singleton]
    exact ⟨⟨_, _, indexedA⟩, ⟨_, _, indexedB⟩⟩
  have inFiles : a ∈ [a, b] := List.mem_cons_self
  obtain ⟨report, eq, spared, -, listed, -⟩ := deadCode_dampens (by decide) indexed inRange 20
  refine ⟨a, b, report, indexedA, indexedB, eq, ?_, ⟨r, there, uncertain, untargeted, name⟩,
    fun symbol own named => ?_⟩
  · obtain ⟨finding, made, surely⟩ := (Option.any_eq_true _ _).1 surely
    obtain ⟨s, scored, made⟩ := Option.bind_eq_some_iff.1 made
    obtain ⟨high, name⟩ := of_decide_eq_true surely
    have found := (mem_findings_iff eq).2 ⟨a, inFiles, dead, defined, candidate, s, scored, made⟩
    exact ⟨finding, List.mem_filter.2 ⟨found, decide_eq_true high⟩, name⟩
  · rcases named with f | g
    · exact listed a inFiles symbol own (top symbol own) ["f"] exports (by simp [f])
    · exact spared r there uncertain a inFiles symbol own (.inr ⟨untargeted, name.trans g.symm⟩)

end CodeSurvey
