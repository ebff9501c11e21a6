import CodeSurvey.Conflict
import CodeSurvey.Proofs.Entries
import CodeSurvey.Proofs.Graph.Carrying
import Mathlib

/-!
# Counts of uses agree

A resolved reference is counted for its target, for the file of its target and in the analysis of
the graph. In a project every resolved reference has a target, and no two symbols have one id, so
these counts agree.

* `sum_uses`: counting the uses of each symbol, and adding up, counts every use.
* `nodup_ids`: the ids of all files are distinct.
* `inboundFromOutside_eq`: what arrives at a file from outside it is what arrives from other files.
* `usage_conserved`: the counts agree.
-/

namespace CodeSurvey

variable {files : List FileIndex}

/-! ### Certain uses -/

/-- The symbol that the reference is a certain use of. -/
def Reference.used (r : Reference) : Option SymbolId :=
  if r.resolution = .resolved then r.target else none

theorem Reference.uses_iff {r : Reference} {id : SymbolId} : r.uses id ↔ r.used = some id := by
  rw [uses, used]
  split <;> simp_all

/-- **The uses of a kind are counted once each**, if all of them are uses of the given symbols. -/
theorem sum_uses {ids : List SymbolId} (distinct : ids.Nodup) {references : List Reference}
    {kind : Reference → SymbolId → Bool}
    (known : ∀ r ∈ references, ∀ id, r.used = some id → kind r id → id ∈ ids) :
    (ids.map fun id => references.countP fun r => r.uses id && kind r id).sum =
      references.countP fun r => r.used.any (kind r) := by
  have counted : ∀ r id, (r.used.filter (kind r) = some id) ↔ (r.uses id && kind r id) := by
    intro r id
    rw [Option.filter_eq_some_iff, Bool.and_eq_true, Reference.uses_iff]
  have among : ∀ r ∈ references, ∀ id, r.used.filter (kind r) = some id → id ∈ ids := by
    intro r there id h
    obtain ⟨used, holds⟩ := Option.filter_eq_some_iff.1 h
    exact known r there id used holds
  simpa only [counted, Bool.decide_eq_true, Option.isSome_filter] using
    sum_countP_eq distinct references among

/-! ### The counts of a project -/

theorem nodup_ids (project : IndexedProject files) :
    ((files.flatMap FileIndex.symbols).map Symbol.id).Nodup := by
  rw [List.map_flatMap, List.nodup_flatMap]
  refine ⟨fun index h => (project.indexed index h).wellFormed.distinct, ?_⟩
  have paths := List.pairwise_map.1 project.distinct
  refine paths.imp_of_mem fun {a b} inA inB apart id ofA ofB => apart ?_
  obtain ⟨x, inX, rfl⟩ := List.mem_map.1 ofA
  obtain ⟨y, inY, same⟩ := List.mem_map.1 ofB
  rw [← (project.indexed a inA).wellFormed.home x inX, ← same,
    (project.indexed b inB).wellFormed.home y inY]

/-- The symbol that a reference of the graph uses is one of the file that its id names. -/
theorem mem_ids_of_used (project : IndexedProject files) {r : Reference} {id : SymbolId}
    (there : r ∈ linkReferences files) (used : r.used = some id) :
    ∃ index ∈ files, index.path = id.file ∧ id ∈ index.symbols.map Symbol.id := by
  rw [Reference.used] at used
  split at used
  · rename_i resolved
    obtain ⟨index, listed, symbol, own, target⟩ :=
      exists_target_of_resolved project.indexed there resolved
    cases Option.some.inj (target.symm.trans used)
    exact ⟨index, listed, ((project.indexed index listed).wellFormed.home symbol own).symm,
      List.mem_map_of_mem own⟩
  · cases used

theorem mem_allIds_of_used (project : IndexedProject files) {r : Reference} {id : SymbolId}
    (there : r ∈ linkReferences files) (used : r.used = some id) :
    id ∈ (files.flatMap FileIndex.symbols).map Symbol.id := by
  obtain ⟨index, listed, -, own⟩ := mem_ids_of_used project there used
  rw [List.map_flatMap]
  exact List.mem_flatMap.2 ⟨index, listed, own⟩

theorem resolved_usage (graph : ReferenceGraph) (id : SymbolId) :
    (graph.usage id).resolved = graph.references.countP (·.uses id) := by
  rw [SymbolUsage.resolved, ReferenceGraph.usage, countUsage]
  dsimp only
  induction graph.references with
  | nil => rfl
  | cons r rest ih =>
      simp only [List.countP_cons, ← ih, Reference.usesInside, Reference.usesAcross]
      by_cases home : id.file = r.file <;> cases r.uses id <;> simp [home] <;> omega

/-- **What arrives at a file arrives at its symbols.** -/
theorem inbound_eq_sum (project : IndexedProject files) {index : FileIndex}
    (listed : index ∈ files) :
    (buildGraph files).inbound index.path =
      (index.symbols.map fun symbol => ((buildGraph files).usage symbol.id).crossFile).sum := by
  have formed := (project.indexed index listed).wellFormed
  have known : ∀ r ∈ linkReferences files, ∀ id, r.used = some id →
      decide (id.file = index.path ∧ id.file ≠ r.file) → id ∈ index.symbols.map Symbol.id := by
    intro r there id used here
    obtain ⟨other, inFiles, path, own⟩ := mem_ids_of_used project there used
    have same : other = index := List.inj_on_of_nodup_map project.distinct inFiles listed
      (path.trans (of_decide_eq_true here).1)
    exact same ▸ own
  have arrives : ∀ r : Reference, r.arrivesAt index.path =
      r.used.any fun id => decide (id.file = index.path ∧ id.file ≠ r.file) := by
    intro r
    rw [Reference.arrivesAt, Reference.used]
    cases r.target <;> by_cases resolved : r.resolution = .resolved <;> simp [resolved]
  calc (buildGraph files).inbound index.path
      = (linkReferences files).countP fun r =>
          r.used.any fun id => decide (id.file = index.path ∧ id.file ≠ r.file) := by
        simp only [ReferenceGraph.inbound, countInbound, arrives]
        rfl
    _ = _ := (sum_uses formed.distinct known).symm
    _ = _ := by
        rw [List.map_map]
        refine congrArg List.sum (List.map_congr_left fun symbol own => ?_)
        refine List.countP_congr fun r _ => ?_
        simp [Reference.usesAcross, formed.home symbol own]

/-- What arrives at a file from outside it is what arrives from other files. -/
theorem inboundFromOutside_eq (graph : ReferenceGraph) (file : Path) :
    inboundFromOutside graph (· = file) = graph.inbound file := by
  refine List.countP_congr fun r _ => ?_
  rw [Reference.arrivesAt]
  cases r.target with
  | none => rfl
  | some target => by_cases here : target.file = file <;> simp [here, eq_comm (a := file)]

/-- A module whose name has not two underscores at either end is among the candidates. -/
theorem exists_moduleCandidate (graph : ReferenceGraph) {sources : List SourceFile}
    {file : SourceFile} (listed : file ∈ sources) {stem : String}
    (named : file.path.stem = some stem)
    (plain : (Text.startsWith stem "__" && Text.endsWith stem "__") = false) :
    ∃ candidate ∈ conflictCandidates sources graph, moduleCandidate graph file = some candidate ∧
      candidate.name = stem ∧ candidate.path = file.path.text ∧
      candidate.inbound = graph.inbound file.path := by
  have made : moduleCandidate graph file =
      some ⟨stem, file.path.text, 1, inboundFromOutside graph (· = file.path),
        decide (0 < file.size)⟩ := by
    rw [moduleCandidate, named, Option.bind_some, plain]
    rfl
  exact ⟨_, List.mem_append_right _ (List.mem_filterMap.2 ⟨file, listed, made⟩), made, rfl, rfl,
    inboundFromOutside_eq graph file.path⟩

theorem sum_resolved (project : IndexedProject files) :
    ((files.flatMap FileIndex.symbols).map fun symbol =>
        ((buildGraph files).usage symbol.id).resolved).sum =
      (buildGraph files).references.countP fun r => r.resolution = .resolved := by
  have known : ∀ r ∈ linkReferences files, ∀ id, r.used = some id → true →
      id ∈ (files.flatMap FileIndex.symbols).map Symbol.id :=
    fun r there id used _ => mem_allIds_of_used project there used
  calc ((files.flatMap FileIndex.symbols).map fun symbol =>
          ((buildGraph files).usage symbol.id).resolved).sum
      = (((files.flatMap FileIndex.symbols).map Symbol.id).map fun id =>
          (linkReferences files).countP fun r => r.uses id && true).sum := by
        simp only [resolved_usage, List.map_map, Bool.and_true]
        rfl
    _ = _ := sum_uses (nodup_ids project) known
    _ = _ := by
        refine List.countP_congr fun r there => ?_
        rw [Reference.used]
        split
        · rename_i resolved
          obtain ⟨-, -, symbol, -, target⟩ :=
            exists_target_of_resolved project.indexed there resolved
          simp [target, resolved]
        · rename_i unresolved
          simp [unresolved]

theorem sum_fromTests (project : IndexedProject files) :
    ((files.flatMap FileIndex.symbols).map fun symbol =>
        ((buildGraph files).usage symbol.id).fromTests).sum =
      (buildGraph files).references.countP fun r =>
        r.resolution = .resolved && (buildGraph files).isTestFile r.file &&
          r.target.any fun target => target.file ≠ r.file := by
  have known : ∀ r ∈ linkReferences files, ∀ id, r.used = some id →
      (decide (id.file ≠ r.file) && (buildGraph files).isTestFile r.file) →
        id ∈ (files.flatMap FileIndex.symbols).map Symbol.id :=
    fun r there id used _ => mem_allIds_of_used project there used
  calc ((files.flatMap FileIndex.symbols).map fun symbol =>
          ((buildGraph files).usage symbol.id).fromTests).sum
      = (((files.flatMap FileIndex.symbols).map Symbol.id).map fun id =>
          (linkReferences files).countP fun r => r.uses id &&
            (decide (id.file ≠ r.file) && (buildGraph files).isTestFile r.file)).sum := by
        simp only [List.map_map, ← Bool.and_assoc]
        rfl
    _ = _ := sum_uses (nodup_ids project) known
    _ = _ := by
        refine List.countP_congr fun r _ => ?_
        rw [Reference.used]
        cases r.target <;> by_cases resolved : r.resolution = .resolved <;>
          simp [resolved, and_comm]

/-- **The counts of uses agree.** In the graph of a project, what arrives at a file from other files
arrives at its symbols, and is what the candidate of the module has. The certain uses of all symbols
are the resolved references, uses in tests are uses across files, and those of all symbols are the
resolved references that stand in a test and lead to another file. -/
theorem usage_conserved (project : IndexedProject files) :
    (∀ index ∈ files,
      (buildGraph files).inbound index.path =
        (index.symbols.map fun symbol => ((buildGraph files).usage symbol.id).crossFile).sum ∧
      ∀ sources : List SourceFile, index.file ∈ sources →
        ∀ stem, index.path.stem = some stem →
          (Text.startsWith stem "__" && Text.endsWith stem "__") = false →
            ∃ candidate ∈ conflictCandidates sources (buildGraph files),
              moduleCandidate (buildGraph files) index.file = some candidate ∧
              candidate.name = stem ∧ candidate.path = index.path.text ∧
              candidate.inbound = (buildGraph files).inbound index.path) ∧
    (((files.flatMap FileIndex.symbols).map fun symbol =>
        ((buildGraph files).usage symbol.id).resolved).sum =
      ((buildGraph files).references.countP fun r => r.resolution = .resolved) ∧
      (buildGraph files).analysis.resolvedReferences =
        (buildGraph files).references.countP fun r => r.resolution = .resolved) ∧
    (∀ id, ((buildGraph files).usage id).fromTests ≤ ((buildGraph files).usage id).crossFile) ∧
    ((files.flatMap FileIndex.symbols).map fun symbol =>
        ((buildGraph files).usage symbol.id).fromTests).sum =
      (buildGraph files).references.countP fun r =>
        r.resolution = .resolved && (buildGraph files).isTestFile r.file &&
          r.target.any fun target => target.file ≠ r.file := by
  refine ⟨fun index listed => ⟨inbound_eq_sum project listed, ?_⟩, ⟨sum_resolved project, rfl⟩,
    fun id => ?_, sum_fromTests project⟩
  · intro sources there stem named plain
    exact exists_moduleCandidate _ there named plain
  · refine List.countP_mono_left fun r _ h => ?_
    exact (Bool.and_eq_true_iff.1 h).1

/-- A function that a module imports and a test reaches through its module. -/
theorem usage_conserved_tested : ∃ a b t,
    indexSource (rootModule "a.py" false) "from b import f\n" = .ok a ∧
      indexSource (rootModule "b.py" false) "def f(): pass\nf\n" = .ok b ∧
      indexSource (rootModule "t.py" true) "import b\nb.f\n" = .ok t ∧
      IndexedProject [a, b, t] ∧ (buildGraph [a, b, t]).inbound b.path = 2 ∧
      (b.symbols.map fun symbol => ((buildGraph [a, b, t]).usage symbol.id).crossFile).sum = 2 ∧
      (∃ candidate ∈ conflictCandidates [a.file, b.file, t.file] (buildGraph [a, b, t]),
        moduleCandidate (buildGraph [a, b, t]) b.file = some candidate ∧ candidate.name = "b" ∧
          candidate.inbound = 2) ∧
      (([a, b, t].flatMap FileIndex.symbols).map fun symbol =>
        ((buildGraph [a, b, t]).usage symbol.id).resolved).sum = 4 ∧
      (([a, b, t].flatMap FileIndex.symbols).map fun symbol =>
        ((buildGraph [a, b, t]).usage symbol.id).fromTests).sum = 1 := by
  have read : ∃ a b t,
      indexSource (rootModule "a.py" false) "from b import f\n" = .ok a ∧
        indexSource (rootModule "b.py" false) "def f(): pass\nf\n" = .ok b ∧
        indexSource (rootModule "t.py" true) "import b\nb.f\n" = .ok t ∧
        ([a, b, t].map FileIndex.path).Nodup ∧ (buildGraph [a, b, t]).inbound b.path = 2 ∧
        b.path.stem = some "b" ∧
        ((buildGraph [a, b, t]).references.countP fun r => r.resolution = .resolved) = 4 ∧
        ((buildGraph [a, b, t]).references.countP fun r =>
          r.resolution = .resolved && (buildGraph [a, b, t]).isTestFile r.file &&
            r.target.any fun target => target.file ≠ r.file) = 1 :=
    ⟨_, _, _, rfl, rfl, rfl, by decide +kernel⟩
  obtain ⟨a, b, t, indexedA, indexedB, indexedT, distinct, arriving, stem, resolved, tested⟩ := read
  have project : IndexedProject [a, b, t] := by
    refine ⟨distinct, ?_⟩
    rw [List.forall_mem_cons, List.forall_mem_cons, List.forall_mem_singleton]
    exact ⟨⟨_, _, indexedA⟩, ⟨_, _, indexedB⟩, ⟨_, _, indexedT⟩⟩
  obtain ⟨inbound, ⟨uses, -⟩, -, tests⟩ := usage_conserved project
  have second : b ∈ [a, b, t] := List.mem_cons_of_mem _ List.mem_cons_self
  obtain ⟨sum, modules⟩ := inbound b second
  obtain ⟨candidate, there, made, name, -, count⟩ :=
    modules [a.file, b.file, t.file] (List.mem_cons_of_mem _ List.mem_cons_self) "b" stem
      (by decide +kernel)
  exact ⟨a, b, t, indexedA, indexedB, indexedT, project, arriving, sum.symm.trans arriving,
    ⟨candidate, there, made, name, count.trans arriving⟩, uses.trans resolved, tests.trans tested⟩

end CodeSurvey
