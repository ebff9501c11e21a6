import CodeSurvey.Proofs.Entries
import CodeSurvey.Proofs.Graph.Dependencies
import CodeSurvey.Proofs.Index.WellFormed
import Mathlib.Data.Set.Card

/-!
# Every import is accounted for

An import of a project file leads to an edge or to a label: to the edge from its file to the one it
resolves to, or to a label of its file among the external imports. Edges are grouped, sorted and
freed of repetitions, and read in three ways afterwards.

* `nodup_ends`: no two edges join the same modules in the same direction.
* `exists_edge_iff`: there is an edge for every import that leads to another file.
* `mem_lines_iff`, `weight_eq`: an edge carries the lines of its imports, each once.
* `mem_external_iff`: a file has the labels of the imports that lead nowhere.
* `inDegree_eq`, `sum_inDegree`: every edge is counted once, where it ends.
* `importGraph_accounts`: all of that for a list of files.
-/

namespace CodeSurvey

variable {files : List FileIndex} {file : FileIndex} {i : Nat} {edge : ImportEdge}

/-- An import in the file at one place resolves to the file at another. -/
def LeadsTo (files : List FileIndex) (i j : Nat) (entry : Import) : Prop :=
  ∃ rest, resolveImport files i entry = some ⟨j, rest⟩

/-- The ends of an edge. -/
def ImportEdge.ends (edge : ImportEdge) : Nat × Nat :=
  (edge.source, edge.target)

/-! ### Edges -/

/-- An edge is among those of the file that it starts at. -/
theorem mem_edgesFrom (listed : edge ∈ importEdges files)
    (there : files[edge.source]? = some file) : edge ∈ edgesFrom files edge.source file := by
  obtain ⟨⟨source, i⟩, place, own⟩ := List.mem_flatMap.1 listed
  obtain ⟨target, -, rfl⟩ := List.mem_map.1 own
  have same : source = file :=
    Option.some.inj ((List.mem_zipIdx_iff_getElem?.1 place).symm.trans there)
  exact same ▸ own

/-- No edge starts at a file without imports. -/
theorem edgesFrom_eq_nil (none : file.imports = []) : edgesFrom files i file = [] := by
  rw [edgesFrom, importedModules, none, List.filterMap_nil, List.map_nil, sortedSet_nil,
    List.map_nil]

theorem importEdges_eq_nil (none : ∀ file ∈ files, file.imports = []) : importEdges files = [] :=
  List.flatMap_eq_nil_iff.2 fun (file, _) place => edgesFrom_eq_nil
    (none file (List.mem_of_getElem? (List.mem_zipIdx_iff_getElem?.1 place)))

/-- The edges of a file end at different modules. -/
theorem nodup_edgesFrom (files : List FileIndex) (i : Nat) (file : FileIndex) :
    ((edgesFrom files i file).map ImportEdge.ends).Nodup := by
  have targets : (edgesFrom files i file).map ImportEdge.ends =
      (sortedSet compare ((importedModules files i file).map Prod.fst)).map fun j => (i, j) := by
    rw [edgesFrom, List.map_map]
    rfl
  rw [targets]
  refine (nodup_sortedSet _).map ?_
  intro j k same
  exact (Prod.mk.inj same).2

/-- **No two edges have the same ends.** -/
theorem nodup_ends (files : List FileIndex) : ((importEdges files).map ImportEdge.ends).Nodup := by
  rw [importEdges, List.map_flatMap, List.nodup_flatMap]
  refine ⟨fun (file, i) _ => nodup_edgesFrom files i file, ?_⟩
  have places : files.zipIdx.Pairwise fun a b => a.2 ≠ b.2 := by
    refine List.pairwise_map.1 ?_
    rw [List.zipIdx_map_snd]
    exact List.nodup_range'
  -- edges of different files start at different places
  refine places.imp ?_
  rintro ⟨file, i⟩ ⟨other, j⟩ apart ends left right
  obtain ⟨edge, own, rfl⟩ := List.mem_map.1 left
  obtain ⟨edge', own', same⟩ := List.mem_map.1 right
  obtain ⟨target, -, rfl⟩ := List.mem_map.1 own
  obtain ⟨target', -, rfl⟩ := List.mem_map.1 own'
  exact apart (Prod.mk.inj same).1.symm

/-- **The lines of an edge are those of the imports that lead along it.** -/
theorem mem_lines_iff (listed : edge ∈ importEdges files) (there : files[edge.source]? = some file)
    {line : Nat} : line ∈ edge.lines ↔
      ∃ entry ∈ file.imports, entry.line = line ∧ LeadsTo files edge.source edge.target entry := by
  obtain ⟨target, found, eq⟩ := List.mem_map.1 (mem_edgesFrom listed there)
  have lines : edge.lines = sortedSet compare
      (((importedModules files edge.source file).filter fun p => p.1 = edge.target).map
        Prod.snd) := by
    rw [← eq]
  rw [lines, mem_sortedSet, List.mem_map]
  constructor
  · rintro ⟨⟨m, line⟩, kept, rfl⟩
    obtain ⟨named, same⟩ := List.mem_filter.1 kept
    obtain rfl : m = edge.target := of_decide_eq_true same
    exact (mem_importedModules.1 named).2
  · intro carried
    have other : edge.target ≠ edge.source := by
      obtain ⟨⟨m, line⟩, first, rfl⟩ := List.mem_map.1 (mem_of_mem_sortedSet found)
      rw [← eq]
      exact (mem_importedModules.1 first).1
    exact ⟨(edge.target, line), List.mem_filter.2
      ⟨mem_importedModules.2 ⟨other, carried⟩, decide_eq_true rfl⟩, rfl⟩

theorem pairwise_lines (listed : edge ∈ importEdges files) :
    edge.lines.Pairwise (· < ·) := by
  obtain ⟨⟨file, i⟩, -, own⟩ := List.mem_flatMap.1 listed
  obtain ⟨target, -, rfl⟩ := List.mem_map.1 own
  refine (pairwise_sortedSet _).imp ?_
  intro a b less
  exact Nat.compare_eq_lt.1 less

/-- An edge weighs as much as there are lines with an import that leads along it. -/
theorem weight_eq (listed : edge ∈ importEdges files) (there : files[edge.source]? = some file) :
    edge.weight = Set.ncard {line | ∃ entry ∈ file.imports, entry.line = line ∧
      LeadsTo files edge.source edge.target entry} := by
  have lines : {line | ∃ entry ∈ file.imports, entry.line = line ∧
      LeadsTo files edge.source edge.target entry} = (edge.lines.toFinset : Set Nat) := by
    ext line
    rw [List.coe_toFinset]
    exact (mem_lines_iff listed there).symm
  have once : edge.lines.Nodup := (pairwise_lines listed).imp Nat.ne_of_lt
  rw [lines, Set.ncard_coe_finset, List.toFinset_card_of_nodup once, ImportEdge.weight]

/-- **There is an edge for every import that leads to another file**, and for nothing else. -/
theorem exists_edge_iff (there : files[i]? = some file) {j : Nat} :
    (∃ edge ∈ importEdges files, edge.ends = (i, j)) ↔
      i ≠ j ∧ ∃ entry ∈ file.imports, LeadsTo files i j entry := by
  constructor
  · rintro ⟨edge, listed, ends⟩
    obtain ⟨rfl, rfl⟩ := Prod.mk.inj ends
    obtain ⟨target, found, eq⟩ := List.mem_map.1 (mem_edgesFrom listed there)
    obtain ⟨⟨m, line⟩, first, rfl⟩ := List.mem_map.1 (mem_of_mem_sortedSet found)
    obtain ⟨other, entry, own, -, leads⟩ := mem_importedModules.1 first
    rw [← eq]
    exact ⟨other.symm, entry, own, leads⟩
  · rintro ⟨other, entry, own, leads⟩
    obtain ⟨edge, listed, source, target, -⟩ :=
      (mem_importEdges_iff there).2 ⟨other.symm, entry, own, rfl, leads⟩
    exact ⟨edge, listed, by rw [ImportEdge.ends, source, target]⟩

theorem source_ne_target (listed : edge ∈ importEdges files) : edge.source ≠ edge.target := by
  have there := List.getElem?_eq_getElem (importEdges_inside listed).1
  exact ((exists_edge_iff there).1 ⟨edge, listed, rfl⟩).1

/-! ### Labels -/

/-- Under a key of a list that is grouped by keys are the items that it has in the list. -/
theorem mem_lookup_grouped {items : List (Path × String)} {path : Path} {label : String} :
    label ∈ (((sortedSet Path.order (items.map Prod.fst)).map fun key =>
        (key, sortedSet compare ((items.filter fun p => p.1 = key).map Prod.snd))).lookup
          path).getD [] ↔ (path, label) ∈ items := by
  generalize eq : ((sortedSet Path.order (items.map Prod.fst)).map fun key =>
    (key, sortedSet compare ((items.filter fun p => p.1 = key).map Prod.snd))) = groups
  have keys : groups.map Prod.fst = sortedSet Path.order (items.map Prod.fst) := by
    rw [← eq, List.map_map]
    exact List.map_id _
  by_cases known : path ∈ items.map Prod.fst
  · have entry : (path, sortedSet compare ((items.filter fun p => p.1 = path).map Prod.snd)) ∈
        groups := by
      rw [← eq]
      exact List.mem_map.2 ⟨path, mem_sortedSet.2 known, rfl⟩
    have once : (groups.map Prod.fst).Nodup := by
      rw [keys]
      exact nodup_sortedSet _
    rw [lookup_of_mem once entry, Option.getD_some, mem_sortedSet, List.mem_map]
    constructor
    · rintro ⟨⟨key, label⟩, kept, rfl⟩
      obtain ⟨listed, same⟩ := List.mem_filter.1 kept
      obtain rfl : key = path := of_decide_eq_true same
      exact listed
    · intro listed
      exact ⟨_, List.mem_filter.2 ⟨listed, decide_eq_true rfl⟩, rfl⟩
  · have missing : path ∉ groups.map Prod.fst := by
      rw [keys, mem_sortedSet]
      exact known
    rw [lookup_of_notMem missing]
    constructor
    · intro none
      cases none
    · intro listed
      exact absurd (List.mem_map_of_mem listed) known

theorem mem_externalLabels_iff {label : String} : label ∈ externalLabels files i file ↔
    ∃ entry ∈ file.imports, resolveImport files i entry = none ∧ importLabel entry = label := by
  simp only [externalLabels, List.mem_map, List.mem_filter, Option.isNone_iff_eq_none, and_assoc]

/-- **The labels of a file are those of its imports that lead nowhere.** -/
theorem mem_external_iff (distinct : (files.map FileIndex.path).Nodup)
    (there : files[i]? = some file) {label : String} :
    label ∈ ((externalImports files).lookup file.path).getD [] ↔
      ∃ entry ∈ file.imports, resolveImport files i entry = none ∧ importLabel entry = label := by
  rw [externalImports, mem_lookup_grouped, ← mem_externalLabels_iff, List.mem_flatMap]
  constructor
  · rintro ⟨⟨other, j⟩, place, found⟩
    obtain ⟨label', kept, same⟩ := List.mem_map.1 found
    obtain ⟨paths, rfl⟩ := Prod.mk.inj same
    have there' := List.mem_zipIdx_iff_getElem?.1 place
    obtain rfl : j = i := (path_eq_iff distinct there there').1 paths
    obtain rfl : other = file := Option.some.inj (there'.symm.trans there)
    exact kept
  · intro listed
    exact ⟨(file, i), List.mem_zipIdx_iff_getElem?.2 there, List.mem_map.2 ⟨label, listed, rfl⟩⟩

/-! ### Degrees -/

/-- **A file has as many dependents as edges lead to it.** -/
theorem inDegree_eq (distinct : (files.map FileIndex.path).Nodup) (there : files[i]? = some file) :
    (buildGraph files).inDegree file.path =
      (buildGraph files).edges.countP fun edge => edge.target = i := by
  have formed := ReferenceGraph.wellFormed_buildGraph distinct
  have place : (buildGraph files).nodes[i]? = some (moduleNode file) := by
    rw [buildGraph, List.getElem?_map, there]
    rfl
  have inside := (List.getElem?_eq_some_iff.1 place).1
  have path : (buildGraph files).pathOf i = file.path := ReferenceGraph.pathOf_of_getElem? place
  have arriving : (buildGraph files).dependents file.path = (buildGraph files).modulesAt
      (((buildGraph files).edges.filter fun e => e.target = i).map ImportEdge.source) := by
    rw [ReferenceGraph.dependents, ← path, formed.nodeOf_pathOf inside]
  rw [ReferenceGraph.inDegree, arriving, formed.length_modulesAt, List.length_map,
    List.countP_eq_length_filter]
  · -- edges with one target start at different modules
    have ends := nodup_ends files
    refine List.Nodup.map_on ?_ (ends.of_map.filter _)
    intro a own b own' same
    obtain ⟨listed, here⟩ := List.mem_filter.1 own
    obtain ⟨listed', here'⟩ := List.mem_filter.1 own'
    refine List.inj_on_of_nodup_map ends listed listed' ?_
    rw [ImportEdge.ends, ImportEdge.ends, same, of_decide_eq_true here, of_decide_eq_true here']
  · intro n arrives
    obtain ⟨edge, own, rfl⟩ := List.mem_map.1 arrives
    exact (formed.inside edge (List.mem_filter.1 own).1).1

/-- What the analysis counts for each module is how many others import it. -/
theorem importedModules_perm (distinct : (files.map FileIndex.path).Nodup) :
    (buildGraph files).importedModules.Perm
      (((buildGraph files).nodes.map fun node =>
        (node.moduleName, (buildGraph files).inDegree node.file)).filter
          fun counted => decide (0 < counted.2)) := by
  have counts : ((buildGraph files).nodes.zipIdx.map fun entry =>
      (entry.1.moduleName, (buildGraph files).edges.countP fun e => e.target = entry.2)) =
      (buildGraph files).nodes.map fun node =>
        (node.moduleName, (buildGraph files).inDegree node.file) := by
    nth_rewrite 2 [← List.zipIdx_map_fst 0 (buildGraph files).nodes]
    rw [List.map_map]
    refine List.map_congr_left ?_
    rintro ⟨node, n⟩ place
    have place : (files.map moduleNode)[n]? = some node := List.mem_zipIdx_iff_getElem?.1 place
    rw [List.getElem?_map] at place
    obtain ⟨file, there, rfl⟩ := Option.map_eq_some_iff.1 place
    exact congrArg (Prod.mk _) (inDegree_eq distinct there).symm
  rw [← counts]
  exact sortBy_perm ..

/-- **Every edge is counted once, for the module where it ends.** -/
theorem sum_inDegree (distinct : (files.map FileIndex.path).Nodup) :
    ((buildGraph files).nodes.map fun node => (buildGraph files).inDegree node.file).sum =
      (buildGraph files).edges.length := by
  have degrees : ((buildGraph files).nodes.map fun node =>
      (buildGraph files).inDegree node.file) = (List.range files.length).map fun n =>
        (buildGraph files).edges.countP fun edge => some edge.target = some n := by
    refine List.ext_getElem (by simp [buildGraph]) ?_
    intro n inside inside'
    have there := List.getElem?_eq_getElem (List.mem_range.1 (by simpa using inside'))
    simpa [buildGraph, moduleNode] using inDegree_eq distinct there
  have targets : ∀ edge ∈ (buildGraph files).edges, ∀ n, some edge.target = some n →
      n ∈ List.range files.length := by
    rintro edge listed _ ⟨⟩
    exact List.mem_range.2 (importEdges_inside listed).2
  rw [degrees, sum_countP_eq List.nodup_range _ targets]
  simp

/-- **The import graph accounts for every import.** There is a node for every file, in order. An
edge leads from a file to another exactly if an import of the one resolves to the other. There is
one such edge, it carries the lines of these imports, in order and each once, and weighs as much as
there are lines. An import is among the labels of its file exactly if it does not resolve. The
dependents of a module are the modules that have it among their dependencies, both in path order,
and their number is what the analysis counts for it, in sum the number of edges. -/
theorem importGraph_accounts (distinct : (files.map FileIndex.path).Nodup) :
    (buildGraph files).nodes = files.map moduleNode ∧
    (∀ edge ∈ (buildGraph files).edges, edge.source ≠ edge.target) ∧
    ((buildGraph files).edges.map ImportEdge.ends).Nodup ∧
    (∀ i file, files[i]? = some file →
      (∀ j, (∃ edge ∈ (buildGraph files).edges, edge.ends = (i, j)) ↔
        i ≠ j ∧ ∃ entry ∈ file.imports, LeadsTo files i j entry) ∧
      (∀ edge ∈ (buildGraph files).edges, edge.source = i →
        edge.lines.Pairwise (· < ·) ∧
        (∀ line, line ∈ edge.lines ↔
          ∃ entry ∈ file.imports, entry.line = line ∧ LeadsTo files i edge.target entry) ∧
        edge.weight = Set.ncard {line | ∃ entry ∈ file.imports, entry.line = line ∧
          LeadsTo files i edge.target entry}) ∧
      (∀ label, label ∈ ((buildGraph files).external.lookup file.path).getD [] ↔
        ∃ entry ∈ file.imports, resolveImport files i entry = none ∧ importLabel entry = label) ∧
      (∀ path, path ∈ ((buildGraph files).dependencies file.path).map ModuleNode.file ↔
        file.path ∈ ((buildGraph files).dependents path).map ModuleNode.file) ∧
      (buildGraph files).inDegree file.path =
        (buildGraph files).edges.countP fun edge => edge.target = i) ∧
    (∀ path, (((buildGraph files).dependencies path).map ModuleNode.file).Pairwise
        (fun a b => a.order b = .lt) ∧
      (((buildGraph files).dependents path).map ModuleNode.file).Pairwise
        (fun a b => a.order b = .lt)) ∧
    (buildGraph files).importedModules.Perm
      (((buildGraph files).nodes.map fun node =>
        (node.moduleName, (buildGraph files).inDegree node.file)).filter
          fun counted => decide (0 < counted.2)) ∧
    ((buildGraph files).nodes.map fun node => (buildGraph files).inDegree node.file).sum =
      (buildGraph files).analysis.totalEdges := by
  have formed := ReferenceGraph.wellFormed_buildGraph distinct
  refine ⟨rfl, fun edge listed => source_ne_target listed, nodup_ends files, ?_, ?_,
    importedModules_perm distinct, sum_inDegree distinct⟩
  · intro i file there
    refine ⟨fun j => exists_edge_iff there, ?_, fun label => mem_external_iff distinct there, ?_,
      inDegree_eq distinct there⟩
    · rintro edge listed rfl
      exact ⟨pairwise_lines listed, fun line => mem_lines_iff listed there, weight_eq listed there⟩
    · intro path
      rw [formed.mem_dependencies_iff, formed.mem_dependents_iff]
  · intro path
    exact ⟨ReferenceGraph.pairwise_dependencies _ path, ReferenceGraph.pairwise_dependents _ path⟩

/-- A module that imports another on two lines, itself and something from outside. -/
theorem importGraph_accounts_twice : ∃ a b,
    indexSource (rootModule "a.py" false) "import b\nimport a, os\nfrom b import f\n" = .ok a ∧
      indexSource (rootModule "b.py" false) "def f(): pass\n" = .ok b ∧
      ([a, b].map FileIndex.path).Nodup ∧
      (∃ edge ∈ (buildGraph [a, b]).edges, edge.ends = (0, 1) ∧ 1 ∈ edge.lines ∧ 3 ∈ edge.lines) ∧
      (∀ edge ∈ (buildGraph [a, b]).edges, edge.ends ≠ (0, 0)) ∧
      "os" ∈ ((buildGraph [a, b]).external.lookup a.path).getD [] := by
  have read : ∃ a b first second third,
      indexSource (rootModule "a.py" false) "import b\nimport a, os\nfrom b import f\n" = .ok a ∧
        indexSource (rootModule "b.py" false) "def f(): pass\n" = .ok b ∧
        ([a, b].map FileIndex.path).Nodup ∧
        first ∈ a.imports ∧ first.line = 1 ∧ resolveImport [a, b] 0 first = some ⟨1, []⟩ ∧
        second ∈ a.imports ∧ importLabel second = "os" ∧ resolveImport [a, b] 0 second = none ∧
        third ∈ a.imports ∧ third.line = 3 ∧ resolveImport [a, b] 0 third = some ⟨1, ["f"]⟩ :=
    ⟨_, _, _, _, _, rfl, rfl, by decide, .head _, rfl, by decide,
      .tail _ (.tail _ (.head _)), by decide, by decide,
      .tail _ (.tail _ (.tail _ (.head _))), rfl, by decide⟩
  obtain ⟨a, b, first, second, third, indexedA, indexedB, distinct, own, line, leads, own', label,
    nowhere, own'', line', leads'⟩ := read
  obtain ⟨-, apart, -, each, -⟩ := importGraph_accounts distinct
  obtain ⟨edges, carried, labels, -⟩ := each 0 a rfl
  obtain ⟨edge, listed, ends⟩ := (edges 1).2 ⟨Nat.zero_ne_one, first, own, [], leads⟩
  obtain ⟨source, target⟩ := Prod.mk.inj ends
  obtain ⟨-, lines, -⟩ := carried edge listed source
  refine ⟨a, b, indexedA, indexedB, distinct, ⟨edge, listed, ends, ?_, ?_⟩, ?_, ?_⟩
  · exact (lines 1).2 ⟨first, own, line, [], target ▸ leads⟩
  · exact (lines 3).2 ⟨third, own'', line', ["f"], target ▸ leads'⟩
  · intro edge listed ends
    obtain ⟨source, target⟩ := Prod.mk.inj ends
    exact apart edge listed (source.trans target.symm)
  · exact (labels "os").2 ⟨second, own', nowhere, label⟩

end CodeSurvey
