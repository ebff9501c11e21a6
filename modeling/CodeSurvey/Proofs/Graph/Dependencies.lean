import CodeSurvey.Proofs.Graph.CriticalPaths

/-!
# The modules that a file imports

The dependencies of a file are read off the edges that start at its node, and its dependents off
those that end there.

* `nodeOf_pathOf`: in a graph whose modules are different files, the node of a file is the one with
  its path.
* `mem_neighbours_iff`: the neighbours of a file along edges are the modules at their other ends.
* `mem_dependencies_iff`: so the dependencies of a file are the modules that its edges lead to, and
  `mem_dependents_iff` its dependents those whose edges lead to it.
* `pairwise_dependencies`, `pairwise_dependents`: they are in strict path order.
* `length_modulesAt`: different places have different modules.
-/

namespace CodeSurvey

namespace ReferenceGraph

open Std (TransCmp OrientedCmp LawfulEqCmp)

/-- An edge leads from the module at one path to that at another. -/
def Depends (graph : ReferenceGraph) (file path : Path) : Prop :=
  ∃ edge ∈ graph.edges, graph.pathOf edge.source = file ∧ graph.pathOf edge.target = path

instance : TransCmp fun a b : ModuleNode => a.file.order b.file where
  eq_swap := OrientedCmp.eq_swap
  isLE_trans := TransCmp.isLE_trans

variable {graph : ReferenceGraph}

theorem pathOf_of_getElem? {n : Nat} {node : ModuleNode} (there : graph.nodes[n]? = some node) :
    graph.pathOf n = node.file := by
  rw [pathOf, there]
  rfl

/-- Without edges no file depends on another. -/
theorem dependencies_eq_nil (none : graph.edges = []) (file : Path) :
    graph.dependencies file = [] := by
  rw [dependencies]
  split
  · rfl
  · rw [none]
    exact sortedSet_nil _

theorem inDegree_eq_zero (none : graph.edges = []) (file : Path) : graph.inDegree file = 0 := by
  rw [inDegree, dependents]
  split
  · rfl
  · rw [none]
    exact congrArg List.length (sortedSet_nil _)

/-- The modules at some places are those whose paths are there. -/
theorem mem_modulesAt_iff {places : List Nat} (inside : ∀ n ∈ places, n < graph.nodes.length)
    {path : Path} : path ∈ (graph.modulesAt places).map ModuleNode.file ↔
      ∃ n ∈ places, graph.pathOf n = path := by
  constructor
  · intro listed
    obtain ⟨node, stays, rfl⟩ := List.mem_map.1 listed
    obtain ⟨n, place, there⟩ := List.mem_filterMap.1 (mem_of_mem_sortedSet stays)
    exact ⟨n, place, pathOf_of_getElem? there⟩
  · rintro ⟨n, place, rfl⟩
    have there := List.getElem?_eq_getElem (inside n place)
    obtain ⟨node, stays, same⟩ : ∃ node ∈ graph.modulesAt places, _ :=
      exists_mem_sortedSet (List.mem_filterMap.2 ⟨n, place, there⟩)
    rw [pathOf_of_getElem? there, LawfulEqCmp.eq_of_compare same]
    exact List.mem_map_of_mem stays

theorem pairwise_modulesAt (places : List Nat) :
    ((graph.modulesAt places).map ModuleNode.file).Pairwise fun a b => a.order b = .lt :=
  List.pairwise_map.2 (pairwise_sortedSet _)

/-- The modules at the far ends of the edges whose near end is at a file, in path order. -/
def neighbours (graph : ReferenceGraph) (near far : ImportEdge → Nat) (file : Path) :
    List ModuleNode :=
  match graph.nodeOf file with
  | none   => []
  | some n => graph.modulesAt ((graph.edges.filter fun e => near e = n).map far)

theorem dependents_eq (graph : ReferenceGraph) (file : Path) :
    graph.dependents file = graph.neighbours ImportEdge.target ImportEdge.source file := rfl

theorem pairwise_neighbours (graph : ReferenceGraph) (near far : ImportEdge → Nat) (file : Path) :
    ((graph.neighbours near far file).map ModuleNode.file).Pairwise fun a b => a.order b = .lt := by
  rw [neighbours]
  split
  · exact .nil
  · exact pairwise_modulesAt _

/-- **Dependencies are in path order.** -/
theorem pairwise_dependencies (graph : ReferenceGraph) (file : Path) :
    ((graph.dependencies file).map ModuleNode.file).Pairwise fun a b => a.order b = .lt :=
  graph.pairwise_neighbours _ _ file

/-- **Dependents are in path order.** -/
theorem pairwise_dependents (graph : ReferenceGraph) (file : Path) :
    ((graph.dependents file).map ModuleNode.file).Pairwise fun a b => a.order b = .lt :=
  graph.pairwise_neighbours _ _ file

/-- The node of a file has its path. -/
theorem pathOf_nodeOf {file : Path} {n : Nat} (h : graph.nodeOf file = some n) :
    n < graph.nodes.length ∧ graph.pathOf n = file := by
  obtain ⟨⟨node, m⟩, last, rfl⟩ := Option.map_eq_some_iff.1 h
  obtain ⟨listed, same⟩ := List.mem_filter.1 (List.mem_of_getLast? last)
  have there := List.mem_zipIdx_iff_getElem?.1 listed
  exact ⟨(List.getElem?_eq_some_iff.1 there).1,
    (pathOf_of_getElem? there).trans (of_decide_eq_true same)⟩

theorem exists_nodeOf {n : Nat} (inside : n < graph.nodes.length) :
    ∃ m, graph.nodeOf (graph.pathOf n) = some m := by
  have there := List.getElem?_eq_getElem inside
  refine Option.ne_none_iff_exists'.1 fun none => ?_
  rw [nodeOf, Option.map_eq_none_iff, List.getLast?_eq_none_iff, List.filter_eq_nil_iff] at none
  refine none (graph.nodes[n], n) (List.mem_zipIdx_iff_getElem?.2 there) ?_
  exact decide_eq_true (pathOf_of_getElem? there).symm

namespace WellFormed

variable (h : graph.WellFormed)

include h

theorem nodeOf_pathOf {n : Nat} (inside : n < graph.nodes.length) :
    graph.nodeOf (graph.pathOf n) = some n := by
  obtain ⟨m, found⟩ := exists_nodeOf inside
  obtain ⟨inside', same⟩ := pathOf_nodeOf found
  rwa [h.pathOf_inj inside' inside same] at found

/-- **The neighbours of a file are the modules at the other ends of its edges.** -/
theorem mem_neighbours_iff {near far : ImportEdge → Nat}
    (nearInside : ∀ edge ∈ graph.edges, near edge < graph.nodes.length)
    (farInside : ∀ edge ∈ graph.edges, far edge < graph.nodes.length) {file path : Path} :
    path ∈ (graph.neighbours near far file).map ModuleNode.file ↔
      ∃ edge ∈ graph.edges, graph.pathOf (near edge) = file ∧ graph.pathOf (far edge) = path := by
  have ends : ∀ n, ∀ m ∈ (graph.edges.filter fun e => near e = n).map far,
      m < graph.nodes.length := by
    intro n m there
    obtain ⟨edge, own, rfl⟩ := List.mem_map.1 there
    exact farInside edge (List.mem_filter.1 own).1
  constructor
  · intro listed
    rw [neighbours] at listed
    split at listed
    · cases listed
    · rename_i n found
      obtain ⟨m, there, rfl⟩ := (mem_modulesAt_iff (ends n)).1 listed
      obtain ⟨edge, own, rfl⟩ := List.mem_map.1 there
      obtain ⟨listed, start⟩ := List.mem_filter.1 own
      rw [← (pathOf_nodeOf found).2, ← of_decide_eq_true start]
      exact ⟨edge, listed, rfl, rfl⟩
  · rintro ⟨edge, listed, rfl, rfl⟩
    have own : edge ∈ graph.edges.filter fun e => near e = near edge :=
      List.mem_filter.2 ⟨listed, decide_eq_true rfl⟩
    rw [neighbours, h.nodeOf_pathOf (nearInside edge listed)]
    exact (mem_modulesAt_iff (ends _)).2 ⟨far edge, List.mem_map_of_mem own, rfl⟩

/-- **The dependencies of a file are the modules that its edges lead to.** -/
theorem mem_dependencies_iff {file path : Path} :
    path ∈ (graph.dependencies file).map ModuleNode.file ↔ graph.Depends file path :=
  h.mem_neighbours_iff (fun edge listed => (h.inside edge listed).1)
    fun edge listed => (h.inside edge listed).2

/-- **The dependents of a file are the modules whose edges lead to it.** -/
theorem mem_dependents_iff {file path : Path} :
    path ∈ (graph.dependents file).map ModuleNode.file ↔ graph.Depends path file := by
  rw [dependents_eq, h.mem_neighbours_iff (fun edge listed => (h.inside edge listed).2)
    fun edge listed => (h.inside edge listed).1]
  simp only [Depends, and_comm]

/-- **Different places have different modules.** -/
theorem length_modulesAt {places : List Nat} (distinct : places.Nodup)
    (inside : ∀ n ∈ places, n < graph.nodes.length) :
    (graph.modulesAt places).length = places.length := by
  have apart : (places.map graph.pathOf).Nodup := by
    refine distinct.map_on ?_
    intro n there m there' same
    exact h.pathOf_inj (inside n there) (inside m there') same
  have listed : ((graph.modulesAt places).map ModuleNode.file).Perm (places.map graph.pathOf) := by
    refine (List.perm_ext_iff_of_nodup
      (nodup_of_pairwise_lt (pairwise_modulesAt places)) apart).2 ?_
    intro path
    rw [mem_modulesAt_iff inside, List.mem_map]
  simpa using listed.length_eq

end WellFormed

end ReferenceGraph

end CodeSurvey
