import CodeSurvey.Proofs.Graph.LongestChains

/-!
# Critical paths are longest chains

The modules that reach one another make up a component. The condensed graph has the components as
its nodes, and an edge wherever an import leads from one to another; a way follows its edges.

* `IsComponent`, `Condensed` and `IsWay`: the condensed graph in terms of sets of modules.
* `isComponent_iff`, `condensed_iff` and `isWay_iff`: it is the graph of the parts that are listed.
* `isLongestFrom_chainAt`: the chain from a part names the components of a longest way.
* `criticalPaths_longest`: the critical paths are, for the components where ways start, one longest
  way of each, in order and up to the limit; so the first is a longest way of all.
-/

namespace CodeSurvey

namespace ReferenceGraph

variable (graph : ReferenceGraph)

/-- Graphs whose edges join their nodes and whose modules are different files. -/
structure WellFormed : Prop where
  inside   : ∀ edge ∈ graph.edges,
    edge.source < graph.nodes.length ∧ edge.target < graph.nodes.length
  distinct : (graph.nodes.map ModuleNode.file).Nodup

/-- The graph of a project is such a graph. -/
theorem wellFormed_buildGraph {files : List FileIndex}
    (distinct : (files.map FileIndex.path).Nodup) : (buildGraph files).WellFormed where
  inside edge listed := by
    simpa [buildGraph] using importEdges_inside listed
  distinct := by
    rw [buildGraph, List.map_map]
    exact distinct

/-! ### The condensed graph -/

/-- The sets of modules that reach one another. -/
def IsComponent (part : Set Nat) : Prop :=
  ∃ n < graph.nodes.length, part = {m | SameComponent (Imports graph.edges) n m}

/-- Whether an import leads from one component to another. -/
def Condensed (a b : Set Nat) : Prop :=
  a ≠ b ∧ ∃ n ∈ a, ∃ m ∈ b, Imports graph.edges n m

/-- The paths of the condensed graph. -/
structure IsWay (way : List (Set Nat)) : Prop where
  components : ∀ part ∈ way, graph.IsComponent part
  follows    : way.IsChain graph.Condensed

/-- Components that lead somewhere and that nothing leads to. -/
structure IsStart (part : Set Nat) : Prop where
  component  : graph.IsComponent part
  noneBefore : ∀ other, graph.IsComponent other → ¬ graph.Condensed other part
  someAfter  : ∃ other, graph.IsComponent other ∧ graph.Condensed part other

/-- The name of a component is the first of the paths of its modules. -/
structure NamedBy (part : Set Nat) (path : Path) : Prop where
  own   : ∃ n ∈ part, graph.pathOf n = path
  first : ∀ n ∈ part, (path.order (graph.pathOf n)).isLE

/-- Chains of names of the components on a way from one, which is as long as any. -/
structure IsLongestFrom (part : Set Nat) (chain : List Path) : Prop where
  named   : ∃ rest, graph.IsWay (part :: rest) ∧
    List.Forall₂ graph.NamedBy (part :: rest) chain
  longest : ∀ rest, graph.IsWay (part :: rest) → (part :: rest).length ≤ chain.length

/-! ### The parts that are listed -/

/-- The components as they are listed. -/
def parts : List (List Nat) :=
  components graph.nodes.length (successorsOf graph.edges)

/-- For every part the places of those it leads to. -/
def partEdges : List (List Nat) :=
  componentEdges (successorsOf graph.edges) graph.parts

/-- The modules of the part at a place. -/
def partAt (i : Nat) : Set Nat :=
  {n | n ∈ graph.parts.getD i []}

/-- The name of the part at a place. -/
def partName (i : Nat) : Path :=
  (leastBy Path.order ((graph.parts.getD i []).map graph.pathOf)).getD ⟨[]⟩

/-- The critical paths are the first of the longest chains of components. -/
theorem criticalPaths_eq (limit : Nat) : graph.criticalPaths limit =
    (longestChains Path.order graph.partName graph.partEdges).take limit := rfl

theorem length_partEdges : graph.partEdges.length = graph.parts.length :=
  List.length_map ..

variable {graph} {i j n m : Nat} {part : Set Nat}

theorem lt_of_isSource (source : IsSource graph.partEdges i) : i < graph.parts.length :=
  graph.length_partEdges ▸ source.lt

/-- A component is known by any of its modules. -/
theorem IsComponent.eq_of_mem (component : graph.IsComponent part) (mem : n ∈ part) :
    part = {m | SameComponent (Imports graph.edges) n m} := by
  obtain ⟨start, -, rfl⟩ := component
  have same : SameComponent (Imports graph.edges) start n := mem
  exact Set.ext fun m => ⟨same.symm.trans, same.trans⟩

/-- A component has the name of its first module in path order. -/
theorem namedBy_partName (bound : i < graph.parts.length) :
    graph.NamedBy (graph.partAt i) (graph.partName i) := by
  cases least : leastBy Path.order ((graph.parts.getD i []).map graph.pathOf) with
  | none =>
      exact absurd (List.map_eq_nil_iff.1 (leastBy_eq_none_iff.1 least))
        (part_ne_nil (getD_mem bound))
  | some path =>
      have name : graph.partName i = path := by rw [partName, least, Option.getD_some]
      rw [name]
      exact ⟨List.mem_map.1 (mem_of_leastBy least), fun n mem =>
        leastBy_isLE least _ (List.mem_map_of_mem mem)⟩

namespace WellFormed

variable (h : graph.WellFormed)

include h

theorem targets : ∀ n, ∀ v ∈ successorsOf graph.edges n, v < graph.nodes.length :=
  successorsOf_lt h.inside

theorem acyclic : Acyclic graph.partEdges :=
  acyclic_componentEdges h.targets

theorem lt_of_mem (component : graph.IsComponent part) (mem : n ∈ part) :
    n < graph.nodes.length := by
  obtain ⟨start, bound, rfl⟩ := component
  refine lt_of_reflTransGen h.targets bound ?_
  rw [← imports_eq]
  exact mem.1

/-- The parts that are listed are the components. -/
theorem isComponent_iff :
    graph.IsComponent part ↔ ∃ i < graph.parts.length, graph.partAt i = part := by
  have eq : ∀ {i n}, i < graph.parts.length → n ∈ graph.partAt i →
      graph.partAt i = {m | SameComponent (Imports graph.edges) n m} := by
    intro i n bound mem
    rw [imports_eq]
    exact Set.ext fun m => mem_part_iff h.targets (getD_mem bound) mem
  constructor
  · rintro ⟨n, bound, rfl⟩
    obtain ⟨listed, there, mem⟩ := exists_part h.targets bound
    obtain ⟨i, at_i⟩ := List.mem_iff_getElem?.1 there
    have mem : n ∈ graph.parts.getD i [] := by
      rwa [List.getD_eq_getElem?_getD, parts, at_i]
    exact ⟨i, lt_of_mem_getD mem, eq (lt_of_mem_getD mem) mem⟩
  · rintro ⟨i, bound, rfl⟩
    obtain ⟨n, mem⟩ := List.exists_mem_of_ne_nil _ (part_ne_nil (getD_mem bound))
    exact ⟨n, lt_of_mem_part (getD_mem bound) mem, eq bound mem⟩

theorem eq_of_partAt (hi : i < graph.parts.length) (hj : j < graph.parts.length)
    (same : graph.partAt i = graph.partAt j) : i = j := by
  obtain ⟨n, mem⟩ := List.exists_mem_of_ne_nil _ (part_ne_nil (getD_mem hi))
  have mem' : n ∈ graph.partAt j := same ▸ mem
  have eq : graph.parts.getD i [] = graph.parts.getD j [] :=
    eq_of_mem_part h.targets (getD_mem hi) (getD_mem hj) mem mem'
  simp only [List.getD_eq_getElem?_getD, List.getElem?_eq_getElem hi,
    List.getElem?_eq_getElem hj, Option.getD_some] at eq
  exact (List.Nodup.getElem_inj_iff nodup_components).1 eq

/-- An edge between components is one of the graph of components. -/
theorem condensed_iff (hi : i < graph.parts.length) (hj : j < graph.parts.length) :
    graph.Condensed (graph.partAt i) (graph.partAt j) ↔ Leads graph.partEdges i j := by
  have differ : graph.partAt i ≠ graph.partAt j ↔
      graph.parts.getD i [] ≠ graph.parts.getD j [] := by
    refine not_congr ⟨fun same => ?_, fun same => by rw [partAt, same, partAt]⟩
    rw [h.eq_of_partAt hi hj same]
  rw [partEdges, leads_componentEdges, leadsTo_iff, Condensed, differ]
  simp only [hi, hj, true_and, mem_successorsOf, partAt, Set.mem_ofPred_eq]

/-- A way goes over the parts at places that lead to one another. -/
theorem isWay_iff {way : List (Set Nat)} : graph.IsWay way ↔
    ∃ places : List Nat, (∀ i ∈ places, i < graph.parts.length) ∧
      places.IsChain (Leads graph.partEdges) ∧ places.map graph.partAt = way := by
  have chain : ∀ {places : List Nat}, (∀ i ∈ places, i < graph.parts.length) →
      ((places.map graph.partAt).IsChain graph.Condensed ↔
        places.IsChain (Leads graph.partEdges)) := by
    intro places bounds
    rw [List.isChain_map]
    exact List.IsChain.iff_of_mem_imp fun i j hi hj => h.condensed_iff (bounds i hi) (bounds j hj)
  constructor
  · rintro ⟨components, follows⟩
    choose! place bound eq using fun part mem => h.isComponent_iff.1 (components part mem)
    have bounds : ∀ i ∈ way.map place, i < graph.parts.length := by
      simpa using bound
    have same : (way.map place).map graph.partAt = way := by
      rw [List.map_map]
      exact (List.map_congr_left eq).trans (List.map_id way)
    refine ⟨way.map place, bounds, (chain bounds).1 ?_, same⟩
    rwa [same]
  · rintro ⟨places, bounds, follows, rfl⟩
    refine ⟨fun part mem => ?_, (chain bounds).2 follows⟩
    obtain ⟨i, listed, rfl⟩ := List.mem_map.1 mem
    exact h.isComponent_iff.2 ⟨i, bounds i listed, rfl⟩

/-- A component is a start exactly if none leads to it. -/
theorem isStart_iff : graph.IsStart part ↔
    ∃ i, IsSource graph.partEdges i ∧ graph.partAt i = part := by
  constructor
  · rintro ⟨component, none, other, component', next⟩
    obtain ⟨i, hi, rfl⟩ := h.isComponent_iff.1 component
    obtain ⟨j, hj, rfl⟩ := h.isComponent_iff.1 component'
    refine ⟨i, ⟨fun k step => ?_, j, (h.condensed_iff hi hj).1 next⟩, rfl⟩
    have hk : k < graph.parts.length := (leads_componentEdges.1 step).1
    exact none _ (h.isComponent_iff.2 ⟨k, hk, rfl⟩) ((h.condensed_iff hk hi).2 step)
  · rintro ⟨i, ⟨none, j, step⟩, rfl⟩
    obtain ⟨hi, hj, -⟩ := leads_componentEdges.1 step
    refine ⟨h.isComponent_iff.2 ⟨i, hi, rfl⟩, fun other component next => ?_, graph.partAt j,
      h.isComponent_iff.2 ⟨j, hj, rfl⟩, (h.condensed_iff hi hj).2 step⟩
    obtain ⟨k, hk, rfl⟩ := h.isComponent_iff.1 component
    exact none k ((h.condensed_iff hk hi).1 next)

/-! ### Names -/

theorem pathOf_inj (hn : n < graph.nodes.length) (hm : m < graph.nodes.length)
    (same : graph.pathOf n = graph.pathOf m) : n = m := by
  refine (List.getElem?_inj (by simpa using hn) h.distinct).1 ?_
  simpa [pathOf, hn, hm] using same

/-- Different components have different names. -/
theorem eq_of_namedBy {a b : Set Nat} {path : Path} (ha : graph.IsComponent a)
    (hb : graph.IsComponent b) (first : graph.NamedBy a path) (second : graph.NamedBy b path) :
    a = b := by
  obtain ⟨n, inA, rfl⟩ := first.own
  obtain ⟨m, inB, same⟩ := second.own
  obtain rfl := h.pathOf_inj (h.lt_of_mem hb inB) (h.lt_of_mem ha inA) same
  rw [ha.eq_of_mem inA, hb.eq_of_mem inB]

/-- **Different components have different names.** -/
theorem eq_of_partName (hi : i < graph.partEdges.length) (hj : j < graph.partEdges.length)
    (same : graph.partName i = graph.partName j) : i = j := by
  rw [length_partEdges] at hi hj
  refine h.eq_of_partAt hi hj (h.eq_of_namedBy (h.isComponent_iff.2 ⟨i, hi, rfl⟩)
    (h.isComponent_iff.2 ⟨j, hj, rfl⟩) (namedBy_partName hi) ?_)
  rw [same]
  exact namedBy_partName hj

/-! ### The chains -/

/-- **The chain that is followed from a part is a longest one.** -/
theorem isLongestFrom_chainAt (bound : i < graph.parts.length) :
    graph.IsLongestFrom (graph.partAt i)
      (chainAt Path.order graph.partName graph.partEdges i) := by
  obtain ⟨rest, eq, way, long⟩ := exists_chainAt Path.order graph.partName h.acyclic i
  have bounds : ∀ j ∈ i :: rest, j < graph.parts.length := by
    rw [← length_partEdges] at bound ⊢
    exact List.forall_mem_cons.2 ⟨bound, h.acyclic.lt_of_way way⟩
  rw [eq]
  constructor
  · refine ⟨rest.map graph.partAt, h.isWay_iff.2 ⟨i :: rest, bounds, way, rfl⟩, ?_⟩
    rw [← List.map_cons, List.forall₂_map_left_iff, List.forall₂_map_right_iff, List.forall₂_same]
    exact fun j listed => namedBy_partName (bounds j listed)
  · intro other isWay
    -- any other way from here starts at the same place
    obtain ⟨places, bounds, chain, same⟩ := h.isWay_iff.1 isWay
    obtain ⟨k, others, rfl, first, rfl⟩ := List.map_eq_cons_iff.1 same
    obtain rfl := h.eq_of_partAt (bounds k List.mem_cons_self) bound first
    have most : others.length + 1 ≤
        chainLength Path.order graph.partName graph.partEdges k :=
      length_le_chainLength h.acyclic chain
    simp only [List.length_cons, List.length_map] at most long ⊢
    omega

/-- Every chain starts at such a component. -/
theorem exists_source_of_mem {chain : List Path}
    (listed : chain ∈ longestChains Path.order graph.partName graph.partEdges) :
    ∃ i, IsSource graph.partEdges i ∧
      chainAt Path.order graph.partName graph.partEdges i = chain ∧
      graph.IsLongestFrom (graph.partAt i) chain := by
  obtain ⟨i, source, rfl⟩ := (mem_longestChains h.acyclic).1 listed
  exact ⟨i, source, rfl, h.isLongestFrom_chainAt (lt_of_isSource source)⟩

/-- Without imports there are no chains. -/
theorem criticalPaths_eq_nil (none : graph.edges = []) (limit : Nat) :
    graph.criticalPaths limit = [] := by
  refine List.eq_nil_iff_forall_not_mem.2 fun chain listed => ?_
  obtain ⟨i, source, -⟩ := h.exists_source_of_mem (List.mem_of_mem_take listed)
  obtain ⟨j, step⟩ := source.someAfter
  obtain ⟨-, n, -, m, -, edge⟩ := leadsTo_iff.1 (leads_componentEdges.1 step).2.2
  rw [mem_successorsOf, none] at edge
  obtain ⟨_, listed, -⟩ := edge
  cases listed

/-- A chain is one of the longest from one component only. -/
theorem eq_of_isLongestFrom {a b : Set Nat} {chain : List Path}
    (first : graph.IsLongestFrom a chain) (second : graph.IsLongestFrom b chain) : a = b := by
  obtain ⟨rest, way, named⟩ := first.named
  obtain ⟨rest', way', named'⟩ := second.named
  cases named with
  | cons name _ =>
      cases named' with
      | cons name' _ =>
          exact h.eq_of_namedBy (way.components a List.mem_cons_self)
            (way'.components b List.mem_cons_self) name name'

/-- The first chain is as long as any way of two or more components. -/
theorem exists_head {way : List (Set Nat)} (isWay : graph.IsWay way) (long : 1 < way.length) :
    ∃ chain, (longestChains Path.order graph.partName graph.partEdges).head? = some chain ∧
      way.length ≤ chain.length := by
  obtain ⟨places, -, chain, rfl⟩ := h.isWay_iff.1 isWay
  rw [List.length_map] at long ⊢
  match places, long with
  | i :: j :: rest, _ => exact length_le_head h.acyclic h.eq_of_partName chain

/-- The first chain is as long as any way. -/
theorem length_le_first {first : List Path} {way : List (Set Nat)}
    (isFirst : (longestChains Path.order graph.partName graph.partEdges).head? = some first)
    (isWay : graph.IsWay way) : way.length ≤ first.length := by
  rcases Nat.lt_or_ge 1 way.length with long | short
  · obtain ⟨chain, isFirst', enough⟩ := h.exists_head isWay long
    rw [isFirst] at isFirst'
    cases isFirst'
    exact enough
  · obtain ⟨i, -, -, longest⟩ := h.exists_source_of_mem (List.mem_of_head? isFirst)
    obtain ⟨rest, one, -⟩ := longest.named
    have nonempty := longest.longest rest one
    rw [List.length_cons] at nonempty
    omega

end WellFormed

end ReferenceGraph

open ReferenceGraph (lt_of_isSource)

/-- **Critical paths are longest chains.** All that the limit cuts off is the end of one list of
chains. In it,

* longer chains come first, and those of one length are in the order of their paths;
* every component that leads somewhere and that nothing leads to has exactly one chain, which is as
  long as any path of the condensed graph from there, and every chain is the one of exactly one such
  component;
* with a limit of at least one, the first critical path is as long as any path of the condensed
  graph, and if there is none, no component leads to another. -/
theorem criticalPaths_longest (graph : ReferenceGraph) (h : graph.WellFormed) :
    ∃ chains : List (List Path),
      (∀ limit, graph.criticalPaths limit = chains.take limit) ∧
      chains.Pairwise (ListedBefore Path.order) ∧
      (∀ part, graph.IsStart part → ∃! chain, chain ∈ chains ∧ graph.IsLongestFrom part chain) ∧
      (∀ chain ∈ chains, ∃! part, graph.IsStart part ∧ graph.IsLongestFrom part chain) ∧
      ∀ limit, 1 ≤ limit →
        (∀ first, (graph.criticalPaths limit).head? = some first →
          ∀ way, graph.IsWay way → way.length ≤ first.length) ∧
        ((graph.criticalPaths limit).head? = none → ∀ way, graph.IsWay way → way.length ≤ 1) := by
  refine ⟨_, graph.criticalPaths_eq, pairwise_longestChains h.acyclic h.eq_of_partName,
    fun part start => ?_, fun chain listed => ?_, fun limit positive => ?_⟩
  · obtain ⟨i, source, rfl⟩ := h.isStart_iff.1 start
    refine ⟨_, ⟨(mem_longestChains h.acyclic).2 ⟨i, source, rfl⟩,
      h.isLongestFrom_chainAt (lt_of_isSource source)⟩, ?_⟩
    rintro chain ⟨listed, longest⟩
    obtain ⟨j, source', rfl, longest'⟩ := h.exists_source_of_mem listed
    rw [h.eq_of_partAt (lt_of_isSource source') (lt_of_isSource source)
      (h.eq_of_isLongestFrom longest' longest)]
  · obtain ⟨i, source, -, longest⟩ := h.exists_source_of_mem listed
    refine ⟨graph.partAt i, ⟨h.isStart_iff.2 ⟨i, source, rfl⟩, longest⟩, ?_⟩
    rintro part ⟨-, longest'⟩
    exact h.eq_of_isLongestFrom longest' longest
  · have same : (graph.criticalPaths limit).head? =
        (longestChains Path.order graph.partName graph.partEdges).head? := by
      rw [graph.criticalPaths_eq, List.head?_take, if_neg (by omega)]
    rw [same]
    refine ⟨fun first isFirst way isWay => h.length_le_first isFirst isWay, ?_⟩
    intro none way isWay
    by_contra long
    obtain ⟨chain, isFirst, -⟩ := h.exists_head isWay (Nat.lt_of_not_le long)
    rw [none] at isFirst
    cases isFirst

/-- A module that imports one of two modules that import each other. -/
def loopGraph : ReferenceGraph where
  nodes      := ["main.py", "right.py", "left.py"].map fun file => ⟨⟨[.name file]⟩, file, false⟩
  edges      := [⟨0, 1, [1]⟩, ⟨1, 2, [1]⟩, ⟨2, 1, [1]⟩]
  symbols    := []
  references := []
  external   := []
  cycles     := []

theorem successorsOf_loopGraph : successorsOf loopGraph.edges = fun n =>
    if n = 0 then [1] else if n = 1 then [2] else if n = 2 then [1] else [] := by
  funext n
  match n with
  | 0 => exact sortedSet_singleton ..
  | 1 => exact sortedSet_singleton ..
  | 2 => exact sortedSet_singleton ..
  | n + 3 => exact sortedSet_nil ..

/-- The two modules count as one, named by the first of their paths. -/
theorem criticalPaths_loopGraph :
    loopGraph.criticalPaths 1 = [[⟨[.name "main.py"]⟩, ⟨[.name "left.py"]⟩]] := by
  have chains : (sourcesOf Path.order loopGraph.partName loopGraph.partEdges).map
      (chainAt Path.order loopGraph.partName loopGraph.partEdges) =
        [[⟨[.name "main.py"]⟩, ⟨[.name "left.py"]⟩]] := by
    unfold ReferenceGraph.partName ReferenceGraph.partEdges ReferenceGraph.parts
    rw [successorsOf_loopGraph]
    decide +kernel
  rw [ReferenceGraph.criticalPaths_eq, longestChains_eq, chains, sortBy_singleton]
  rfl

/-- No path of the condensed graph has more than two components. -/
theorem criticalPaths_longest_loop : loopGraph.WellFormed ∧
    (loopGraph.criticalPaths 1).head? = some [⟨[.name "main.py"]⟩, ⟨[.name "left.py"]⟩] ∧
      ∀ way, loopGraph.IsWay way → way.length ≤ 2 := by
  have wellFormed : loopGraph.WellFormed := ⟨by decide, by decide⟩
  have first : (loopGraph.criticalPaths 1).head? =
      some [⟨[.name "main.py"]⟩, ⟨[.name "left.py"]⟩] := by
    rw [criticalPaths_loopGraph]
    rfl
  obtain ⟨chains, -, -, -, -, longest⟩ := criticalPaths_longest loopGraph wellFormed
  exact ⟨wellFormed, first, (longest 1 le_rfl).1 _ first⟩

end CodeSurvey
