import CodeSurvey.Proofs.Entries
import CodeSurvey.Proofs.Graph.Cycles
import CodeSurvey.Proofs.Graph.Links
import Mathlib.Algebra.Order.BigOperators.Group.Finset

/-!
# The cycles that the search does not miss

A search that is restarted from every node reports a cycle in every component of the graph that has
one, though not every cycle.

* `CycleSearch.potential` goes down with every step, so that the fuel of a search is never used up:
  `searchCycles_ends`.
* `CycleSearch.Accounted` is the invariant: every edge of a node that has been left behind leads
  to a node that was left behind before it, unless the node is on a reported cycle.
* `LeftInOrder.not_transGen`: so a cycle needs a node that is on a reported one.
* `findCycles_covers`: the search ends, every component of two or more modules has all the nodes of
  a reported cycle, and nothing is reported exactly if there is no cycle.
-/

namespace CodeSurvey

open Relation (TransGen ReflTransGen)

/-! ### The search ends -/

namespace CycleSearch

variable {successors : Nat → List Nat} {size : Nat} {search search' : CycleSearch}

/-- The nodes that the search has not met. -/
def unmet (size : Nat) (search : CycleSearch) : Finset Nat :=
  Finset.range size \ (search.closed ++ nodesOf search.stack).toFinset

/-- How many steps are left: one for each successor to be followed and for each node to be left,
on the path and among the nodes not met. -/
def potential (successors : Nat → List Nat) (size : Nat) (search : CycleSearch) : Nat :=
  ∑ n ∈ unmet size search, ((successors n).length + 1) +
    (search.stack.map fun frame => frame.remaining.length + 1).sum

/-- Whether the nodes to be followed are nodes of the graph. -/
def Within (size : Nat) (search : CycleSearch) : Prop :=
  ∀ frame ∈ search.stack, ∀ v ∈ frame.remaining, v < size

theorem Within.step (inside : ∀ n, ∀ v ∈ successors n, v < size)
    (taken : Step successors search search') (h : search.Within size) : search'.Within size := by
  have tail : ∀ {node v : Nat} {rest : List Nat} {below : List CycleFrame},
      (∀ frame ∈ ⟨node, v :: rest⟩ :: below, ∀ w ∈ frame.remaining, w < size) →
        ∀ frame ∈ ⟨node, rest⟩ :: below, ∀ w ∈ frame.remaining, w < size := by
    intro node v rest below h frame mem w later
    rcases List.mem_cons.1 mem with rfl | mem
    · exact h _ List.mem_cons_self w (.tail v later)
    · exact h frame (.tail _ mem) w later
  cases taken with
  | leave => exact fun frame mem => h frame (.tail _ mem)
  | meet => exact tail h
  | pass => exact tail h
  | @enter node v rest below closed cycles =>
      intro frame mem
      rcases List.mem_cons.1 mem with rfl | mem
      · exact inside v
      · exact tail h frame mem

/-- A node that is entered was not met before. -/
theorem potential_enter {closed : List Nat} {cycles : List (List Nat)} {stack : List CycleFrame}
    {v : Nat} (bound : v < size) (off : v ∉ nodesOf stack) (fresh : v ∉ closed) :
    potential successors size ⟨⟨v, successors v⟩ :: stack, closed, cycles⟩ =
      potential successors size ⟨stack, closed, cycles⟩ := by
  have unseen : v ∈ unmet size ⟨stack, closed, cycles⟩ := by
    simp only [unmet, Finset.mem_sdiff, Finset.mem_range, List.mem_toFinset, List.mem_append]
    exact ⟨bound, fun h => h.elim fresh off⟩
  have fewer : unmet size ⟨⟨v, successors v⟩ :: stack, closed, cycles⟩ =
      (unmet size ⟨stack, closed, cycles⟩).erase v := by
    ext n
    simp only [unmet, Finset.mem_erase, Finset.mem_sdiff, Finset.mem_range, List.mem_toFinset,
      List.mem_append, mem_nodesOf_cons]
    tauto
  have split := Finset.add_sum_erase _ (fun n => (successors n).length + 1) unseen
  simp only [potential, fewer, List.map_cons, List.sum_cons] at split ⊢
  omega

/-- **Every step uses up one of those that are left.** -/
theorem potential_step (within : search.Within size) (taken : Step successors search search') :
    search'.potential successors size + 1 = search.potential successors size := by
  -- following a successor changes nothing about the nodes met
  have follow : ∀ {node v : Nat} {rest closed : List Nat} {below : List CycleFrame}
      (cycles cycles' : List (List Nat)),
      potential successors size ⟨⟨node, rest⟩ :: below, closed, cycles⟩ + 1 =
        potential successors size ⟨⟨node, v :: rest⟩ :: below, closed, cycles'⟩ := by
    intro node v rest closed below cycles cycles'
    have same : unmet size ⟨⟨node, rest⟩ :: below, closed, cycles⟩ =
        unmet size ⟨⟨node, v :: rest⟩ :: below, closed, cycles'⟩ := rfl
    simp only [potential, same, List.map_cons, List.sum_cons, List.length_cons]
    omega
  cases taken with
  | @leave node below closed cycles =>
      have same : unmet size ⟨below, node :: closed, cycles⟩ =
          unmet size ⟨⟨node, []⟩ :: below, closed, cycles⟩ := by
        ext n
        simp only [unmet, Finset.mem_sdiff, Finset.mem_range, List.mem_toFinset, List.mem_append,
          List.mem_cons, mem_nodesOf_cons]
        tauto
      simp only [potential, same, List.map_cons, List.sum_cons, List.length_nil]
      omega
  | meet => exact follow ..
  | pass => exact follow ..
  | @enter node v rest below closed cycles off fresh =>
      have bound : v < size := within _ List.mem_cons_self v List.mem_cons_self
      have off : v ∉ nodesOf (⟨node, rest⟩ :: below) := off
      rw [potential_enter bound off fresh]
      exact follow ..

theorem stack_eq_nil_of_potential (h : search.potential successors size = 0) :
    search.stack = [] := by
  cases eq : search.stack with
  | nil => rfl
  | cons frame below =>
      simp only [potential, eq, List.map_cons, List.sum_cons] at h
      omega

/-- With a step of fuel for each that is left, a run ends, and more fuel changes nothing. -/
theorem run_ends (inside : ∀ n, ∀ v ∈ successors n, v < size) :
    ∀ {fuel fuel' : Nat} {search : CycleSearch}, search.Within size →
      search.potential successors size ≤ fuel → search.potential successors size ≤ fuel' →
      (run successors fuel search).stack = [] ∧
        run successors fuel' search = run successors fuel search := by
  intro fuel
  induction fuel with
  | zero =>
      intro fuel' search within enough _
      have ended : search.stack = [] := stack_eq_nil_of_potential (Nat.le_zero.1 enough)
      exact ⟨ended, run_of_ended ended fuel'⟩
  | succ fuel ih =>
      intro fuel' search within enough enough'
      by_cases ended : search.stack = []
      · rw [run_of_ended ended, run_of_ended ended]
        exact ⟨ended, rfl⟩
      · have taken : Step successors search (search.step successors) := step_step ended
        have fewer := potential_step within taken
        obtain ⟨fuel', rfl⟩ : ∃ n, fuel' = n + 1 := ⟨fuel' - 1, by omega⟩
        have working : search.stack.isEmpty = false := by simpa using ended
        rw [run, run, working]
        exact ih (within.step inside taken) (by omega) (by omega)

theorem potential_lt {node : Nat} (bound : node < size) (fresh : node ∉ search.closed) :
    potential successors size { search with stack := [⟨node, successors node⟩] } <
      cycleFuel size successors := by
  rw [potential_enter bound (by simp) fresh, cycleFuel]
  have whole : ∑ n ∈ unmet size { search with stack := [] }, ((successors n).length + 1) ≤
      ∑ n ∈ Finset.range size, ((successors n).length + 1) :=
    Finset.sum_le_sum_of_subset Finset.sdiff_subset
  have listed : ∑ n ∈ Finset.range size, ((successors n).length + 1) =
      ((List.range size).map fun n => (successors n).length + 1).sum := rfl
  simp only [potential, List.map_nil, List.sum_nil]
  omega

end CycleSearch

/-- **A search ends**: with the fuel that it is given or more, every path is followed to its end,
and the result is the same. -/
theorem searchCycles_ends {successors : Nat → List Nat} {size fuel : Nat}
    (inside : ∀ n, ∀ v ∈ successors n, v < size) (enough : cycleFuel size successors ≤ fuel) :
    ∀ k ≤ size, (searchCycles fuel successors k).stack = [] ∧
      searchCycles fuel successors k = searchCycles (cycleFuel size successors) successors k
  | 0, _     => ⟨rfl, rfl⟩
  | k + 1, h => by
      obtain ⟨ended, same⟩ := searchCycles_ends inside enough k (Nat.le_of_succ_le h)
      rw [searchCycles_succ, searchCycles_succ, ← same]
      generalize searchCycles fuel successors k = search at ended
      by_cases behind : k ∈ search.closed
      · simp only [CycleSearch.visit, if_pos behind]
        exact ⟨ended, trivial⟩
      · have bound : CycleSearch.potential successors size
            { search with stack := [⟨k, successors k⟩] } < cycleFuel size successors :=
          CycleSearch.potential_lt h behind
        have within : CycleSearch.Within size { search with stack := [⟨k, successors k⟩] } := by
          intro frame mem
          rw [List.mem_singleton.1 mem]
          exact inside k
        simp only [CycleSearch.visit, if_neg behind]
        have runs := CycleSearch.run_ends inside within (by omega : _ ≤ fuel) (Nat.le_of_lt bound)
        exact ⟨runs.1, runs.2.symm⟩

/-! ### Nodes are left in order -/

/-- Whether nodes have been left in order, the last one first: every edge of a node leads to one
that was left before it, unless the node is on a reported cycle. -/
def LeftInOrder (successors : Nat → List Nat) (cycles : List (List Nat)) : List Nat → Prop
  | []           => True
  | node :: left =>
    (∀ v ∈ successors node, v ∈ left ∨ ∃ cycle ∈ cycles, node ∈ cycle) ∧
      LeftInOrder successors cycles left

/-- Whether every edge of the nodes on a path is accounted for: it is still to be followed, it leads
to a node that has been left, the node is on a reported cycle, or it is the edge that the path takes
to its next node, if there is one. -/
def Followed (successors : Nat → List Nat) (closed : List Nat) (cycles : List (List Nat)) :
    Option Nat → List CycleFrame → Prop
  | _, []              => True
  | next, frame :: below =>
    (∀ v ∈ successors frame.node, v ∈ frame.remaining ∨ v ∈ closed ∨ some v = next ∨
      ∃ cycle ∈ cycles, frame.node ∈ cycle) ∧
      Followed successors closed cycles (some frame.node) below

section

variable {successors : Nat → List Nat} {cycles cycles' : List (List Nat)}

theorem LeftInOrder.mono (more : cycles ⊆ cycles') : ∀ {left : List Nat},
    LeftInOrder successors cycles left → LeftInOrder successors cycles' left
  | [], _          => trivial
  | _ :: _, ⟨h, hs⟩ =>
      ⟨fun v hv => (h v hv).imp_right fun ⟨cycle, mem, on⟩ => ⟨cycle, more mem, on⟩, hs.mono more⟩

theorem Followed.mono {closed closed' : List Nat} (behind : closed ⊆ closed')
    (more : cycles ⊆ cycles') : ∀ {next next' : Option Nat} {stack : List CycleFrame},
      (∀ v, some v = next → some v = next' ∨ v ∈ closed') →
      Followed successors closed cycles next stack → Followed successors closed' cycles' next' stack
  | _, _, [], _, _           => trivial
  | _, _, _ :: _, kept, ⟨h, hs⟩ => by
      refine ⟨fun v hv => ?_, hs.mono behind more fun v => .inl⟩
      rcases h v hv with later | left | onward | ⟨cycle, mem, on⟩
      · exact .inl later
      · exact .inr (.inl (behind left))
      · exact (kept v onward).elim (fun h => .inr (.inr (.inl h))) fun h => .inr (.inl h)
      · exact .inr (.inr (.inr ⟨cycle, more mem, on⟩))

/-- An edge from a node that is on no reported cycle. -/
def QuietEdge (successors : Nat → List Nat) (cycles : List (List Nat)) (a b : Nat) : Prop :=
  b ∈ successors a ∧ ∀ cycle ∈ cycles, a ∉ cycle

theorem LeftInOrder.mem_of_quietEdge {a b : Nat} (quiet : QuietEdge successors cycles a b) :
    ∀ {left : List Nat}, LeftInOrder successors cycles left → a ∈ left → b ∈ left
  | node :: left, ⟨h, hs⟩, mem => by
      rcases List.mem_cons.1 mem with rfl | mem
      · rcases h b quiet.1 with before | ⟨cycle, reported, on⟩
        · exact .tail _ before
        · exact absurd on (quiet.2 cycle reported)
      · exact .tail _ (hs.mem_of_quietEdge quiet mem)

theorem LeftInOrder.mem_of_transGen {left : List Nat} (h : LeftInOrder successors cycles left)
    {a b : Nat} (way : TransGen (QuietEdge successors cycles) a b) (mem : a ∈ left) : b ∈ left := by
  induction way with
  | single quiet => exact h.mem_of_quietEdge quiet mem
  | tail _ quiet ih => exact h.mem_of_quietEdge quiet ih

/-- **A cycle needs a node that is on a reported one.** Otherwise its edges would lead to nodes left
ever earlier. -/
theorem LeftInOrder.not_transGen {a : Nat} : ∀ {left : List Nat},
    LeftInOrder successors cycles left → a ∈ left →
      ¬ TransGen (QuietEdge successors cycles) a a
  | node :: left, h, mem, way => by
      -- the first edge leads to what was left before the first node, and so do all after it
      have earlier : a ∈ left := by
        rcases List.mem_cons.1 mem with rfl | mem
        · obtain ⟨next, quiet, later⟩ := TransGen.head'_iff.1 way
          have next_mem : next ∈ left := by
            rcases h.1 next quiet.1 with before | ⟨cycle, reported, on⟩
            · exact before
            · exact absurd on (quiet.2 cycle reported)
          rcases Relation.reflTransGen_iff_eq_or_transGen.1 later with same | later
          · exact same ▸ next_mem
          · exact h.2.mem_of_transGen later next_mem
        · exact mem
      exact h.2.not_transGen earlier way

end

namespace CycleSearch

variable {successors : Nat → List Nat} {search search' : CycleSearch}

/-- Every edge of the nodes that have been met is accounted for. -/
structure Accounted (successors : Nat → List Nat) (search : CycleSearch) : Prop where
  left     : LeftInOrder successors search.cycles search.closed
  followed : Followed successors search.closed search.cycles none search.stack

theorem Accounted.start (h : search.Accounted successors) (node : Nat) :
    Accounted successors { search with stack := [⟨node, successors node⟩] } :=
  ⟨h.left, fun _ => .inl, trivial⟩

/-- **A step accounts for the edge that it follows.** -/
theorem Accounted.step (taken : Step successors search search') (h : search.Accounted successors) :
    search'.Accounted successors := by
  obtain ⟨left, followed⟩ := h
  cases taken with
  | @leave node below closed cycles =>
      obtain ⟨all, below⟩ := followed
      refine ⟨⟨fun v hv => ?_, left⟩, below.mono (List.subset_cons_self ..) (.refl _) ?_⟩
      · rcases all v hv with later | before | onward | reported
        · cases later
        · exact .inl before
        · cases onward
        · exact .inr reported
      · rintro v ⟨⟩
        exact .inr List.mem_cons_self
  | @meet node v rest below closed cycles on =>
      have more : cycles ⊆ note cycles (closing (⟨node, v :: rest⟩ :: below) v) :=
        fun _ mem => mem_note.2 (.inl mem)
      obtain ⟨-, below⟩ := followed
      refine ⟨left.mono more, fun w _ => ?_, below.mono (.refl _) more fun _ => .inl⟩
      exact .inr (.inr (.inr ⟨_, mem_note.2 (.inr rfl), mem_closing on⟩))
  | @pass node v rest below closed cycles behind =>
      obtain ⟨all, below⟩ := followed
      refine ⟨left, fun w hw => ?_, below⟩
      rcases all w hw with later | rest
      · rcases List.mem_cons.1 later with rfl | later
        · exact .inr (.inl behind)
        · exact .inl later
      · exact .inr rest
  | @enter node v rest below closed cycles off fresh =>
      obtain ⟨all, below⟩ := followed
      refine ⟨left, fun w => .inl, fun w hw => ?_, below⟩
      rcases all w hw with later | before | onward | reported
      · rcases List.mem_cons.1 later with rfl | later
        · exact .inr (.inr (.inl rfl))
        · exact .inl later
      · exact .inr (.inl before)
      · cases onward
      · exact .inr (.inr (.inr reported))

/-- A node that has been met stays met. -/
theorem met_step {n : Nat} (taken : Step successors search search')
    (h : n ∈ search.closed ∨ n ∈ nodesOf search.stack) :
    n ∈ search'.closed ∨ n ∈ nodesOf search'.stack := by
  cases taken <;> simp only [mem_nodesOf_cons, List.mem_cons] at h ⊢ <;> tauto

end CycleSearch

theorem accounted_searchCycles (fuel : Nat) (successors : Nat → List Nat) (size : Nat) :
    (searchCycles fuel successors size).Accounted successors :=
  searchCycles_keeps ⟨trivial, trivial⟩ (fun node _ h => h.start node) .step size

/-- **Every node is left behind.** -/
theorem mem_closed_searchCycles {successors : Nat → List Nat} {size fuel : Nat}
    (inside : ∀ n, ∀ v ∈ successors n, v < size) (enough : cycleFuel size successors ≤ fuel) :
    ∀ k ≤ size, ∀ n < k, n ∈ (searchCycles fuel successors k).closed
  | k + 1, h, n, lt => by
      have ended := (searchCycles_ends inside enough (k + 1) h).1
      have ih := mem_closed_searchCycles inside enough k (Nat.le_of_succ_le h)
      rw [searchCycles_succ] at ended ⊢
      generalize searchCycles fuel successors k = search at ended ih ⊢
      have met : n ∈ (search.visit successors fuel k).closed ∨
          n ∈ CycleSearch.nodesOf (search.visit successors fuel k).stack := by
        by_cases behind : k ∈ search.closed
        · rw [CycleSearch.visit, if_pos behind]
          rcases Nat.lt_succ_iff_lt_or_eq.1 lt with lt | rfl
          · exact .inl (ih n lt)
          · exact .inl behind
        · rw [CycleSearch.visit, if_neg behind]
          refine CycleSearch.run_keeps CycleSearch.met_step fuel ?_
          rcases Nat.lt_succ_iff_lt_or_eq.1 lt with lt | rfl
          · exact .inl (ih n lt)
          · exact .inr (by simp)
      rw [ended] at met
      simpa using met

/-! ### Components -/

section

variable {edge : Nat → Nat → Prop}

/-- Two nodes are in one component if a way leads from each to the other. -/
def SameComponent (edge : Nat → Nat → Prop) (a b : Nat) : Prop :=
  ReflTransGen edge a b ∧ ReflTransGen edge b a

theorem IsCycle.transGen {cycle : List Nat} (h : IsCycle edge cycle) {a b : Nat}
    (ha : a ∈ cycle) (hb : b ∈ cycle) : TransGen edge a b := by
  obtain ⟨first, rest, rfl, chain⟩ := h.closed
  have round : Cycle.Chain (TransGen edge) (first :: rest : List Nat) :=
    ((Cycle.chain_coe_cons edge first rest).2 chain).imp fun _ _ => .single
  exact Cycle.chain_iff_pairwise.1 round a ha b hb

/-- If no node of a component is on a reported cycle, all its edges are quiet. -/
theorem transGen_quietEdge {successors : Nat → List Nat} {cycles : List (List Nat)} {a b : Nat}
    (quiet : ∀ n, SameComponent (fun a b => b ∈ successors a) a n → ∀ cycle ∈ cycles, n ∉ cycle)
    (out : ReflTransGen (fun a b => b ∈ successors a) a b)
    (back : TransGen (fun a b => b ∈ successors a) b a) :
    TransGen (QuietEdge successors cycles) b a := by
  induction back using TransGen.head_induction_on with
  | single last => exact .single ⟨last, quiet _ ⟨out, .single last⟩⟩
  | head next later ih =>
      exact .head ⟨next, quiet _ ⟨out, later.to_reflTransGen.head next⟩⟩ (ih (out.tail next))

/-- **A component with a cycle has all the nodes of a reported one.** -/
theorem exists_cycle_of_transGen {successors : Nat → List Nat} {size a : Nat}
    (inside : ∀ n, ∀ v ∈ successors n, v < size) (bound : a < size)
    (way : TransGen (fun a b => b ∈ successors a) a a) :
    ∃ cycle ∈ findCycles size successors,
      ∀ n ∈ cycle, SameComponent (fun a b => b ∈ successors a) a n := by
  by_contra none
  have left := (accounted_searchCycles (cycleFuel size successors) successors size).left
  have behind := mem_closed_searchCycles inside le_rfl size le_rfl a bound
  refine left.not_transGen behind (transGen_quietEdge (fun n same cycle reported on => none ?_)
    .refl way)
  -- a reported cycle through a node of the component lies in the component
  refine ⟨cycle, reported, fun m hm => ?_⟩
  have real := isCycle_of_mem_findCycles reported
  exact ⟨same.1.trans (real.transGen on hm).to_reflTransGen,
    (real.transGen hm on).to_reflTransGen.trans same.2⟩

end

/-! ### The import graph -/

section

variable {files : List FileIndex}

theorem moduleNamed_lt {name : String} {m : Nat} (h : moduleNamed files name = some m) :
    m < files.length :=
  (List.findIdx?_eq_some_iff_getElem.1 h).1

theorem findModule_lt {candidate : String} {importer m : Nat} {isAbsolute : Bool}
    (h : findModule files candidate importer isAbsolute = some m) : m < files.length := by
  rw [findModule.eq_def] at h
  split at h
  · rename_i named
    exact moduleNamed_lt (named.trans h)
  · split at h
    · cases h
    · simp only at h
      split at h
      · rename_i sibling
        split at sibling
        · cases sibling
        · exact moduleNamed_lt (sibling.trans h)
      · obtain ⟨name, -, named⟩ := Option.bind_eq_some_iff.1 h
        exact moduleNamed_lt named

theorem resolveParts_lt {importer : Nat} {isAbsolute : Bool} {parts : List String}
    {target : ImportTarget} : ∀ {n : Nat},
      resolveParts files importer isAbsolute parts n = some target → target.module < files.length
  | n + 1, h => by
      rw [resolveParts] at h
      split at h
      · rename_i found
        cases h
        exact findModule_lt found
      · exact resolveParts_lt h

/-- An import leads to a file of the project or nowhere. -/
theorem resolveImport_lt {importer : Nat} {entry : Import} {target : ImportTarget}
    (h : resolveImport files importer entry = some target) : target.module < files.length := by
  rw [resolveImport, resolveDotted] at h
  split at h
  · exact resolveParts_lt h
  · split at h
    · cases h
    · exact resolveParts_lt h

/-- The edges of the import graph join its nodes. -/
theorem importEdges_inside {edge : ImportEdge} (h : edge ∈ importEdges files) :
    edge.source < files.length ∧ edge.target < files.length := by
  obtain ⟨⟨file, i⟩, there, listed⟩ := List.mem_flatMap.1 h
  obtain ⟨m, target, rfl⟩ := List.mem_map.1 listed
  obtain ⟨⟨m, line⟩, found, rfl⟩ := List.mem_map.1 (mem_of_mem_sortedSet target)
  obtain ⟨-, entry, -, -, rest, leads⟩ := mem_importedModules.1 found
  have there : files[i]? = some file := List.mem_zipIdx_iff_getElem?.1 there
  exact ⟨(List.getElem?_eq_some_iff.1 there).1, resolveImport_lt leads⟩

end

section

variable {size : Nat} {edges : List ImportEdge}

theorem successorsOf_lt (inside : ∀ edge ∈ edges, edge.source < size ∧ edge.target < size) :
    ∀ n, ∀ v ∈ successorsOf edges n, v < size := by
  intro n v hv
  obtain ⟨edge, listed, -, rfl⟩ := mem_successorsOf.1 hv
  exact (inside edge listed).2

/-- A component with a cycle has all the nodes of a reported one, in the words of edges. -/
theorem exists_cycle_of_imports
    (inside : ∀ edge ∈ edges, edge.source < size ∧ edge.target < size) {a : Nat}
    (way : TransGen (Imports edges) a a) :
    ∃ cycle ∈ findCycles size (successorsOf edges),
      ∀ n ∈ cycle, SameComponent (Imports edges) a n := by
  obtain ⟨next, ⟨edge, listed, rfl, -⟩, -⟩ := TransGen.head'_iff.1 way
  rw [imports_eq] at way ⊢
  exact exists_cycle_of_transGen (successorsOf_lt inside) (inside edge listed).1 way

theorem findCycles_eq_nil_iff (inside : ∀ edge ∈ edges, edge.source < size ∧ edge.target < size) :
    findCycles size (successorsOf edges) = [] ↔ ∀ n, ¬ TransGen (Imports edges) n n := by
  constructor
  · intro none n way
    obtain ⟨cycle, reported, -⟩ := exists_cycle_of_imports inside way
    rw [none] at reported
    cases reported
  · intro acyclic
    refine List.eq_nil_iff_forall_not_mem.2 fun cycle reported => ?_
    have real : IsCycle (Imports edges) cycle := by
      rw [imports_eq]
      exact isCycle_of_mem_findCycles reported
    obtain ⟨first, rest, rfl, -⟩ := real.closed
    exact acyclic first (real.transGen List.mem_cons_self List.mem_cons_self)

end

/-- **The search for cycles misses no component.** For a graph of `size` nodes:

* the search ends: whatever fuel it gets from a bound on, every path is followed to its end and the
  same cycles are reported;
* every component of two or more nodes has all the nodes of a reported cycle;
* nothing is reported exactly if the graph has no cycle. In particular, a project has no cycles
  exactly if its import graph has none. -/
theorem findCycles_covers (size : Nat) (edges : List ImportEdge)
    (inside : ∀ edge ∈ edges, edge.source < size ∧ edge.target < size) :
    (∀ fuel, cycleFuel size (successorsOf edges) ≤ fuel →
      (∀ k ≤ size, (searchCycles fuel (successorsOf edges) k).stack = []) ∧
      (searchCycles fuel (successorsOf edges) size).cycles =
        findCycles size (successorsOf edges)) ∧
    (∀ a b, a ≠ b → SameComponent (Imports edges) a b →
      ∃ cycle ∈ findCycles size (successorsOf edges),
        ∀ n ∈ cycle, SameComponent (Imports edges) a n) ∧
    (findCycles size (successorsOf edges) = [] ↔ ∀ n, ¬ TransGen (Imports edges) n n) ∧
    ∀ files : List FileIndex, (buildGraph files).cycles = [] ↔
      ∀ n, ¬ TransGen (Imports (buildGraph files).edges) n n := by
  have targets := successorsOf_lt inside
  refine ⟨fun fuel enough => ⟨fun k hk => (searchCycles_ends targets enough k hk).1, ?_⟩,
    fun a b ne same => ?_, findCycles_eq_nil_iff inside, fun files => ?_⟩
  · rw [(searchCycles_ends targets enough size le_rfl).2]
    rfl
  · have out : TransGen (Imports edges) a b :=
      (Relation.reflTransGen_iff_eq_or_transGen.1 same.1).resolve_left (Ne.symm ne)
    exact exists_cycle_of_imports inside (out.trans_left same.2)
  · have inside : ∀ edge ∈ importEdges files, edge.source < (files.map moduleNode).length ∧
        edge.target < (files.map moduleNode).length := by
      intro edge listed
      simpa using importEdges_inside listed
    exact List.map_eq_nil_iff.trans (findCycles_eq_nil_iff inside)

/-- Two modules that import each other, and a third one that the second imports. -/
def pairEdges : List ImportEdge :=
  [⟨0, 1, [1]⟩, ⟨1, 0, [1]⟩, ⟨1, 2, [2]⟩]

/-- The component of two modules that import each other has a reported cycle. -/
theorem findCycles_covers_pair :
    (∀ edge ∈ pairEdges, edge.source < 3 ∧ edge.target < 3) ∧
      SameComponent (Imports pairEdges) 0 1 ∧
      ∃ cycle ∈ findCycles 3 (successorsOf pairEdges),
        ∀ n ∈ cycle, SameComponent (Imports pairEdges) 0 n := by
  have inside : ∀ edge ∈ pairEdges, edge.source < 3 ∧ edge.target < 3 := by decide
  have out : Imports pairEdges 0 1 := ⟨⟨0, 1, [1]⟩, by decide, rfl, rfl⟩
  have back : Imports pairEdges 1 0 := ⟨⟨1, 0, [1]⟩, by decide, rfl, rfl⟩
  have same : SameComponent (Imports pairEdges) 0 1 := ⟨.single out, .single back⟩
  exact ⟨inside, same, (findCycles_covers 3 pairEdges inside).2.1 0 1 (by decide) same⟩

end CodeSurvey
