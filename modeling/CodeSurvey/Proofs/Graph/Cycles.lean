import CodeSurvey.Graph.Build
import CodeSurvey.Proofs.Order
import Mathlib.Algebra.GroupWithZero.Nat
import Mathlib.Data.List.Cycle

/-!
# The cycles that the search reports

The search keeps a path of nodes, each with an edge to the next, and reports the part of the path
that an edge from its end closes.

* `CycleSearch.Step` lists the four things that a step of the search does, and
  `searchCycles_keeps` is the induction over a whole search: what holds of the empty search, when
  a path is begun, and after a step, holds in the end.
* `CycleSearch.Sound` is what a search keeps: no node is on its path twice, and all that it has
  reported are cycles.
* `IsCycle.eq_of_isRotated`: a cycle is written from its lowest node on in one way only.
* `findCycles_real`: every list that is reported is a cycle of the import graph that starts at its
  lowest node, and no two of them are the same cycle.
-/

namespace CodeSurvey

/-- Whether some edge leads from a node to another. -/
def Imports (edges : List ImportEdge) (a b : Nat) : Prop :=
  ∃ edge ∈ edges, edge.source = a ∧ edge.target = b

theorem mem_successorsOf {edges : List ImportEdge} {a b : Nat} :
    b ∈ successorsOf edges a ↔ Imports edges a b := by
  simp only [successorsOf, mem_sortedSet, List.mem_map, List.mem_filter, decide_eq_true_eq]
  constructor
  · rintro ⟨edge, ⟨listed, source⟩, target⟩
    exact ⟨edge, listed, source, target⟩
  · rintro ⟨edge, listed, source, target⟩
    exact ⟨edge, ⟨listed, source⟩, target⟩

theorem imports_eq (edges : List ImportEdge) :
    Imports edges = fun a b => b ∈ successorsOf edges a := by
  funext a b
  exact propext mem_successorsOf.symm

/-! ### Cycles -/

/-- A cycle of a graph, written from its lowest node on: no node is there twice, each has an edge
to the next one, and the last has one to the first. -/
structure IsCycle (edge : Nat → Nat → Prop) (cycle : List Nat) : Prop where
  nodup  : cycle.Nodup
  closed : ∃ first rest, cycle = first :: rest ∧ (first :: (rest ++ [first])).IsChain edge
  lowest : ∀ first ∈ cycle.head?, ∀ n ∈ cycle, first ≤ n

section

variable {edge : Nat → Nat → Prop} {cycle : List Nat}

/-- A list that is cut where an item stands begins with it. -/
theorem head?_dropWhile {v : Nat} : ∀ {nodes : List Nat},
    v ∈ nodes → ∃ rest, nodes.dropWhile (· ≠ v) = v :: rest
  | n :: rest, h => by
      by_cases same : n = v
      · subst same
        exact ⟨rest, by simp⟩
      · have later : v ∈ rest := (List.mem_cons.1 h).resolve_left (Ne.symm same)
        obtain ⟨after, eq⟩ := head?_dropWhile later
        exact ⟨after, by rw [List.dropWhile_cons_of_pos (by simpa using same), eq]⟩

/-- Turning a cycle to its lowest node is a rotation. -/
theorem isRotated_rotateToLowest (cycle : List Nat) : (rotateToLowest cycle).IsRotated cycle := by
  rw [rotateToLowest]
  split
  · rfl
  · rename_i lowest _
    have rotated : (cycle.dropWhile (· ≠ lowest) ++ cycle.takeWhile (· ≠ lowest)).IsRotated
        (cycle.takeWhile (· ≠ lowest) ++ cycle.dropWhile (· ≠ lowest)) := List.isRotated_append
    rwa [List.takeWhile_append_dropWhile] at rotated

/-- The first item of a turned cycle is its lowest. -/
theorem rotateToLowest_lowest (cycle : List Nat) :
    ∀ first ∈ (rotateToLowest cycle).head?, ∀ n ∈ rotateToLowest cycle, first ≤ n := by
  intro first head n mem
  have mem : n ∈ cycle := (isRotated_rotateToLowest cycle).mem_iff.1 mem
  rw [rotateToLowest] at head
  split at head
  · rename_i none
    rw [List.min?_eq_none_iff.1 none] at mem
    cases mem
  · rename_i lowest least
    obtain ⟨there, below⟩ := List.min?_eq_some_iff.1 least
    obtain ⟨rest, eq⟩ := head?_dropWhile there
    rw [eq] at head
    cases head
    exact below n mem

/-- A path whose last node has an edge to its first is a cycle, once it is turned. -/
theorem isCycle_rotateToLowest {first : Nat} {rest : List Nat}
    (nodup : (first :: rest).Nodup) (chain : (first :: (rest ++ [first])).IsChain edge) :
    IsCycle edge (rotateToLowest (first :: rest)) := by
  have rotated := isRotated_rotateToLowest (first :: rest)
  have turned : Cycle.Chain edge (rotateToLowest (first :: rest) : Cycle Nat) := by
    rw [Cycle.coe_eq_coe.2 rotated]
    exact (Cycle.chain_coe_cons ..).2 chain
  refine ⟨rotated.nodup_iff.2 nodup, ?_, rotateToLowest_lowest _⟩
  cases eq : rotateToLowest (first :: rest) with
  | nil =>
      rw [eq] at rotated
      exact absurd rotated.perm.nil_eq (by simp)
  | cons first' rest' =>
      rw [eq] at turned
      exact ⟨first', rest', rfl, (Cycle.chain_coe_cons ..).1 turned⟩

/-- **A cycle is written from its lowest node on in one way only.** -/
theorem IsCycle.eq_of_isRotated {a b : List Nat} (ha : IsCycle edge a) (hb : IsCycle edge b)
    (rotated : a.IsRotated b) : a = b := by
  obtain ⟨first, rest, rfl, -⟩ := ha.closed
  obtain ⟨first', rest', rfl, -⟩ := hb.closed
  have same : first = first' :=
    Nat.le_antisymm
      (ha.lowest first rfl first' (rotated.mem_iff.2 List.mem_cons_self))
      (hb.lowest first' rfl first (rotated.mem_iff.1 List.mem_cons_self))
  subst same
  obtain ⟨n, bound, eq⟩ := List.isRotated_iff_mod.1 rotated
  rcases Nat.eq_zero_or_pos n with rfl | pos
  · simpa using eq
  · rcases Nat.lt_or_eq_of_le bound with lt | rfl
    · -- the node at the place the rotation starts from would be there twice
      have head : ((first :: rest).rotate n).head? = (first :: rest)[n]? := List.head?_rotate lt
      rw [eq, List.head?_cons] at head
      have zero : (0 : Nat) = n := (List.getElem?_inj (Nat.zero_lt_succ _) ha.nodup).1 head
      omega
    · rw [List.rotate_length] at eq
      exact eq

end

/-! ### The steps of the search -/

namespace CycleSearch

variable {successors : Nat → List Nat}

/-- The nodes on the path of a stack, from its start. -/
abbrev nodesOf (stack : List CycleFrame) : List Nat :=
  (stack.map CycleFrame.node).reverse

theorem mem_nodesOf_cons {n : Nat} {frame : CycleFrame} {below : List CycleFrame} :
    n ∈ nodesOf (frame :: below) ↔ n = frame.node ∨ n ∈ nodesOf below := by
  simp

/-- The cycle that an edge from the end of a path back to one of its nodes closes. -/
abbrev closing (stack : List CycleFrame) (v : Nat) : List Nat :=
  rotateToLowest ((nodesOf stack).dropWhile (· ≠ v))

/-- The part of a path from one of its nodes on ends where the path does. -/
theorem exists_suffix_of_mem {v : Nat} {frame : CycleFrame} {below : List CycleFrame}
    (on : v ∈ nodesOf (frame :: below)) :
    ∃ after, (nodesOf (frame :: below)).dropWhile (· ≠ v) = v :: after ∧
      v :: after <:+ nodesOf (frame :: below) ∧ (v :: after).getLast? = some frame.node := by
  obtain ⟨after, eq⟩ := head?_dropWhile on
  have suffix : v :: after <:+ nodesOf (frame :: below) := eq ▸ List.dropWhile_suffix _
  refine ⟨after, eq, suffix, ?_⟩
  obtain ⟨before, split⟩ := suffix
  have whole : (before ++ v :: after).getLast? = some frame.node := by rw [split]; simp
  rwa [List.getLast?_append_cons] at whole

/-- The cycle that is closed has the node on top of the stack. -/
theorem mem_closing {v : Nat} {frame : CycleFrame} {below : List CycleFrame}
    (on : v ∈ nodesOf (frame :: below)) : frame.node ∈ closing (frame :: below) v := by
  obtain ⟨after, eq, -, last⟩ := exists_suffix_of_mem on
  rw [closing, eq]
  exact (isRotated_rotateToLowest _).mem_iff.2 (List.mem_of_getLast? last)

/-- Noting a cycle adds it to those that have been found. -/
theorem mem_note {cycles : List (List Nat)} {cycle c : List Nat} :
    c ∈ note cycles cycle ↔ c ∈ cycles ∨ c = cycle := by
  by_cases old : cycle ∈ cycles
  · rw [note, if_pos old]
    exact ⟨.inl, fun h => h.elim id (· ▸ old)⟩
  · rw [note, if_neg old, List.mem_append, List.mem_singleton]

/-- No cycle is noted twice. -/
theorem nodup_note {cycles : List (List Nat)} (h : cycles.Nodup) (cycle : List Nat) :
    (note cycles cycle).Nodup := by
  by_cases old : cycle ∈ cycles
  · rwa [note, if_pos old]
  · rw [note, if_neg old]
    exact List.Nodup.append h (List.nodup_singleton cycle) (by simpa using old)

/-- What a step of the search does at the end of its path. -/
inductive Step (successors : Nat → List Nat) : CycleSearch → CycleSearch → Prop where
  /-- A node whose successors have all been followed is left behind. -/
  | leave {node : Nat} {below : List CycleFrame} {closed : List Nat} {cycles : List (List Nat)} :
      Step successors ⟨⟨node, []⟩ :: below, closed, cycles⟩ ⟨below, node :: closed, cycles⟩
  /-- A successor on the path closes a cycle. -/
  | meet {node v : Nat} {rest : List Nat} {below : List CycleFrame} {closed : List Nat}
      {cycles : List (List Nat)} (on : v ∈ nodesOf (⟨node, v :: rest⟩ :: below)) :
      Step successors ⟨⟨node, v :: rest⟩ :: below, closed, cycles⟩
        ⟨⟨node, rest⟩ :: below, closed, note cycles (closing (⟨node, v :: rest⟩ :: below) v)⟩
  /-- A successor that has been left behind is passed over. -/
  | pass {node v : Nat} {rest : List Nat} {below : List CycleFrame} {closed : List Nat}
      {cycles : List (List Nat)} (behind : v ∈ closed) :
      Step successors ⟨⟨node, v :: rest⟩ :: below, closed, cycles⟩
        ⟨⟨node, rest⟩ :: below, closed, cycles⟩
  /-- Any other successor becomes the end of the path. -/
  | enter {node v : Nat} {rest : List Nat} {below : List CycleFrame} {closed : List Nat}
      {cycles : List (List Nat)} (off : v ∉ nodesOf (⟨node, v :: rest⟩ :: below))
      (fresh : v ∉ closed) :
      Step successors ⟨⟨node, v :: rest⟩ :: below, closed, cycles⟩
        ⟨⟨v, successors v⟩ :: ⟨node, rest⟩ :: below, closed, cycles⟩

/-- **Every step of the search is one of its kinds.** -/
theorem step_step {search : CycleSearch} (working : search.stack ≠ []) :
    Step successors search (search.step successors) := by
  obtain ⟨stack, closed, cycles⟩ := search
  match stack, working with
  | ⟨node, []⟩ :: below, _       => exact .leave
  | ⟨node, v :: rest⟩ :: below, _ =>
      by_cases on : v ∈ nodesOf (⟨node, v :: rest⟩ :: below)
      · simp only [step, path, if_pos on]
        exact .meet on
      · by_cases behind : v ∈ closed
        · simp only [step, path, if_neg on, if_pos behind]
          exact .pass behind
        · simp only [step, path, if_neg on, if_neg behind]
          exact .enter on behind

/-! ### Whole searches -/

/-- A search without a path has ended. -/
theorem run_of_ended {search : CycleSearch} (ended : search.stack = []) :
    ∀ fuel, run successors fuel search = search
  | 0        => rfl
  | fuel + 1 => by
      rw [run, ended]
      rfl

/-- What every step keeps, the search keeps; the induction is on its fuel. -/
theorem run_keeps {P : CycleSearch → Prop}
    (step : ∀ {search search'}, Step successors search search' → P search → P search') :
    ∀ (fuel : Nat) {search : CycleSearch}, P search → P (run successors fuel search)
  | 0, _, h        => h
  | fuel + 1, search, h => by
      rw [run]
      split
      · exact h
      · rename_i working
        exact run_keeps step fuel (step (step_step (by simpa using working)) h)

/-- So does the search from one node on. -/
theorem visit_keeps {P : CycleSearch → Prop} {fuel : Nat}
    (start : ∀ {search : CycleSearch} (node : Nat), node ∉ search.closed → P search →
      P { search with stack := [⟨node, successors node⟩] })
    (step : ∀ {search search'}, Step successors search search' → P search → P search')
    {search : CycleSearch} (node : Nat) (h : P search) : P (visit successors fuel search node) := by
  rw [visit]
  split
  · exact h
  · rename_i fresh
    exact run_keeps step fuel (start node fresh h)

end CycleSearch

/-- The search from the nodes below a number, each with so much fuel. -/
def searchCycles (fuel : Nat) (successors : Nat → List Nat) (size : Nat) : CycleSearch :=
  (List.range size).foldl (CycleSearch.visit successors fuel) ⟨[], [], []⟩

/-- The fuel that a graph is searched with: a step for every edge and every node, and one more. -/
def cycleFuel (size : Nat) (successors : Nat → List Nat) : Nat :=
  ((List.range size).map fun n => (successors n).length + 1).sum + 1

theorem findCycles_eq (size : Nat) (successors : Nat → List Nat) :
    findCycles size successors =
      (searchCycles (cycleFuel size successors) successors size).cycles := rfl

theorem searchCycles_succ (fuel : Nat) (successors : Nat → List Nat) (size : Nat) :
    searchCycles fuel successors (size + 1) =
      (searchCycles fuel successors size).visit successors fuel size := by
  rw [searchCycles, searchCycles, List.range_succ, List.foldl_append]
  rfl

/-- **What a search keeps.** -/
theorem searchCycles_keeps {successors : Nat → List Nat} {fuel : Nat} {P : CycleSearch → Prop}
    (empty : P ⟨[], [], []⟩)
    (start : ∀ {search : CycleSearch} (node : Nat), node ∉ search.closed → P search →
      P { search with stack := [⟨node, successors node⟩] })
    (step : ∀ {search search'}, CycleSearch.Step successors search search' →
      P search → P search') :
    ∀ size, P (searchCycles fuel successors size)
  | 0        => empty
  | size + 1 => by
      rw [searchCycles_succ]
      exact CycleSearch.visit_keeps start step size (searchCycles_keeps empty start step size)

/-! ### Reported cycles are real -/

namespace CycleSearch

/-- What a search keeps: its path has no node twice and an edge from each node to the next, the
nodes still to be followed are successors, and the lists reported are cycles, each reported
once. -/
structure Sound (successors : Nat → List Nat) (search : CycleSearch) : Prop where
  nodup    : (nodesOf search.stack).Nodup
  chain    : (nodesOf search.stack).IsChain fun a b => b ∈ successors a
  ahead    : ∀ frame ∈ search.stack, ∀ v ∈ frame.remaining, v ∈ successors frame.node
  real     : ∀ cycle ∈ search.cycles, IsCycle (fun a b => b ∈ successors a) cycle
  distinct : search.cycles.Nodup

variable {successors : Nat → List Nat} {search search' : CycleSearch}

/-- A search that starts at a node has a path of one. -/
theorem Sound.start (h : search.Sound successors) (node : Nat) :
    Sound successors { search with stack := [⟨node, successors node⟩] } where
  nodup    := by simp
  chain    := List.isChain_singleton node
  ahead    := by simp
  real     := h.real
  distinct := h.distinct

/-- Frames stay sound when one of them has followed a successor. -/
theorem Sound.ahead_tail {node v : Nat} {rest : List Nat} {below : List CycleFrame}
    {closed : List Nat} {cycles : List (List Nat)}
    (h : Sound successors ⟨⟨node, v :: rest⟩ :: below, closed, cycles⟩) :
    ∀ frame ∈ ⟨node, rest⟩ :: below, ∀ w ∈ frame.remaining, w ∈ successors frame.node := by
  intro frame mem w later
  rcases List.mem_cons.1 mem with rfl | mem
  · exact h.ahead _ List.mem_cons_self w (.tail v later)
  · exact h.ahead frame (.tail _ mem) w later

/-- An edge from the end of the path back to one of its nodes closes a cycle. -/
theorem Sound.isCycle_closing {node v : Nat} {rest : List Nat} {below : List CycleFrame}
    {closed : List Nat} {cycles : List (List Nat)}
    (h : Sound successors ⟨⟨node, v :: rest⟩ :: below, closed, cycles⟩)
    (on : v ∈ nodesOf (⟨node, v :: rest⟩ :: below)) :
    IsCycle (fun a b => b ∈ successors a) (closing (⟨node, v :: rest⟩ :: below) v) := by
  have edge : v ∈ successors node := h.ahead _ List.mem_cons_self v List.mem_cons_self
  obtain ⟨after, eq, suffix, last⟩ := exists_suffix_of_mem on
  have chain : (v :: (after ++ [v])).IsChain fun a b => b ∈ successors a := by
    refine (h.chain.suffix suffix).append (List.isChain_singleton v) ?_
    intro x hx y hy
    rw [last] at hx
    cases hx
    cases hy
    exact edge
  rw [closing, eq]
  exact isCycle_rotateToLowest (h.nodup.sublist suffix.sublist) chain

/-- **A step keeps the search sound.** -/
theorem Sound.step (taken : Step successors search search') (h : search.Sound successors) :
    search'.Sound successors := by
  cases taken with
  | @leave node below closed cycles =>
      have front : nodesOf below <+: nodesOf (⟨node, []⟩ :: below) := by simp
      exact ⟨h.nodup.sublist front.sublist, h.chain.prefix front,
        fun frame mem => h.ahead frame (.tail _ mem), h.real, h.distinct⟩
  | meet on =>
      refine ⟨h.nodup, h.chain, h.ahead_tail, fun cycle mem => ?_, nodup_note h.distinct _⟩
      rcases mem_note.1 mem with mem | rfl
      · exact h.real cycle mem
      · exact h.isCycle_closing on
  | pass => exact ⟨h.nodup, h.chain, h.ahead_tail, h.real, h.distinct⟩
  | @enter node v rest below closed cycles off fresh =>
      have longer : nodesOf (⟨v, successors v⟩ :: ⟨node, rest⟩ :: below) =
          nodesOf (⟨node, v :: rest⟩ :: below) ++ [v] := by simp
      have edge : v ∈ successors node := h.ahead _ List.mem_cons_self v List.mem_cons_self
      refine ⟨?_, ?_, fun frame mem => ?_, h.real, h.distinct⟩
      · rw [longer]
        exact List.Nodup.append h.nodup (List.nodup_singleton v) (by simpa using off)
      · rw [longer]
        refine h.chain.append (List.isChain_singleton v) ?_
        intro x hx y hy
        rw [List.getLast?_reverse] at hx
        cases hx
        cases hy
        exact edge
      · rcases List.mem_cons.1 mem with rfl | mem
        · exact fun w => id
        · exact h.ahead_tail frame mem

end CycleSearch

/-- **The search stays sound** from node to node. -/
theorem sound_searchCycles (fuel : Nat) (successors : Nat → List Nat) (size : Nat) :
    (searchCycles fuel successors size).Sound successors :=
  searchCycles_keeps ⟨.nil, .nil, by simp, by simp, .nil⟩ (fun node _ h => h.start node) .step size

/-- What is found are cycles. -/
theorem isCycle_of_mem_findCycles {size : Nat} {successors : Nat → List Nat} {cycle : List Nat}
    (h : cycle ∈ findCycles size successors) : IsCycle (fun a b => b ∈ successors a) cycle := by
  rw [findCycles_eq] at h
  exact (sound_searchCycles _ successors size).real cycle h

/-- **Every cycle that is reported is real and is reported once.** A reported list has no node
twice, an edge from each node to the next and from the last to the first, and starts at its lowest
node; no two reported lists are rotations of each other. -/
theorem findCycles_real (size : Nat) (edges : List ImportEdge) :
    (∀ cycle ∈ findCycles size (successorsOf edges), IsCycle (Imports edges) cycle) ∧
      (findCycles size (successorsOf edges)).Pairwise fun a b => ¬ a.IsRotated b := by
  have real : ∀ cycle ∈ findCycles size (successorsOf edges), IsCycle (Imports edges) cycle := by
    intro cycle mem
    rw [imports_eq]
    exact isCycle_of_mem_findCycles mem
  refine ⟨real, ?_⟩
  have sound := sound_searchCycles (cycleFuel size (successorsOf edges)) (successorsOf edges) size
  refine sound.distinct.imp_of_mem fun {a b} ha hb ne rotated => ne ?_
  exact (real a ha).eq_of_isRotated (real b hb) rotated

end CodeSurvey
