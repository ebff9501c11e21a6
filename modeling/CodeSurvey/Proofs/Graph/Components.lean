import CodeSurvey.Proofs.Graph.CycleCoverage

/-!
# The components of a graph

Two nodes are in one component if each reaches the other. The components are found by a search from
every node, and an edge leads from one to another if it does so for some of their nodes.

* `mem_reachable`: a search finds the nodes that can be reached. `reachSteps` goes down with every
  step, so that its fuel is never used up.
* `mem_part_iff` and `exists_part`: the parts listed are the components, and every node is in one.
* `acyclic_componentEdges`: the graph of the components has no cycles.
-/

namespace CodeSurvey

open Relation (TransGen ReflTransGen)

/-! ### Reachable nodes -/

section

variable {size : Nat} {successors : Nat → List Nat}

/-- What the search finds can be reached. -/
theorem reachFrom_sound {start : Nat} : ∀ {fuel : Nat} {work found : List Nat},
    (∀ n ∈ work, ReflTransGen (fun a b => b ∈ successors a) start n) →
    (∀ n ∈ found, ReflTransGen (fun a b => b ∈ successors a) start n) →
    ∀ n ∈ reachFrom successors fuel work found,
      ReflTransGen (fun a b => b ∈ successors a) start n
  | 0, _, _, _, old => old
  | _ + 1, [], _, _, old => old
  | fuel + 1, n :: work, found, ahead, old => by
      obtain ⟨here, later⟩ := List.forall_mem_cons.1 ahead
      rw [reachFrom]
      split
      · exact reachFrom_sound later old
      · refine reachFrom_sound (List.forall_mem_append.2 ⟨fun v edge => here.tail edge, later⟩) ?_
        exact List.forall_mem_cons.2 ⟨here, old⟩

/-- How many steps of a search are left: one for each node on the worklist, and for each edge of a
node that has not been found. -/
def reachSteps (size : Nat) (successors : Nat → List Nat) (work found : List Nat) : Nat :=
  ∑ n ∈ Finset.range size \ found.toFinset, (successors n).length + work.length

/-- Entering a node takes one step. -/
theorem reachSteps_enter {n : Nat} {work found : List Nat} (bound : n < size) (fresh : n ∉ found) :
    reachSteps size successors (successors n ++ work) (n :: found) + 1 =
      reachSteps size successors (n :: work) found := by
  have unseen : n ∈ Finset.range size \ found.toFinset := by
    simpa using And.intro bound fresh
  have fewer : Finset.range size \ (n :: found).toFinset =
      (Finset.range size \ found.toFinset).erase n := by
    ext m
    simp only [List.toFinset_cons, Finset.mem_sdiff, Finset.mem_insert, Finset.mem_erase]
    tauto
  have split := Finset.add_sum_erase _ (fun n => (successors n).length) unseen
  simp only [reachSteps, fewer, List.length_append, List.length_cons] at split ⊢
  omega

/-- **With a step of fuel for each that is left, nothing is missed**: what has been found or is on
the worklist is found, and so are all successors of what is found. -/
theorem reachFrom_closed (inside : ∀ n, ∀ v ∈ successors n, v < size) :
    ∀ {fuel : Nat} {work found : List Nat}, (∀ n ∈ work, n < size) →
      reachSteps size successors work found ≤ fuel →
      (∀ n ∈ found, ∀ v ∈ successors n, v ∈ found ∨ v ∈ work) →
      (∀ n, n ∈ found ∨ n ∈ work → n ∈ reachFrom successors fuel work found) ∧
        ∀ n ∈ reachFrom successors fuel work found, ∀ v ∈ successors n,
          v ∈ reachFrom successors fuel work found := by
  intro fuel
  induction fuel with
  | zero =>
      intro work found _ enough followed
      have none : work = [] := List.length_eq_zero_iff.1 (by rw [reachSteps] at enough; omega)
      subst none
      simpa [reachFrom] using followed
  | succ fuel ih =>
      intro work found bounds enough followed
      cases work with
      | nil => simpa [reachFrom] using followed
      | cons n work =>
          obtain ⟨bound, bounds⟩ := List.forall_mem_cons.1 bounds
          rw [reachFrom]
          split
          · -- a node that was found before only leaves the worklist
            rename_i old
            have less : reachSteps size successors work found ≤ fuel := by
              rw [reachSteps, List.length_cons] at enough
              rw [reachSteps]
              omega
            have kept : ∀ m, m ∈ found ∨ m ∈ n :: work → m ∈ found ∨ m ∈ work := by
              rintro m (h | h)
              · exact .inl h
              · rcases List.mem_cons.1 h with rfl | h
                · exact .inl old
                · exact .inr h
            obtain ⟨all, closed⟩ :=
              ih bounds less fun m hm v hv => kept v (followed m hm v hv)
            exact ⟨fun m hm => all m (kept m hm), closed⟩
          · -- a new node is found, and its successors go to the worklist
            rename_i fresh
            have less : reachSteps size successors (successors n ++ work) (n :: found) ≤ fuel := by
              have step : reachSteps size successors (successors n ++ work) (n :: found) + 1 =
                reachSteps size successors (n :: work) found := reachSteps_enter bound fresh
              omega
            have kept : ∀ m, m ∈ found ∨ m ∈ n :: work →
                m ∈ n :: found ∨ m ∈ successors n ++ work := by
              rintro m (h | h)
              · exact .inl (.tail _ h)
              · rcases List.mem_cons.1 h with rfl | h
                · exact .inl List.mem_cons_self
                · exact .inr (List.mem_append_right _ h)
            obtain ⟨all, closed⟩ :=
              ih (List.forall_mem_append.2 ⟨inside n, bounds⟩) less fun m hm v hv => by
                rcases List.mem_cons.1 hm with rfl | hm
                · exact .inr (List.mem_append_left _ hv)
                · exact kept v (followed m hm v hv)
            exact ⟨fun m hm => all m (kept m hm), closed⟩

/-- **A search finds the nodes that can be reached.** -/
theorem mem_reachable (inside : ∀ n, ∀ v ∈ successors n, v < size) {node m : Nat}
    (bound : node < size) :
    m ∈ reachable size successors node ↔ ReflTransGen (fun a b => b ∈ successors a) node m := by
  constructor
  · refine reachFrom_sound (fun n hn => ?_) (by simp) m
    rw [List.mem_singleton.1 hn]
  · intro way
    have enough : reachSteps size successors [node] [] ≤
        ((List.range size).map fun n => (successors n).length + 1).sum + 2 := by
      have edges : ∑ n ∈ Finset.range size, (successors n).length ≤
          ∑ n ∈ Finset.range size, ((successors n).length + 1) :=
        Finset.sum_le_sum fun n _ => Nat.le_succ _
      have listed : ∑ n ∈ Finset.range size, ((successors n).length + 1) =
          ((List.range size).map fun n => (successors n).length + 1).sum := rfl
      simp only [reachSteps, List.toFinset_nil, Finset.sdiff_empty, List.length_cons,
        List.length_nil]
      omega
    obtain ⟨start, closed⟩ := reachFrom_closed inside (by simpa using bound) enough (by simp)
    induction way with
    | refl => exact start node (.inr List.mem_cons_self)
    | tail _ edge ih => exact closed _ ih _ edge

/-! ### Components -/

theorem SameComponent.symm {edge : Nat → Nat → Prop} {a b : Nat} (h : SameComponent edge a b) :
    SameComponent edge b a :=
  ⟨h.2, h.1⟩

theorem SameComponent.trans {edge : Nat → Nat → Prop} {a b c : Nat} (h : SameComponent edge a b)
    (h' : SameComponent edge b c) : SameComponent edge a c :=
  ⟨h.1.trans h'.1, h'.2.trans h.2⟩

theorem getD_reachTable {node : Nat} (bound : node < size) :
    (reachTable size successors).getD node [] = reachable size successors node := by
  simp [reachTable, List.getD_eq_getElem?_getD, bound]

/-- Only nodes of the graph are reached from one. -/
theorem lt_of_reflTransGen (inside : ∀ n, ∀ v ∈ successors n, v < size) {node m : Nat}
    (bound : node < size) (way : ReflTransGen (fun a b => b ∈ successors a) node m) : m < size := by
  rcases ReflTransGen.cases_tail way with rfl | ⟨n, -, edge⟩
  · exact bound
  · exact inside n m edge

/-- **A component has the nodes that lead to each other.** -/
theorem mem_component (inside : ∀ n, ∀ v ∈ successors n, v < size) {node m : Nat}
    (bound : node < size) :
    m ∈ component size (reachTable size successors) node ↔
      SameComponent (fun a b => b ∈ successors a) node m := by
  simp only [component, List.mem_filter, List.mem_range, Bool.and_eq_true, List.contains_iff_mem,
    getD_reachTable bound, mem_reachable inside bound]
  constructor
  · rintro ⟨there, out, back⟩
    rw [getD_reachTable there, mem_reachable inside there] at back
    exact ⟨out, back⟩
  · rintro ⟨out, back⟩
    have there := lt_of_reflTransGen inside bound out
    rw [getD_reachTable there, mem_reachable inside there]
    exact ⟨there, out, back⟩

/-- The nodes of a component all list it in the same way. -/
theorem component_eq_of_same (inside : ∀ n, ∀ v ∈ successors n, v < size) {a b : Nat}
    (ha : a < size) (hb : b < size) (same : SameComponent (fun a b => b ∈ successors a) a b) :
    component size (reachTable size successors) a =
      component size (reachTable size successors) b := by
  refine List.filter_congr fun m listed => ?_
  have mem_a := mem_component inside ha (m := m)
  have mem_b := mem_component inside hb (m := m)
  rw [component, List.mem_filter, and_iff_right listed] at mem_a mem_b
  rw [Bool.eq_iff_iff, mem_a, mem_b]
  exact ⟨same.symm.trans, same.trans⟩

/-- Each component starts with its first node. -/
theorem mem_components {part : List Nat} : part ∈ components size successors ↔
    ∃ node < size, part.head? = some node ∧
      part = component size (reachTable size successors) node := by
  simp only [components, List.mem_filterMap, List.mem_range, Option.ite_none_right_eq_some,
    Option.some.injEq]
  constructor
  · rintro ⟨node, bound, first, rfl⟩
    exact ⟨node, bound, first, rfl⟩
  · rintro ⟨node, bound, first, rfl⟩
    exact ⟨node, bound, first, rfl⟩

theorem nodup_components : (components size successors).Nodup := by
  refine List.Nodup.filterMap (fun a b part ha hb => ?_) List.nodup_range
  simp only [Option.mem_def, Option.ite_none_right_eq_some, Option.some.injEq] at ha hb
  rw [← Option.some.injEq, ← ha.1, ← hb.1, ha.2, hb.2]

/-- **The parts listed are components.** -/
theorem mem_part_iff (inside : ∀ n, ∀ v ∈ successors n, v < size) {part : List Nat} {n m : Nat}
    (listed : part ∈ components size successors) (hn : n ∈ part) :
    m ∈ part ↔ SameComponent (fun a b => b ∈ successors a) n m := by
  obtain ⟨node, bound, -, rfl⟩ := mem_components.1 listed
  rw [mem_component inside bound] at hn ⊢
  exact ⟨hn.symm.trans, hn.trans⟩

theorem lt_of_mem_part {part : List Nat} {n : Nat} (listed : part ∈ components size successors)
    (hn : n ∈ part) : n < size := by
  obtain ⟨node, -, -, rfl⟩ := mem_components.1 listed
  exact List.mem_range.1 (List.mem_filter.1 hn).1

theorem part_ne_nil {part : List Nat} (listed : part ∈ components size successors) :
    part ≠ [] := by
  obtain ⟨node, -, first, -⟩ := mem_components.1 listed
  rintro rfl
  cases first

/-- Every node is in a part that is listed. -/
theorem exists_part (inside : ∀ n, ∀ v ∈ successors n, v < size) {n : Nat} (bound : n < size) :
    ∃ part ∈ components size successors, n ∈ part := by
  have here : n ∈ component size (reachTable size successors) n :=
    (mem_component inside bound).2 ⟨.refl, .refl⟩
  -- the part is listed at the first of its nodes
  obtain ⟨first, rest, eq⟩ := List.exists_cons_of_ne_nil (List.ne_nil_of_mem here)
  have same : SameComponent (fun a b => b ∈ successors a) n first :=
    (mem_component inside bound).1 (eq ▸ List.mem_cons_self)
  have there : first < size := lt_of_reflTransGen inside bound same.1
  refine ⟨_, mem_components.2 ⟨first, there, ?_, component_eq_of_same inside bound there same⟩,
    here⟩
  rw [eq, List.head?_cons]

/-- Parts that share a node are the same. -/
theorem eq_of_mem_part (inside : ∀ n, ∀ v ∈ successors n, v < size) {a b : List Nat} {n : Nat}
    (ha : a ∈ components size successors) (hb : b ∈ components size successors) (inA : n ∈ a)
    (inB : n ∈ b) : a = b := by
  obtain ⟨i, boundA, -, rfl⟩ := mem_components.1 ha
  obtain ⟨j, boundB, -, rfl⟩ := mem_components.1 hb
  rw [mem_component inside boundA] at inA
  rw [mem_component inside boundB] at inB
  exact component_eq_of_same inside boundA boundB (inA.trans inB.symm)

/-! ### The graph of components -/

/-- One component leads to another if any of its nodes does. -/
theorem leadsTo_iff {a b : List Nat} :
    leadsTo successors a b ↔ a ≠ b ∧ ∃ n ∈ a, ∃ m ∈ b, m ∈ successors n := by
  simp only [leadsTo, Bool.and_eq_true, bne_iff_ne, List.any_eq_true, List.contains_iff_mem]
  refine and_congr_right fun _ => exists_congr fun n => and_congr_right fun _ =>
    exists_congr fun m => and_comm

/-- Whether a place of a graph is among the targets of another. -/
def Leads (edges : List (List Nat)) (i j : Nat) : Prop :=
  j ∈ edges.getD i []

/-- The graph of components has these as its edges. -/
theorem leads_componentEdges {parts : List (List Nat)} {i j : Nat} :
    Leads (componentEdges successors parts) i j ↔
      i < parts.length ∧ j < parts.length ∧
        leadsTo successors (parts.getD i []) (parts.getD j []) := by
  by_cases bound : i < parts.length
  · simp [Leads, componentEdges, List.getD_eq_getElem?_getD, bound]
  · simp [Leads, componentEdges, List.getD_eq_getElem?_getD, bound]

theorem getD_mem {parts : List (List Nat)} {i : Nat} (bound : i < parts.length) :
    parts.getD i [] ∈ parts := by
  rw [List.getD_eq_getElem?_getD, List.getElem?_eq_getElem bound]
  exact List.getElem_mem bound

theorem lt_of_mem_getD {parts : List (List Nat)} {i n : Nat} (h : n ∈ parts.getD i []) :
    i < parts.length := by
  by_contra beyond
  rw [List.getD_eq_getElem?_getD, List.getElem?_eq_none (Nat.le_of_not_lt beyond)] at h
  cases h

/-- Where a way leads over the components, one leads from each node of the first to each of the
last. -/
theorem reach_of_leads (inside : ∀ n, ∀ v ∈ successors n, v < size) {i j : Nat}
    (way : ReflTransGen (Leads (componentEdges successors (components size successors))) i j)
    {n m : Nat} (hn : n ∈ (components size successors).getD i [])
    (hm : m ∈ (components size successors).getD j []) :
    ReflTransGen (fun a b => b ∈ successors a) n m := by
  have within := getD_mem (lt_of_mem_getD hm)
  induction way generalizing m with
  | refl => exact ((mem_part_iff inside within hn).1 hm).1
  | tail _ step ih =>
      obtain ⟨bound, -, leads⟩ := leads_componentEdges.1 step
      obtain ⟨-, n', hn', m', hm', edge⟩ := leadsTo_iff.1 leads
      have last := (mem_part_iff inside within hm').1 hm
      exact ((ih hn' (getD_mem bound)).tail edge).trans last.1

/-- Graphs whose edges lead to places of theirs and that have no cycles. -/
structure Acyclic (edges : List (List Nat)) : Prop where
  inside   : ∀ {i j}, Leads edges i j → j < edges.length
  no_cycle : ∀ {i}, ¬ TransGen (Leads edges) i i

/-- **The graph of the components has no cycles.** -/
theorem acyclic_componentEdges (inside : ∀ n, ∀ v ∈ successors n, v < size) :
    Acyclic (componentEdges successors (components size successors)) where
  inside step := by
    rw [componentEdges, List.length_map]
    exact (leads_componentEdges.1 step).2.1
  no_cycle round := by
    obtain ⟨j, step, back⟩ := TransGen.head'_iff.1 round
    obtain ⟨boundI, boundJ, leads⟩ := leads_componentEdges.1 step
    obtain ⟨differ, n, hn, m, hm, edge⟩ := leadsTo_iff.1 leads
    -- the way back puts both ends of the edge into one component
    have same : SameComponent (fun a b => b ∈ successors a) n m :=
      ⟨.single edge, reach_of_leads inside back hm hn⟩
    have shared := (mem_part_iff inside (getD_mem boundI) hn).2 same
    exact differ (eq_of_mem_part inside (getD_mem boundI) (getD_mem boundJ) shared hm)

end

end CodeSurvey
