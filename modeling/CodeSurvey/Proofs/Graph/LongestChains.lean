import CodeSurvey.Proofs.Graph.Components

/-!
# The longest chains of a graph without cycles

A graph is given by the targets of each place. A way is a list of places that each lead to the next
one.

* `finished_finishOrder`: the depth-first search of a graph without cycles is done with every place
  after those that it leads to.
* `settled_enter` is what one step of a pass in such an order keeps, and `settled_foldl` what the
  whole pass gives; so every chain goes on to the best successor (`chainNext_eq`) and is one longer
  than that one's (`chainLength_eq`).
* `length_le_chainLength` and `chainFrom_eq`: no way is longer than the chain from where it starts,
  and the chain that is followed is a way of that length.
* `mem_longestChains`, `pairwise_longestChains` and `exists_source`: each place that leads somewhere
  and that nothing leads to has its chain, they are in order, and one is as long as any way.
-/

namespace CodeSurvey

open Relation (ReflTransGen TransGen)
open Std (TransCmp LawfulEqCmp OrientedCmp)

/-! ### Ways -/

section

variable {edges : List (List Nat)} {i j : Nat} {rest : List Nat}

/-- Along a way, each place leads to all the later ones. -/
theorem pairwise_way {way : List Nat} (h : way.IsChain (Leads edges)) :
    way.Pairwise (TransGen (Leads edges)) :=
  (h.imp fun _ _ => .single).pairwise

theorem Acyclic.lt_of_way (acyclic : Acyclic edges) (way : (i :: rest).IsChain (Leads edges)) :
    ∀ j ∈ rest, j < edges.length := by
  intro j listed
  obtain ⟨k, -, last⟩ := TransGen.tail'_iff.1 ((List.pairwise_cons.1 (pairwise_way way)).1 j listed)
  exact acyclic.inside last

/-- A way without a cycle goes on for at most as many steps as there are places. -/
theorem length_rest_le (acyclic : Acyclic edges) (way : (i :: rest).IsChain (Leads edges)) :
    rest.length ≤ edges.length := by
  have distinct : rest.Nodup := (pairwise_way way).tail.imp fun {a b} leads => by
    rintro rfl
    exact acyclic.no_cycle leads
  have places : rest ⊆ List.range edges.length := fun j listed =>
    List.mem_range.2 (acyclic.lt_of_way way j listed)
  simpa using (List.subperm_of_subset distinct places).length_le

end

/-! ### The order of the pass -/

section

variable {edges : List (List Nat)} {i j : Nat} {done starts : List Nat}

/-- Lists of different places, each of which comes after all that it leads to. -/
inductive Finished (edges : List (List Nat)) : List Nat → Prop where
  | nil : Finished edges []
  | snoc {done : List Nat} {i : Nat} (before : Finished edges done) (fresh : i ∉ done)
      (after : ∀ j, Leads edges i j → j ∈ done) : Finished edges (done ++ [i])

theorem Finished.closed (finished : Finished edges done) (there : i ∈ done)
    (step : Leads edges i j) : j ∈ done := by
  induction finished with
  | nil => cases there
  | snoc _ _ after ih =>
      rcases List.mem_append.1 there with earlier | last
      · exact List.mem_append_left _ (ih earlier)
      · rw [List.mem_singleton.1 last] at step
        exact List.mem_append_left _ (after j step)

/-- What a search from some places makes of a list of finished places: it gets longer by places
that are reached from there. -/
structure Visits (edges : List (List Nat)) (starts done after : List Nat) : Prop where
  finished : Finished edges after
  kept     : done ⊆ after
  entered  : starts ⊆ after
  reached  : ∀ k ∈ after, k ∈ done ∨ ∃ i ∈ starts, ReflTransGen (Leads edges) i k

/-- Searching from one place after the other. -/
theorem visits_foldl {visit : List Nat → Nat → List Nat} : ∀ {starts done : List Nat},
    (∀ i ∈ starts, ∀ done, Finished edges done → Visits edges [i] done (visit done i)) →
      Finished edges done → Visits edges starts done (starts.foldl visit done)
  | [], done, _, finished =>
      ⟨finished, List.Subset.refl done, List.nil_subset _, fun _ => .inl⟩
  | i :: rest, done, one, finished => by
      have first := one i List.mem_cons_self done finished
      have later := visits_foldl (fun j listed => one j (.tail _ listed)) first.finished
      refine ⟨later.finished, fun k there => later.kept (first.kept there), ?_, fun k there => ?_⟩
      · exact List.cons_subset.2
          ⟨later.kept (first.entered List.mem_cons_self), later.entered⟩
      · rcases later.reached k there with earlier | ⟨j, listed, reach⟩
        · rcases first.reached k earlier with old | ⟨j, listed, reach⟩
          · exact .inl old
          · exact .inr ⟨j, List.mem_singleton.1 listed ▸ List.mem_cons_self, reach⟩
        · exact .inr ⟨j, .tail _ listed, reach⟩

/-- The search is deep enough if the fuel exceeds the steps of every way. -/
theorem visits_finishFrom (acyclic : Acyclic edges) : ∀ {fuel i : Nat} {done : List Nat},
    (∀ rest, (i :: rest).IsChain (Leads edges) → rest.length < fuel) → Finished edges done →
      Visits edges [i] done (finishFrom edges fuel done i)
  | 0, i, _, enough, _ => absurd (enough [] (.singleton i)) (Nat.not_lt_zero _)
  | fuel + 1, i, done, enough, finished => by
      rw [finishFrom]
      split
      · rename_i there
        exact ⟨finished, List.Subset.refl done, List.cons_subset.2 ⟨there, List.nil_subset _⟩,
          fun _ => .inl⟩
      · rename_i fresh
        have targets : Visits edges (edges.getD i []) done
            ((edges.getD i []).foldl (finishFrom edges fuel) done) := by
          refine visits_foldl (fun j step done finished => ?_) finished
          refine visits_finishFrom acyclic (fun rest way => ?_) finished
          exact Nat.lt_of_succ_lt_succ (enough (j :: rest) (List.isChain_cons_cons.2 ⟨step, way⟩))
        refine ⟨.snoc targets.finished (fun there => ?_) fun j step => targets.entered step,
          fun k there => List.mem_append_left _ (targets.kept there),
          List.cons_subset.2 ⟨List.mem_append_right _ List.mem_cons_self, List.nil_subset _⟩,
          fun k there => ?_⟩
        · -- the place would be reached from one that it leads to
          rcases targets.reached i there with old | ⟨j, step, reach⟩
          · exact fresh old
          · exact acyclic.no_cycle (.head' step reach)
        · rcases List.mem_append.1 there with earlier | last
          · rcases targets.reached k earlier with old | ⟨j, step, reach⟩
            · exact .inl old
            · exact .inr ⟨i, List.mem_cons_self, .head step reach⟩
          · exact .inr ⟨i, List.mem_cons_self, List.mem_singleton.1 last ▸ .refl⟩

/-- **The order of the pass goes over every place after those that it leads to.** -/
theorem finished_finishOrder (acyclic : Acyclic edges) :
    Finished edges (finishOrder edges) ∧ ∀ i < edges.length, i ∈ finishOrder edges := by
  have visits : Visits edges (List.range edges.length) [] (finishOrder edges) :=
    visits_foldl (fun i _ done => visits_finishFrom acyclic fun rest way =>
      Nat.lt_succ_of_le (length_rest_le acyclic way)) .nil
  exact ⟨visits.finished, fun i bound => visits.entered (List.mem_range.2 bound)⟩

end

/-! ### The pass -/

section

variable {α : Type} {order : α → α → Ordering} {name : Nat → α} {edges : List (List Nat)}
  {tables : ChainTables} {done : List Nat} {i k : Nat}

theorem bestSuccessor_congr {length length' : Nat → Nat} {targets : List Nat}
    (same : ∀ j ∈ targets, length j = length' j) :
    bestSuccessor order name length targets = bestSuccessor order name length' targets :=
  leastBy_congr fun a ha b hb => by rw [same a ha, same b hb]

/-- Entering a place does not change what is known of the others. -/
theorem enter_of_ne (other : k ≠ i) :
    (tables.enter order name edges i).length k = tables.length k ∧
      (tables.enter order name edges i).next k = tables.next k := by
  have miss : (k == i) = false := beq_false_of_ne other
  rw [ChainTables.enter]
  split <;> simp [ChainTables.length, ChainTables.next, List.lookup_cons, miss]

theorem enter_self (fresh : tables.next i = none) :
    (tables.enter order name edges i).next i =
        bestSuccessor order name tables.length (edges.getD i []) ∧
      (tables.enter order name edges i).length i =
        (bestSuccessor order name tables.length (edges.getD i [])).elim 1 (tables.length · + 1) := by
  rw [ChainTables.enter]
  cases bestSuccessor order name tables.length (edges.getD i []) with
  | none =>
      refine ⟨fresh, ?_⟩
      rw [ChainTables.length, List.lookup_cons_self]
      rfl
  | some next =>
      rw [ChainTables.next, ChainTables.length, List.lookup_cons_self, List.lookup_cons_self]
      exact ⟨rfl, rfl⟩

/-- Tables that know of some places where their chains go on and how long they are. -/
structure ChainTables.Settled (order : α → α → Ordering) (name : Nat → α) (edges : List (List Nat))
    (tables : ChainTables) (done : List Nat) : Prop where
  unknown : ∀ i ∉ done, tables.next i = none ∧ tables.length i = 1
  best    : ∀ i ∈ done,
    tables.next i = bestSuccessor order name tables.length (edges.getD i [])
  counted : ∀ i ∈ done, tables.length i = (tables.next i).elim 1 (tables.length · + 1)

/-- **One step of the pass.** What was known stays right, because the place that is entered is not
among those that earlier ones lead to. -/
theorem settled_enter (finished : Finished edges done) (fresh : i ∉ done)
    (after : ∀ j, Leads edges i j → j ∈ done)
    (settled : ChainTables.Settled order name edges tables done) :
    ChainTables.Settled order name edges (tables.enter order name edges i) (done ++ [i]) := by
  have old : ∀ {k}, k ∈ done → k ≠ i := fun there => ne_of_mem_of_not_mem there fresh
  have known : ∀ k ∈ done ++ [i], ∀ j, Leads edges k j → j ∈ done := by
    intro k there j step
    rcases List.mem_append.1 there with earlier | last
    · exact finished.closed earlier step
    · exact after j (List.mem_singleton.1 last ▸ step)
  -- so the lengths of all successors are what they were
  have same : ∀ k ∈ done ++ [i], ∀ j ∈ edges.getD k [],
      tables.length j = (tables.enter order name edges i).length j :=
    fun k there j step => (enter_of_ne (old (known k there j step))).1.symm
  have next : ∀ k ∈ done ++ [i], (tables.enter order name edges i).next k =
      bestSuccessor order name tables.length (edges.getD k []) := by
    intro k there
    rcases List.mem_append.1 there with earlier | last
    · rw [(enter_of_ne (old earlier)).2, settled.best k earlier]
    · rw [List.mem_singleton.1 last, (enter_self (settled.unknown i fresh).1).1]
  refine ⟨fun k new => ?_, fun k there => ?_, fun k there => ?_⟩
  · rw [List.mem_append, List.mem_singleton, not_or] at new
    have unchanged : (tables.enter order name edges i).length k = tables.length k ∧
        (tables.enter order name edges i).next k = tables.next k := enter_of_ne new.2
    rw [unchanged.1, unchanged.2]
    exact settled.unknown k new.1
  · rw [next k there, bestSuccessor_congr (same k there)]
  · have length : (tables.enter order name edges i).length k =
        (bestSuccessor order name tables.length (edges.getD k [])).elim 1
          (tables.length · + 1) := by
      rcases List.mem_append.1 there with earlier | last
      · rw [(enter_of_ne (old earlier)).1, settled.counted k earlier, settled.best k earlier]
      · rw [List.mem_singleton.1 last, (enter_self (settled.unknown i fresh).1).2]
    rw [length, next k there]
    cases best : bestSuccessor order name tables.length (edges.getD k []) with
    | none => rfl
    | some j => rw [Option.elim_some, Option.elim_some, same k there j (mem_of_leastBy best)]

/-- The pass over places in such an order settles them. -/
theorem settled_foldl (finished : Finished edges done) :
    ChainTables.Settled order name edges
      (done.foldl (ChainTables.enter order name edges) ⟨[], []⟩) done := by
  induction finished with
  | nil => exact ⟨fun _ _ => ⟨rfl, rfl⟩, nofun, nofun⟩
  | snoc before fresh after ih =>
      rw [List.foldl_append]
      exact settled_enter before fresh after ih

/-- The number of places on the longest chain from one, as the pass finds it. -/
def chainLength (order : α → α → Ordering) (name : Nat → α) (edges : List (List Nat)) (i : Nat) :
    Nat :=
  (chainTables order name edges).length i

/-- Where the longest chain from a place goes on, as the pass finds it. -/
def chainNext (order : α → α → Ordering) (name : Nat → α) (edges : List (List Nat)) (i : Nat) :
    Option Nat :=
  (chainTables order name edges).next i

theorem settled_chainTables (acyclic : Acyclic edges) :
    ChainTables.Settled order name edges (chainTables order name edges) (finishOrder edges) :=
  settled_foldl (finished_finishOrder acyclic).1

/-- **Every chain goes on to the best successor.** -/
theorem chainNext_eq (acyclic : Acyclic edges) (i : Nat) : chainNext order name edges i =
    bestSuccessor order name (chainLength order name edges) (edges.getD i []) := by
  have settled : ChainTables.Settled order name edges (chainTables order name edges)
      (finishOrder edges) := settled_chainTables acyclic
  by_cases there : i ∈ finishOrder edges
  · exact settled.best i there
  · -- a place that is not listed is not one of the graph and leads nowhere
    have outside : edges.length ≤ i := Nat.le_of_not_lt fun bound =>
      there ((finished_finishOrder acyclic).2 i bound)
    rw [chainNext, (settled.unknown i there).1, List.getD_eq_getElem?_getD,
      List.getElem?_eq_none outside]
    rfl

/-- **Every chain is one longer than what it goes on with.** -/
theorem chainLength_eq (acyclic : Acyclic edges) (i : Nat) : chainLength order name edges i =
    (chainNext order name edges i).elim 1 (chainLength order name edges · + 1) := by
  have settled : ChainTables.Settled order name edges (chainTables order name edges)
      (finishOrder edges) := settled_chainTables acyclic
  by_cases there : i ∈ finishOrder edges
  · exact settled.counted i there
  · rw [chainLength, chainNext, (settled.unknown i there).1, (settled.unknown i there).2]
    rfl

end

/-! ### The longest ways -/

section

variable {α : Type} {order : α → α → Ordering} {name : Nat → α} {edges : List (List Nat)}
  {i j : Nat} {rest : List Nat}

instance transCmp_bestSuccessor [TransCmp order] (name : Nat → α) (length : Nat → Nat) :
    TransCmp fun a b => (compare (length b) (length a)).then (order (name a) (name b)) := by
  have byLength : TransCmp fun a b => compare (length b) (length a) :=
    inferInstanceAs (TransCmp fun a b => compareOn length b a)
  have byName : TransCmp fun a b => order (name a) (name b) :=
    { eq_swap := OrientedCmp.eq_swap, isLE_trans := TransCmp.isLE_trans }
  exact inferInstanceAs (TransCmp (compareLex _ _))

/-- The best successor has the longest chain. -/
theorem length_le_of_best [TransCmp order] {length : Nat → Nat} {targets : List Nat}
    (best : bestSuccessor order name length targets = some j) (other : i ∈ targets) :
    length i ≤ length j := by
  have least := leastBy_isLE best i other
  by_contra more
  rw [Nat.compare_eq_gt.2 (Nat.lt_of_not_le more)] at least
  cases least

theorem one_le_chainLength (acyclic : Acyclic edges) (i : Nat) :
    1 ≤ chainLength order name edges i := by
  rw [chainLength_eq acyclic]
  cases chainNext order name edges i with
  | none => exact Nat.le_refl 1
  | some j => exact Nat.le_add_left 1 _

/-- What the chain goes on to is a successor whose own chain is one shorter. -/
theorem chainNext_some (acyclic : Acyclic edges) (next : chainNext order name edges i = some j) :
    Leads edges i j ∧ chainLength order name edges j + 1 = chainLength order name edges i := by
  have best : chainNext order name edges i = bestSuccessor order name
      (chainLength order name edges) (edges.getD i []) := chainNext_eq acyclic i
  rw [next] at best
  refine ⟨mem_of_leastBy best.symm, ?_⟩
  rw [chainLength_eq acyclic i, next]
  rfl

theorem chainLength_lt_of_leads [TransCmp order] (acyclic : Acyclic edges)
    (step : Leads edges i j) :
    chainLength order name edges j < chainLength order name edges i := by
  have best : chainNext order name edges i = bestSuccessor order name
      (chainLength order name edges) (edges.getD i []) := chainNext_eq acyclic i
  cases next : chainNext order name edges i with
  | none =>
      rw [next] at best
      rw [Leads, leastBy_eq_none_iff.1 best.symm] at step
      cases step
  | some k =>
      rw [next] at best
      rw [← (chainNext_some acyclic next).2]
      exact Nat.lt_succ_of_le (length_le_of_best best.symm step)

/-- No way is longer than the chain from where it starts. -/
theorem length_le_chainLength [TransCmp order] (acyclic : Acyclic edges) :
    ∀ {i : Nat} {rest : List Nat}, (i :: rest).IsChain (Leads edges) →
      rest.length + 1 ≤ chainLength order name edges i
  | i, [], _ => one_le_chainLength acyclic i
  | i, j :: rest, way => by
      obtain ⟨step, way⟩ := List.isChain_cons_cons.1 way
      have ih : rest.length + 1 ≤ chainLength order name edges j :=
        length_le_chainLength acyclic way
      exact Nat.succ_le_of_lt (ih.trans_lt (chainLength_lt_of_leads acyclic step))

/-- The chains of the places that lead somewhere are those that go on. -/
theorem one_lt_chainLength_iff (acyclic : Acyclic edges) :
    1 < chainLength order name edges i ↔ ∃ j, Leads edges i j := by
  cases next : chainNext order name edges i with
  | none =>
      have best : chainNext order name edges i = bestSuccessor order name
          (chainLength order name edges) (edges.getD i []) := chainNext_eq acyclic i
      rw [next] at best
      rw [chainLength_eq acyclic, next]
      refine iff_of_false (Nat.lt_irrefl 1) ?_
      rintro ⟨j, step⟩
      rw [Leads, leastBy_eq_none_iff.1 best.symm] at step
      cases step
  | some j =>
      obtain ⟨step, shorter⟩ := chainNext_some acyclic next
      have one : 1 ≤ chainLength order name edges j := one_le_chainLength acyclic j
      exact iff_of_true (by omega) ⟨j, step⟩

/-- **The chain that is followed from a place is one of the longest ways from it.** -/
theorem chainFrom_eq (acyclic : Acyclic edges) : ∀ {fuel i : Nat},
    chainLength order name edges i ≤ fuel + 1 →
      ∃ rest, chainFrom name (chainNext order name edges) fuel i = (i :: rest).map name ∧
        (i :: rest).IsChain (Leads edges) ∧ rest.length + 1 = chainLength order name edges i
  | 0, i, enough =>
      ⟨[], rfl, .singleton i, Nat.le_antisymm (one_le_chainLength acyclic i) enough⟩
  | fuel + 1, i, enough => by
      rw [chainFrom]
      cases next : chainNext order name edges i with
      | none =>
          refine ⟨[], rfl, .singleton i, ?_⟩
          rw [chainLength_eq acyclic, next]
          rfl
      | some j =>
          obtain ⟨step, shorter⟩ := chainNext_some acyclic next
          have enough : chainLength order name edges j ≤ fuel + 1 := by omega
          obtain ⟨rest, eq, way, long⟩ := chainFrom_eq acyclic enough
          refine ⟨j :: rest, ?_, List.isChain_cons_cons.2 ⟨step, way⟩, ?_⟩
          · simp only [eq, List.map_cons]
          · rw [List.length_cons, long, shorter]

/-- A longest chain takes no more steps than there are places. -/
theorem chainLength_le (acyclic : Acyclic edges) (i : Nat) :
    chainLength order name edges i ≤ edges.length + 1 := by
  obtain ⟨rest, -, way, long⟩ := chainFrom_eq acyclic (Nat.le_succ (chainLength order name edges i))
  have := length_rest_le acyclic way
  omega

end

/-! ### The chains from the sources -/

section

variable {α : Type} {order : α → α → Ordering} {name : Nat → α} {edges : List (List Nat)}
  {i j : Nat}

/-- Places that lead somewhere and that nothing leads to. -/
structure IsSource (edges : List (List Nat)) (i : Nat) : Prop where
  noneBefore : ∀ j, ¬ Leads edges j i
  someAfter  : ∃ j, Leads edges i j

theorem IsSource.lt (source : IsSource edges i) : i < edges.length := by
  obtain ⟨j, step⟩ := source.someAfter
  exact lt_of_mem_getD step

/-- The chain that is followed from a place. -/
def chainAt (order : α → α → Ordering) (name : Nat → α) (edges : List (List Nat)) (i : Nat) :
    List α :=
  chainFrom name (chainNext order name edges) edges.length i

theorem exists_chainAt (order : α → α → Ordering) (name : Nat → α)
    (acyclic : Acyclic edges) (i : Nat) :
    ∃ rest, chainAt order name edges i = (i :: rest).map name ∧
      (i :: rest).IsChain (Leads edges) ∧ rest.length + 1 = chainLength order name edges i :=
  chainFrom_eq acyclic (chainLength_le acyclic i)

/-- From every place that leads somewhere, going back ends at a source. -/
theorem exists_source [TransCmp order] (acyclic : Acyclic edges) (step : Leads edges i j) :
    ∃ s, IsSource edges s ∧ chainLength order name edges i ≤ chainLength order name edges s := by
  -- the chains get longer on the way back, but none is longer than the number of places
  induction left : edges.length + 1 - chainLength order name edges i using Nat.strong_induction_on
    generalizing i j with
  | _ left ih =>
      by_cases first : ∀ k, ¬ Leads edges k i
      · exact ⟨i, ⟨first, j, step⟩, le_rfl⟩
      · obtain ⟨k, back⟩ := not_forall_not.1 first
        have longer : chainLength order name edges i < chainLength order name edges k :=
          chainLength_lt_of_leads acyclic back
        have bounded : chainLength order name edges k ≤ edges.length + 1 :=
          chainLength_le acyclic k
        obtain ⟨s, source, long⟩ := ih _ (by omega) back rfl
        exact ⟨s, source, longer.le.trans long⟩

/-- The places whose chains are listed. -/
def sourcesOf (order : α → α → Ordering) (name : Nat → α) (edges : List (List Nat)) : List Nat :=
  (List.range edges.length).filter fun i =>
    !(edges.any fun targets => targets.contains i) && decide (1 < chainLength order name edges i)

theorem mem_sourcesOf (acyclic : Acyclic edges) :
    i ∈ sourcesOf order name edges ↔ IsSource edges i := by
  have before : (edges.any fun targets => targets.contains i) = true ↔ ∃ j, Leads edges j i := by
    simp only [List.any_eq_true, List.contains_iff_mem]
    constructor
    · rintro ⟨targets, listed, there⟩
      obtain ⟨j, at_j⟩ := List.mem_iff_getElem?.1 listed
      refine ⟨j, ?_⟩
      rwa [Leads, List.getD_eq_getElem?_getD, at_j]
    · rintro ⟨j, step⟩
      exact ⟨_, getD_mem (lt_of_mem_getD step), step⟩
  rw [sourcesOf, List.mem_filter, List.mem_range, Bool.and_eq_true, decide_eq_true_iff,
    Bool.not_eq_true', ← Bool.not_eq_true, before, one_lt_chainLength_iff acyclic]
  constructor
  · rintro ⟨-, none, some⟩
    exact ⟨not_exists.1 none, some⟩
  · intro source
    exact ⟨source.lt, not_exists.2 source.noneBefore, source.someAfter⟩

theorem longestChains_eq (order : α → α → Ordering) (name : Nat → α) (edges : List (List Nat)) :
    longestChains order name edges =
      sortBy (fun a b => (compare b.length a.length).then (List.compareLex order a b))
        ((sourcesOf order name edges).map (chainAt order name edges)) := rfl

theorem mem_longestChains (acyclic : Acyclic edges) {chain : List α} :
    chain ∈ longestChains order name edges ↔
      ∃ i, IsSource edges i ∧ chainAt order name edges i = chain := by
  simp only [longestChains_eq, mem_sortBy, List.mem_map, mem_sourcesOf acyclic]

/-- The order in which chains are listed: longer ones first, those of one length by their names. -/
def ListedBefore (order : α → α → Ordering) (a b : List α) : Prop :=
  b.length < a.length ∨ b.length = a.length ∧ List.compareLex order a b = .lt

instance transCmp_longestChains [TransCmp order] :
    TransCmp fun a b : List α => (compare b.length a.length).then (List.compareLex order a b) := by
  have byLength : TransCmp fun a b : List α => compare b.length a.length :=
    inferInstanceAs (TransCmp fun a b => compareOn List.length b a)
  exact inferInstanceAs (TransCmp (compareLex _ _))

/-- Chains that start at places of different names differ. -/
theorem nodup_chains (acyclic : Acyclic edges)
    (distinct : ∀ {i j}, i < edges.length → j < edges.length → name i = name j → i = j) :
    ((sourcesOf order name edges).map (chainAt order name edges)).Nodup := by
  refine (List.nodup_range.filter _).map_on fun i hi j hj same => ?_
  obtain ⟨rest, eq, -⟩ := exists_chainAt order name acyclic i
  obtain ⟨rest', eq', -⟩ := exists_chainAt order name acyclic j
  rw [eq, eq', List.map_cons, List.map_cons] at same
  exact distinct ((mem_sourcesOf acyclic).1 hi).lt ((mem_sourcesOf acyclic).1 hj).lt
    (List.cons.inj same).1

/-- **The chains are in strict order.** -/
theorem pairwise_longestChains [TransCmp order] [LawfulEqCmp order] (acyclic : Acyclic edges)
    (distinct : ∀ {i j}, i < edges.length → j < edges.length → name i = name j → i = j) :
    (longestChains order name edges).Pairwise (ListedBefore order) := by
  have differ : (longestChains order name edges).Nodup :=
    (sortBy_perm _ _).nodup_iff.2 (nodup_chains acyclic distinct)
  rw [longestChains_eq] at differ ⊢
  refine ((pairwise_sortBy _).and differ).imp fun {a b} ⟨le, ne⟩ => ?_
  have different : (compare b.length a.length).then (List.compareLex order a b) ≠ .eq := fun same =>
    ne (LawfulEqCmp.eq_of_compare (Ordering.then_eq_eq.1 same).2)
  have lt : (compare b.length a.length).then (List.compareLex order a b) = .lt := by
    revert le different
    cases (compare b.length a.length).then (List.compareLex order a b) <;> simp
  simpa [ListedBefore, Ordering.then_eq_lt, Nat.compare_eq_lt, Nat.compare_eq_eq] using lt

/-- **The first chain is as long as any way that takes a step.** -/
theorem length_le_head [TransCmp order] [LawfulEqCmp order] (acyclic : Acyclic edges)
    (distinct : ∀ {i j}, i < edges.length → j < edges.length → name i = name j → i = j)
    {rest : List Nat} (way : (i :: j :: rest).IsChain (Leads edges)) :
    ∃ chain, (longestChains order name edges).head? = some chain ∧
      (i :: j :: rest).length ≤ chain.length := by
  obtain ⟨s, source, long⟩ : ∃ s, IsSource edges s ∧
      chainLength order name edges i ≤ chainLength order name edges s :=
    exists_source acyclic (List.isChain_cons_cons.1 way).1
  obtain ⟨onward, eq, -, length⟩ := exists_chainAt order name acyclic s
  have enough : (i :: j :: rest).length ≤ (chainAt order name edges s).length := by
    have most : (j :: rest).length + 1 ≤ chainLength order name edges i :=
      length_le_chainLength acyclic way
    rw [eq, List.length_map]
    simp only [List.length_cons] at most length ⊢
    omega
  have listed : chainAt order name edges s ∈ longestChains order name edges :=
    (mem_longestChains acyclic).2 ⟨s, source, rfl⟩
  have sorted : (longestChains order name edges).Pairwise (ListedBefore order) :=
    pairwise_longestChains acyclic distinct
  cases chains : longestChains order name edges with
  | nil =>
      rw [chains] at listed
      cases listed
  | cons first others =>
      rw [chains] at listed sorted
      refine ⟨first, rfl, enough.trans ?_⟩
      rcases List.mem_cons.1 listed with rfl | later
      · exact le_rfl
      · rcases (List.pairwise_cons.1 sorted).1 _ later with shorter | ⟨same, -⟩
        · exact shorter.le
        · exact same.le

end

end CodeSurvey
