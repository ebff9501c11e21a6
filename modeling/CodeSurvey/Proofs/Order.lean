import CodeSurvey.Order
import CodeSurvey.Path

/-!
# Sorted lists in order

What `sortBy` and `sortedSet` give for an order that is one.

* `pairwise_sortBy` and `sortBy_perm`: the sorted list has the same items, in order.
* `sortBy_filter`: it makes no difference whether items are left out before or afterwards.
* `pairwise_sortedSet` and `mem_sortedSet`: the sorted set has every item once, in strict order.
* `exists_mem_sortedSet`: an item that is dropped is equal in the order to one that stays.
* `eq_of_pairwise_lt`: a list in strict order is known by its items.
* `mem_of_leastBy` and `leastBy_isLE`: the least item is an item, and no item is below it.
* `leastBy_eq_some_iff`: where only the same items are equal in the order, that is all there is to
  it.
* The orders of texts by their length and of paths are orders, and what is equal in them is the
  same.
-/

namespace CodeSurvey

open Std (TransCmp OrientedCmp LawfulEqCmp ReflCmp)

/-! ### Sorting -/

section

variable {α : Type} {order : α → α → Ordering}

/-- Sorting keeps all items. -/
theorem sortBy_perm (order : α → α → Ordering) (items : List α) :
    (sortBy order items).Perm items :=
  List.mergeSort_perm ..

theorem mem_sortBy {items : List α} {x : α} : x ∈ sortBy order items ↔ x ∈ items :=
  (sortBy_perm order items).mem_iff

/-- **Sorted items are in order.** -/
theorem pairwise_sortBy [TransCmp order] (items : List α) :
    (sortBy order items).Pairwise fun a b => (order a b).isLE := by
  refine List.pairwise_mergeSort (fun a b c => TransCmp.isLE_trans) (fun a b => ?_) items
  have swap : order b a = (order a b).swap := OrientedCmp.eq_swap
  rw [swap]
  cases order a b <;> rfl

theorem sortBy_nil (order : α → α → Ordering) : sortBy order [] = [] :=
  List.mergeSort_nil

theorem sortBy_singleton (order : α → α → Ordering) (x : α) : sortBy order [x] = [x] :=
  List.mergeSort_singleton ..

/-- Sorting gives the list of the same items that is in order. -/
theorem sortBy_eq_of_perm [TransCmp order] [LawfulEqCmp order] {items sorted : List α}
    (perm : items.Perm sorted) (h : sorted.Pairwise fun a b => (order a b).isLE) :
    sortBy order items = sorted := by
  refine List.Perm.eq_of_pairwise (fun a b _ _ le ge => ?_) (pairwise_sortBy items) h
    ((sortBy_perm order items).trans perm)
  exact LawfulEqCmp.eq_of_compare (OrientedCmp.isLE_antisymm le ge)

/-- Items in order stay as they are. -/
theorem sortBy_of_pairwise {items : List α} (h : items.Pairwise fun a b => (order a b).isLE) :
    sortBy order items = items :=
  List.mergeSort_of_pairwise h

/-- Sorting puts the first item before those that it is not above. -/
theorem sortBy_cons (order : α → α → Ordering) [TransCmp order] (a : α) (items : List α) :
    ∃ before after, sortBy order items = before ++ after ∧
      sortBy order (a :: items) = before ++ a :: after ∧
      (∀ b ∈ before, ¬ (order a b).isLE) ∧ ∀ b ∈ after, (order a b).isLE := by
  have total : ∀ a b, (order a b).isLE || (order b a).isLE := fun a b => by
    have swap : order b a = (order a b).swap := OrientedCmp.eq_swap
    rw [swap]
    cases order a b <;> rfl
  obtain ⟨before, after, sorted, rest, above⟩ :=
    List.mergeSort_cons (fun _ _ _ => TransCmp.isLE_trans) total a items
  refine ⟨before, after, rest, sorted, fun b there => by simpa using above b there, ?_⟩
  have pairwise : (sortBy order (a :: items)).Pairwise fun a b => (order a b).isLE :=
    pairwise_sortBy (a :: items)
  rw [sortBy, sorted] at pairwise
  exact (List.pairwise_cons.1 (List.pairwise_append.1 pairwise).2.1).1

/-- A list is cut in one way only into items that are left out and items that are kept. -/
theorem append_inj_of_kept {keep : α → Prop} {l l' r r' : List α} (same : l ++ r = l' ++ r')
    (left : ∀ x ∈ l, ¬ keep x) (kept : ∀ x ∈ r, keep x) (left' : ∀ x ∈ l', ¬ keep x)
    (kept' : ∀ x ∈ r', keep x) : l = l' ∧ r = r' := by
  induction l generalizing l' with
  | nil =>
      cases l' with
      | nil => exact ⟨rfl, same⟩
      | cons y l' =>
          have there : y ∈ r := by rw [← List.nil_append r, same]; exact List.mem_cons_self
          exact absurd (kept y there) (left' y List.mem_cons_self)
  | cons x l ih =>
      cases l' with
      | nil =>
          have there : x ∈ r' := by rw [← List.nil_append r', ← same]; exact List.mem_cons_self
          exact absurd (kept' x there) (left x List.mem_cons_self)
      | cons y l' =>
          obtain ⟨rfl, later⟩ := List.cons.inj same
          obtain ⟨rfl, rfl⟩ := ih later (fun z h => left z (.tail _ h))
            fun z h => left' z (.tail _ h)
          exact ⟨rfl, rfl⟩

/-- **Leaving items out before sorting is leaving them out afterwards.** -/
theorem sortBy_filter [TransCmp order] (keep : α → Bool) (items : List α) :
    sortBy order (items.filter keep) = (sortBy order items).filter keep := by
  induction items with
  | nil => simp [sortBy_nil]
  | cons a items ih =>
      obtain ⟨before, after, rest, sorted, above, below⟩ := sortBy_cons order a items
      rw [rest, List.filter_append] at ih
      rw [sorted, List.filter_append, List.filter_cons, List.filter_cons]
      split
      · -- the item goes to the same place among those that are kept
        obtain ⟨before', after', rest', sorted', above', below'⟩ :=
          sortBy_cons order a (items.filter keep)
        have same : before' ++ after' = before.filter keep ++ after.filter keep :=
          rest'.symm.trans ih
        obtain ⟨rfl, rfl⟩ := append_inj_of_kept same above' below'
          (fun b h => above b (List.mem_filter.1 h).1) (fun b h => below b (List.mem_filter.1 h).1)
        exact sorted'
      · exact ih

/-! ### Sorted sets -/

theorem sortedSet_nil (order : α → α → Ordering) : sortedSet order [] = [] := by
  rw [sortedSet, sortBy_nil]
  rfl

theorem sortedSet_singleton (order : α → α → Ordering) (x : α) : sortedSet order [x] = [x] := by
  rw [sortedSet, sortBy_singleton]
  rfl

/-- The first item stays. -/
theorem dropRepeats_cons (order : α → α → Ordering) (a : α) :
    ∀ items : List α, ∃ later, dropRepeats order (a :: items) = a :: later
  | []        => ⟨[], rfl⟩
  | b :: rest => by
      rw [dropRepeats]
      split
      · exact ⟨[], rfl⟩
      · split
        · exact ⟨_, rfl⟩
        · exact ⟨_, rfl⟩

theorem dropRepeats_sublist (order : α → α → Ordering) : ∀ items : List α,
    (dropRepeats order items).Sublist items
  | []             => .slnil
  | [_]            => .refl _
  | a :: b :: rest => by
      have ih := dropRepeats_sublist order (b :: rest)
      rw [dropRepeats]
      split
      · exact (List.nil_sublist _).cons_cons a
      · rename_i c later eq
        rw [eq] at ih
        split
        · exact ((List.sublist_cons_self c later).trans ih).cons_cons a
        · exact ih.cons_cons a

theorem mem_of_mem_sortedSet {items : List α} {x : α} (h : x ∈ sortedSet order items) :
    x ∈ items :=
  mem_sortBy.1 ((dropRepeats_sublist order _).subset h)

/-- A dropped item is equal in the order to one that stays. -/
theorem mem_dropRepeats [LawfulEqCmp order] {x : α} : ∀ {items : List α},
    x ∈ items → x ∈ dropRepeats order items
  | [_], h             => h
  | a :: b :: rest, h => by
      have ih : x ∈ b :: rest → x ∈ dropRepeats order (b :: rest) := mem_dropRepeats
      rw [dropRepeats]
      obtain ⟨later, eq⟩ := dropRepeats_cons order b rest
      rw [eq] at ih ⊢
      simp only
      rcases List.mem_cons.1 h with rfl | h
      · split <;> exact List.mem_cons_self
      · split
        · rename_i same
          rw [LawfulEqCmp.eq_of_compare same]
          exact ih h
        · exact List.mem_cons_of_mem _ (ih h)

/-- An ordered set has the items it is made from. -/
theorem mem_sortedSet [LawfulEqCmp order] {items : List α} {x : α} :
    x ∈ sortedSet order items ↔ x ∈ items :=
  ⟨mem_of_mem_sortedSet, fun h => mem_dropRepeats (mem_sortBy.2 h)⟩

/-- For every item there is one that is kept and is the same in the order. -/
theorem exists_mem_dropRepeats [TransCmp order] {x : α} : ∀ {items : List α},
    x ∈ items → ∃ y ∈ dropRepeats order items, order x y = .eq
  | [_], h            => ⟨x, h, ReflCmp.compare_self⟩
  | a :: b :: rest, h => by
      have ih : x ∈ b :: rest → ∃ y ∈ dropRepeats order (b :: rest), order x y = .eq :=
        exists_mem_dropRepeats
      rw [dropRepeats]
      obtain ⟨later, eq⟩ := dropRepeats_cons order b rest
      rw [eq] at ih ⊢
      simp only
      rcases List.mem_cons.1 h with rfl | h
      · refine ⟨x, ?_, ReflCmp.compare_self⟩
        split <;> exact List.mem_cons_self
      · obtain ⟨y, there, same⟩ := ih h
        split
        · -- the first item stands for the one that is dropped
          rename_i first
          rcases List.mem_cons.1 there with rfl | there
          · exact ⟨a, List.mem_cons_self, TransCmp.eq_trans same (OrientedCmp.eq_symm first)⟩
          · exact ⟨y, List.mem_cons_of_mem _ there, same⟩
        · exact ⟨y, List.mem_cons_of_mem _ there, same⟩

/-- An item that is not in a sorted set is equal in the order to one that is. -/
theorem exists_mem_sortedSet [TransCmp order] {items : List α} {x : α} (h : x ∈ items) :
    ∃ y ∈ sortedSet order items, order x y = .eq :=
  exists_mem_dropRepeats (mem_sortBy.2 h)

/-- What is kept of items in order is strictly in order. -/
theorem pairwise_dropRepeats [TransCmp order] : ∀ {items : List α},
    (items.Pairwise fun a b => (order a b).isLE) →
      (dropRepeats order items).Pairwise fun a b => order a b = .lt
  | [], _              => .nil
  | [_], _             => List.pairwise_singleton ..
  | a :: b :: rest, h => by
      obtain ⟨first, tail⟩ := List.pairwise_cons.1 h
      have ih := pairwise_dropRepeats tail
      rw [dropRepeats]
      obtain ⟨later, eq⟩ := dropRepeats_cons order b rest
      rw [eq] at ih ⊢
      obtain ⟨above, strict⟩ := List.pairwise_cons.1 ih
      simp only
      split
      · rename_i same
        exact .cons (fun x hx => TransCmp.lt_of_eq_of_lt same (above x hx)) strict
      · rename_i different
        have lt : order a b = .lt := by
          have := first b List.mem_cons_self
          revert this different
          cases order a b <;> simp
        refine .cons (fun x hx => ?_) ih
        rcases List.mem_cons.1 hx with rfl | hx
        · exact lt
        · exact TransCmp.lt_trans lt (above x hx)

/-- **A sorted set is in strict order.** -/
theorem pairwise_sortedSet [TransCmp order] (items : List α) :
    (sortedSet order items).Pairwise fun a b => order a b = .lt :=
  pairwise_dropRepeats (pairwise_sortBy items)

/-- Items strictly in order are all different. -/
theorem nodup_of_pairwise_lt [TransCmp order] {items : List α}
    (sorted : items.Pairwise fun a b => order a b = .lt) : items.Nodup := by
  refine sorted.imp fun {a b} lt => ?_
  rintro rfl
  have same : order a a = .eq := ReflCmp.compare_self
  rw [same] at lt
  cases lt

theorem nodup_sortedSet [TransCmp order] (items : List α) : (sortedSet order items).Nodup :=
  nodup_of_pairwise_lt (pairwise_sortedSet items)

/-- **A list in strict order is known by its items.** -/
theorem eq_of_pairwise_lt [TransCmp order] {l l' : List α}
    (sorted : l.Pairwise fun a b => order a b = .lt)
    (sorted' : l'.Pairwise fun a b => order a b = .lt) (same : ∀ x, x ∈ l ↔ x ∈ l') : l = l' := by
  have perm : l.Perm l' := (List.perm_ext_iff_of_nodup (nodup_of_pairwise_lt sorted)
    (nodup_of_pairwise_lt sorted')).2 same
  refine List.Perm.eq_of_pairwise (fun a b _ _ lt gt => ?_) sorted sorted' perm
  rw [OrientedCmp.gt_of_lt lt] at gt
  cases gt

/-- A list in strict order is its own sorted set. -/
theorem sortedSet_of_pairwise [TransCmp order] [LawfulEqCmp order] {items : List α}
    (sorted : items.Pairwise fun a b => order a b = .lt) : sortedSet order items = items :=
  eq_of_pairwise_lt (pairwise_sortedSet items) sorted fun _ => mem_sortedSet

/-! ### Least items -/

theorem leastBy_eq_none_iff {items : List α} : leastBy order items = none ↔ items = [] := by
  cases items with
  | nil => simp [leastBy]
  | cons a rest =>
      rw [leastBy]
      split <;> simp

/-- The least item is one of the items. -/
theorem mem_of_leastBy {a : α} : ∀ {items : List α}, leastBy order items = some a → a ∈ items
  | b :: rest, h => by
      rw [leastBy] at h
      split at h
      · cases h
        exact List.mem_cons_self
      · rename_i c least
        cases h
        split
        · exact List.mem_cons_self
        · exact .tail _ (mem_of_leastBy least)

/-- **No item is below the least one.** -/
theorem leastBy_isLE [TransCmp order] {a : α} : ∀ {items : List α},
    leastBy order items = some a → ∀ b ∈ items, (order a b).isLE
  | c :: rest, h, b, mem => by
      rw [leastBy] at h
      split at h
      · rename_i none
        cases h
        rw [leastBy_eq_none_iff.1 none] at mem
        rw [List.mem_singleton.1 mem]
        exact ReflCmp.isLE_rfl
      · rename_i d least
        have below := leastBy_isLE least
        cases h
        split
        · rename_i le
          rcases List.mem_cons.1 mem with rfl | mem
          · exact ReflCmp.isLE_rfl
          · exact TransCmp.isLE_trans le (below b mem)
        · rename_i gt
          rcases List.mem_cons.1 mem with rfl | mem
          · have swap : order d b = (order b d).swap := OrientedCmp.eq_swap
            rw [swap]
            revert gt
            cases order b d <;> simp
          · exact below b mem

/-- Only how the items compare with one another matters. -/
theorem leastBy_congr {order' : α → α → Ordering} : ∀ {items : List α},
    (∀ a ∈ items, ∀ b ∈ items, order a b = order' a b) → leastBy order items = leastBy order' items
  | [], _           => rfl
  | a :: rest, same => by
      have ih : leastBy order rest = leastBy order' rest :=
        leastBy_congr fun b hb c hc => same b (.tail _ hb) c (.tail _ hc)
      rw [leastBy, leastBy, ih]
      cases least : leastBy order' rest with
      | none => rfl
      | some b =>
          dsimp only
          rw [same a List.mem_cons_self b (.tail _ (mem_of_leastBy least))]

/-- **The least item is the one that no other is below.** -/
theorem leastBy_eq_some_iff [TransCmp order] [LawfulEqCmp order] {items : List α} {a : α} :
    leastBy order items = some a ↔ a ∈ items ∧ ∀ b ∈ items, (order a b).isLE := by
  refine ⟨fun least => ⟨mem_of_leastBy least, leastBy_isLE least⟩, fun ⟨mem, below⟩ => ?_⟩
  cases least : leastBy order items with
  | none =>
      rw [leastBy_eq_none_iff.1 least] at mem
      cases mem
  | some b =>
      have same : order b a = .eq :=
        OrientedCmp.isLE_antisymm (leastBy_isLE least a mem) (below b (mem_of_leastBy least))
      rw [LawfulEqCmp.eq_of_compare same]

end

/-! ### Texts by their length -/

theorem byLengthThenText_eq : byLengthThenText =
    compareLex (fun a b => compare a.utf8ByteSize b.utf8ByteSize) fun a b => compare a b := rfl

instance : TransCmp byLengthThenText := by
  rw [byLengthThenText_eq]
  have : TransCmp fun a b : String => compare a.utf8ByteSize b.utf8ByteSize :=
    inferInstanceAs (TransCmp (compareOn String.utf8ByteSize))
  infer_instance

instance : LawfulEqCmp byLengthThenText where
  eq_of_compare h := LawfulEqCmp.eq_of_compare (Ordering.then_eq_eq.1 h).2

/-- Texts come before the longer ones, and before those of their length that are not less. -/
theorem isLE_byLengthThenText {a b : String} : (byLengthThenText a b).isLE ↔
    a.utf8ByteSize < b.utf8ByteSize ∨ a.utf8ByteSize = b.utf8ByteSize ∧ a ≤ b := by
  have texts : (compare a b).isLE ↔ a ≤ b :=
    isLE_compareOfLessAndEq String.le_antisymm String.not_le String.le_total
  rw [byLengthThenText, Ordering.isLE_then_iff_or, Nat.compare_eq_lt, Nat.compare_eq_eq, texts]

/-! ### The order of paths -/

theorem Component.order_eq : Component.order =
    compareLex (fun a b => compare a.rank b.rank) fun a b => compare a.text b.text := rfl

instance : TransCmp Component.order := by
  rw [Component.order_eq]
  have : TransCmp fun a b : Component => compare a.rank b.rank :=
    inferInstanceAs (TransCmp (compareOn Component.rank))
  have : TransCmp fun a b : Component => compare a.text b.text :=
    inferInstanceAs (TransCmp (compareOn Component.text))
  infer_instance

instance : LawfulEqCmp Component.order where
  eq_of_compare {a b} h := by
    obtain ⟨rank, text⟩ := Ordering.then_eq_eq.1 h
    replace rank := LawfulEqCmp.eq_of_compare rank
    replace text := LawfulEqCmp.eq_of_compare text
    cases a <;> cases b <;> simp_all [Component.rank, Component.text]

/-- Paths are compared component by component. -/
theorem Path.orderParts_eq : ∀ a b : List Component,
    Path.orderParts a b = List.compareLex Component.order a b
  | [], []           => rfl
  | [], _ :: _       => rfl
  | _ :: _, []       => rfl
  | a :: as, b :: bs => by
      rw [Path.orderParts, List.compareLex_cons_cons, Path.orderParts_eq as bs]

instance : TransCmp Path.order where
  eq_swap {a b} := by
    rw [Path.order, Path.order, Path.orderParts_eq, Path.orderParts_eq]
    exact OrientedCmp.eq_swap
  isLE_trans {a b c} h₁ h₂ := by
    rw [Path.order, Path.orderParts_eq] at h₁ h₂ ⊢
    exact TransCmp.isLE_trans h₁ h₂

instance : LawfulEqCmp Path.order where
  eq_of_compare {a b} h := by
    rw [Path.order, Path.orderParts_eq] at h
    obtain ⟨_⟩ := a
    obtain ⟨_⟩ := b
    exact congrArg Path.mk (LawfulEqCmp.eq_of_compare h)

end CodeSurvey
