import Mathlib.Algebra.BigOperators.Group.Finset.Basic
import Mathlib.Algebra.GroupWithZero.Nat
import Mathlib.Data.List.Nodup

/-!
# Lists of entries

What is found under a key in a list of entries, and what becomes of a list item by item.

* `lookup_of_mem`: an entry is found if no other has its key.
* `lookup_filter`: entries under other keys do not matter.
* `sum_countP_eq`: counting for each key, and adding up, counts every item that counts for some key.
* `isSome_mapM` and `mem_mapM_iff`: there are results if every item has one, and they are those of
  the items.
* `forall₂_of_map_eq`: two lists that are the same under a key are paired by it.
-/

namespace CodeSurvey

/-! ### Keys -/

section

variable {α β : Type} [BEq α] [LawfulBEq α] {entries : List (α × β)} {a : α} {b : β}

theorem lookup_of_mem : ∀ {entries : List (α × β)},
    (entries.map Prod.fst).Nodup → (a, b) ∈ entries → entries.lookup a = some b
  | (a', b') :: rest, nodup, h => by
      obtain ⟨fresh, nodup⟩ := List.nodup_cons.1 nodup
      rcases List.mem_cons.1 h with first | later
      · cases first
        simp
      · have ne : a ≠ a' := fun same => fresh (List.mem_map.2 ⟨(a, b), later, same⟩)
        rw [List.lookup_cons, beq_false_of_ne ne]
        exact lookup_of_mem nodup later

theorem lookup_of_notMem (h : a ∉ entries.map Prod.fst) : entries.lookup a = none := by
  rw [List.lookup_eq_none_iff]
  intro p hp
  simpa using fun e => h (List.mem_map.2 ⟨p, hp, e.symm⟩)

theorem mem_of_lookup (h : entries.lookup a = some b) : (a, b) ∈ entries := by
  obtain ⟨before, after, eq, -⟩ := List.lookup_eq_some_iff.1 h
  rw [eq]
  exact List.mem_append_right _ List.mem_cons_self

/-- Entries under other keys do not matter. -/
theorem lookup_filter {keep : α × β → Bool} (kept : ∀ b, keep (a, b)) :
    (entries.filter keep).lookup a = entries.lookup a := by
  induction entries with
  | nil => rfl
  | cons entry rest ih =>
      obtain ⟨a', b'⟩ := entry
      by_cases same : a = a'
      · subst same
        rw [List.filter_cons_of_pos (kept b'), List.lookup_cons_self, List.lookup_cons_self]
      · rw [List.lookup_cons, beq_false_of_ne same, ← ih, List.filter_cons]
        split
        · rw [List.lookup_cons, beq_false_of_ne same]
        · rfl

end

/-- **Counting for each key, and adding up, counts every item that counts for a key.** -/
theorem sum_countP_eq {ι κ : Type} [DecidableEq κ] {keys : List κ} (distinct : keys.Nodup)
    (items : List ι) {counted : ι → Option κ}
    (known : ∀ x ∈ items, ∀ key, counted x = some key → key ∈ keys) :
    (keys.map fun key => items.countP fun x => counted x = some key).sum =
      items.countP fun x => (counted x).isSome := by
  have each : ∀ key, (items.countP fun x => counted x = some key) =
      (items.filterMap counted).count key := by
    intro key
    rw [List.count, List.countP_filterMap]
    refine List.countP_congr fun x _ => ?_
    cases counted x <;> simp
  calc (keys.map fun key => items.countP fun x => counted x = some key).sum
      = (keys.map fun key => (items.filterMap counted).count key).sum := by simp only [each]
    _ = ∑ key ∈ keys.toFinset, Multiset.count key (items.filterMap counted) := by
        rw [List.sum_toFinset _ distinct]
        simp only [Multiset.coe_count]
    _ = (items.filterMap counted).length := by
        rw [Multiset.sum_count_eq_card, Multiset.coe_card]
        intro key h
        obtain ⟨x, there, counts⟩ := List.mem_filterMap.1 (Multiset.mem_coe.1 h)
        exact List.mem_toFinset.2 (known x there key counts)
    _ = items.countP fun x => (counted x).isSome := List.length_filterMap_eq_countP ..

/-! ### Item by item -/

section

variable {α β γ : Type} {f : α → Option β}

theorem isSome_mapM : ∀ {items : List α}, (items.mapM f).isSome ↔ ∀ x ∈ items, (f x).isSome
  | []            => by simp
  | item :: items => by
      have ih : (items.mapM f).isSome ↔ ∀ x ∈ items, (f x).isSome := isSome_mapM
      rw [List.mapM_cons, List.forall_mem_cons, ← ih]
      cases f item with
      | none => simp
      | some y => cases items.mapM f <;> simp

theorem mem_mapM_iff {y : β} : ∀ {items : List α} {results : List β}, items.mapM f = some results →
    (y ∈ results ↔ ∃ x ∈ items, f x = some y)
  | [], results, h => by
      cases h
      simp
  | item :: items, results, h => by
      rw [List.mapM_cons] at h
      obtain ⟨first, eq, h⟩ := Option.bind_eq_some_iff.1 h
      obtain ⟨rest, later, h⟩ := Option.bind_eq_some_iff.1 h
      cases h
      simp [eq, mem_mapM_iff later, eq_comm]

/-- What is done to every result can be done at the end. -/
theorem mapM_map (f : α → Option β) (g : β → γ) :
    ∀ items : List α, (items.mapM fun x => (f x).map g) = (items.mapM f).map (List.map g)
  | []            => rfl
  | item :: items => by
      rw [List.mapM_cons, List.mapM_cons, mapM_map f g items]
      cases f item with
      | none => rfl
      | some y => cases items.mapM f <;> rfl

/-- Results that name their items list them. -/
theorem map_of_mapM {g : β → α} (named : ∀ {x y}, f x = some y → g y = x) :
    ∀ {items : List α} {results : List β}, items.mapM f = some results → results.map g = items
  | [], results, h => by
      cases h
      rfl
  | item :: items, results, h => by
      rw [List.mapM_cons] at h
      obtain ⟨first, eq, h⟩ := Option.bind_eq_some_iff.1 h
      obtain ⟨rest, later, h⟩ := Option.bind_eq_some_iff.1 h
      cases h
      rw [List.map_cons, named eq, map_of_mapM named later]

/-- Two lists that are the same under a key are paired by it. -/
theorem forall₂_of_map_eq {key : α → γ} {key' : β → γ} {P : α → Prop} {Q : β → Prop} :
    ∀ {l : List α} {l' : List β}, l.map key = l'.map key' → (∀ a ∈ l, P a) → (∀ b ∈ l', Q b) →
      List.Forall₂ (fun a b => P a ∧ Q b ∧ key a = key' b) l l'
  | [], [], _, _, _ => .nil
  | a :: l, b :: l', h, hl, hl' => by
      obtain ⟨same, later⟩ := List.cons.inj h
      refine .cons ⟨hl a List.mem_cons_self, hl' b List.mem_cons_self, same⟩ ?_
      exact forall₂_of_map_eq later (fun x hx => hl x (.tail _ hx)) fun x hx => hl' x (.tail _ hx)

end

end CodeSurvey
