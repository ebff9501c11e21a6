import CodeSurvey.Document.Bounded
import CodeSurvey.Proofs.Path
import Mathlib.Algebra.GroupWithZero.Nat

/-!
# What a cut list takes up

The cutter adds up what the kept entries take up and never lets the sum pass the budget, the entry
for the missing ones included.

* `sum_boundedFrom_le` is what the loop keeps, and `sum_bounded_le` the bound that follows.
* `bounded_zero`: without a budget nothing is kept, for every entry has a separator after it.
* `length_intercalate_le_sum`: entries on one line take up no more than was counted for them.

At every entry the cutter leaves room for saying that the later ones are missing, before it knows
whether they will be.

* `bounded_cut`: so it keeps entries from the front up to the first one without this room, says how
  many are missing if there is room for that, and stays within its budget.
* `FitsMarked` says that this room is there at every entry, and `boundedFrom_eq_self_iff` that a
  list stays whole exactly then.
* `bounded_eq_self_iff`: so a list that is within its budget stays whole if what is left of it is
  never shorter than the entry that would stand for it, and may be cut if it is
  (`bounded_cuts_short_rest`).
-/

namespace CodeSurvey

/-- **The room that a cut list takes up is within its budget.** This is about the entries that are
left, when those before them have used up some of the budget. -/
theorem sum_boundedFrom_le (budget separator : Nat) : ∀ {used : Nat} (entries : List String),
    used ≤ budget →
      used + ((boundedFrom budget separator used entries).map (entryCost separator)).sum ≤ budget
  | used, [], within => within
  | used, entry :: rest, within => by
      rw [boundedFrom]
      split
      · -- the entry does not fit, and perhaps not even the one for the missing ones
        dsimp only
        split
        · rename_i fits
          simpa using fits
        · simpa using within
      · rename_i fits
        have kept : used + entryCost separator entry ≤ budget := by omega
        have ih := sum_boundedFrom_le budget separator rest kept
        rw [List.map_cons, List.sum_cons]
        omega

theorem sum_bounded_le (entries : List String) (budget separator : Nat) :
    ((bounded entries budget separator).map (entryCost separator)).sum ≤ budget := by
  have whole := sum_boundedFrom_le budget separator entries (Nat.zero_le budget)
  rwa [Nat.zero_add] at whole

theorem bounded_zero {separator : Nat} (wide : 0 < separator) (entries : List String) :
    bounded entries 0 separator = [] := by
  have none := sum_bounded_le entries 0 separator
  cases eq : bounded entries 0 separator with
  | nil => rfl
  | cons entry rest =>
      rw [eq, List.map_cons, List.sum_cons, entryCost] at none
      omega

/-- Entries on one line take up no more than was counted for them: the last separator is left
out. -/
theorem length_intercalate_le_sum (separator : String) : ∀ entries : List String,
    (String.intercalate separator entries).length ≤
      (entries.map (entryCost separator.length)).sum
  | []      => Nat.zero_le _
  | [entry] => by
      rw [String.intercalate_singleton, List.map_singleton, List.sum_singleton, entryCost]
      omega
  | entry :: next :: rest => by
      have ih := length_intercalate_le_sum separator (next :: rest)
      rw [String.intercalate_cons_cons, String.length_append, String.length_append, List.map_cons,
        List.sum_cons, entryCost]
      omega

/-! ### Lists that are cut -/

/-- The entry for missing ones, if some are missing and there is room for it after the characters
used. -/
def cutMarker (budget separator used missing : Nat) : List String :=
  if 0 < missing ∧ used + entryCost separator (moreMarker missing) ≤ budget then
    [moreMarker missing]
  else []

/-- **Where a list is cut**, when those before it have used up some of the budget. -/
theorem boundedFrom_cut (budget separator : Nat) : ∀ (used : Nat) (entries : List String),
    ∃ kept left, entries = kept ++ left ∧
      boundedFrom budget separator used entries =
        kept ++ cutMarker budget separator (used + (kept.map (entryCost separator)).sum)
          left.length ∧
      ∀ entry rest, left = entry :: rest →
        budget < used + (kept.map (entryCost separator)).sum + entryCost separator entry +
          markerCost separator rest.length
  | _, [] => ⟨[], [], rfl, rfl, nofun⟩
  | used, entry :: rest => by
      by_cases full : budget <
          used + entryCost separator entry + markerCost separator rest.length
      · -- the cut is here
        refine ⟨[], entry :: rest, rfl, ?_, ?_⟩
        · rw [boundedFrom, if_pos full, cutMarker]
          simp
        · rintro _ _ ⟨⟩
          exact full
      · obtain ⟨kept, left, split, cut, first⟩ := boundedFrom_cut budget separator
          (used + entryCost separator entry) rest
        have sum : used + ((entry :: kept).map (entryCost separator)).sum =
            used + entryCost separator entry + (kept.map (entryCost separator)).sum := by
          rw [List.map_cons, List.sum_cons, Nat.add_assoc]
        refine ⟨entry :: kept, left, by rw [split, List.cons_append], ?_, ?_⟩
        · rw [boundedFrom, if_neg full, cut, sum, List.cons_append]
        · rwa [sum]

/-- **What cutting a list gives.** It keeps entries from the front. If it leaves some out, an entry
with their number follows exactly if there is room for it, and the first of them had no room
together with what would have said that those after it are missing. All that is returned is within
the budget, separators included. -/
theorem bounded_cut (entries : List String) (budget separator : Nat) :
    ∃ kept left, entries = kept ++ left ∧
      bounded entries budget separator =
        kept ++
          (if left ≠ [] ∧ (kept.map (entryCost separator)).sum +
              entryCost separator (moreMarker left.length) ≤ budget then
            [moreMarker left.length] else []) ∧
      ((bounded entries budget separator).map (entryCost separator)).sum ≤ budget ∧
      ∀ entry rest, left = entry :: rest →
        budget < ((kept ++ [entry]).map (entryCost separator)).sum +
          markerCost separator rest.length := by
  obtain ⟨kept, left, split, cut, first⟩ := boundedFrom_cut budget separator 0 entries
  rw [Nat.zero_add] at cut first
  refine ⟨kept, left, split, ?_, sum_bounded_le entries budget separator, ?_⟩
  · rw [bounded, cut, cutMarker]
    simp only [List.length_pos_iff]
  · rintro entry rest rfl
    have full := first entry rest rfl
    rw [List.map_append, List.sum_append, List.map_singleton, List.sum_singleton]
    omega

/-! ### Lists that stay whole -/

/-- At every entry there is room for it and for saying that those after it are missing, in what a
budget leaves after `used` characters. -/
def FitsMarked (budget separator used : Nat) (entries : List String) : Prop :=
  ∀ kept entry rest, entries = kept ++ entry :: rest →
    used + ((kept ++ [entry]).map (entryCost separator)).sum +
      markerCost separator rest.length ≤ budget

section

variable {budget separator used : Nat} {entry : String} {rest : List String}

theorem fitsMarked_cons : FitsMarked budget separator used (entry :: rest) ↔
    used + entryCost separator entry + markerCost separator rest.length ≤ budget ∧
      FitsMarked budget separator (used + entryCost separator entry) rest := by
  constructor
  · intro fits
    refine ⟨by simpa using fits [] entry rest rfl, fun kept next later eq => ?_⟩
    have room := fits (entry :: kept) next later (by rw [eq, List.cons_append])
    rw [List.cons_append, List.map_cons, List.sum_cons] at room
    omega
  · rintro ⟨first, fits⟩ kept next later eq
    cases kept with
    | nil =>
        obtain ⟨rfl, rfl⟩ := List.cons.inj eq
        simpa using first
    | cons head kept =>
        obtain ⟨rfl, rfl⟩ := List.cons.inj eq
        have room := fits kept next later rfl
        rw [List.cons_append, List.map_cons, List.sum_cons]
        omega

/-- An entry that is replaced is not what replaces it, which takes up less. -/
theorem boundedFrom_ne_of_lt
    (full : budget < used + entryCost separator entry + markerCost separator rest.length) :
    boundedFrom budget separator used (entry :: rest) ≠ entry :: rest := by
  rw [boundedFrom, if_pos full]
  dsimp only
  split
  · rename_i fits
    intro eq
    obtain ⟨rfl, rfl⟩ := List.cons.inj eq
    rw [markerCost, if_pos List.length_nil] at full
    omega
  · nofun

end

/-- **A list stays whole exactly if there is always room for the entry and the marker after it.** -/
theorem boundedFrom_eq_self_iff (budget separator : Nat) : ∀ {used : Nat} (entries : List String),
    boundedFrom budget separator used entries = entries ↔ FitsMarked budget separator used entries
  | _, [] => by simp [boundedFrom, FitsMarked]
  | used, entry :: rest => by
      rw [fitsMarked_cons]
      by_cases full : budget <
          used + entryCost separator entry + markerCost separator rest.length
      · exact iff_of_false (boundedFrom_ne_of_lt full) fun fits => absurd fits.1 (by omega)
      · rw [boundedFrom, if_neg full, List.cons_inj_right,
          boundedFrom_eq_self_iff budget separator rest]
        exact (and_iff_right (by omega)).symm

/-- **When a list stays whole.** It does exactly if at every entry there is room for the entries up
to it and for saying that those after it are missing. So a list that is within its budget stays
whole if, after every entry, those that are left take up as much as the entry that would stand for
them. -/
theorem bounded_eq_self_iff (entries : List String) (budget separator : Nat) :
    (bounded entries budget separator = entries ↔
      ∀ kept entry rest, entries = kept ++ entry :: rest →
        ((kept ++ [entry]).map (entryCost separator)).sum +
          markerCost separator rest.length ≤ budget) ∧
    ((entries.map (entryCost separator)).sum ≤ budget →
      (∀ kept rest, entries = kept ++ rest → kept ≠ [] →
        markerCost separator rest.length ≤ (rest.map (entryCost separator)).sum) →
      bounded entries budget separator = entries) := by
  have whole : bounded entries budget separator = entries ↔
      FitsMarked budget separator 0 entries := boundedFrom_eq_self_iff budget separator entries
  rw [FitsMarked] at whole
  simp only [Nat.zero_add] at whole
  refine ⟨whole, fun within long => whole.2 fun kept entry rest eq => ?_⟩
  have split : entries = (kept ++ [entry]) ++ rest := by rw [eq, List.append_assoc]; rfl
  have marker := long (kept ++ [entry]) rest split (by simp)
  rw [split, List.map_append, List.sum_append] at within
  omega

/-- Two long entries stay whole in just the room that they take up. -/
theorem bounded_eq_self_iff_long :
    (["- configuration", "- connection"].map (entryCost 1)).sum = 29 ∧
      bounded ["- configuration", "- connection"] 29 1 = ["- configuration", "- connection"] := by
  refine ⟨rfl, (bounded_eq_self_iff _ 29 1).2 (Nat.le_refl 29) fun kept rest eq some => ?_⟩
  match kept, rest, eq, some with
  | [_], [_], rfl, _ => decide
  | [_, _], [], rfl, _ => decide

/-- Two short entries take up eight characters, and in a room of eleven they are cut: after the
first there would be no room for saying that one is missing. -/
theorem bounded_cuts_short_rest :
    (["- a", "- b"].map (entryCost 1)).sum ≤ 11 ∧
      bounded ["- a", "- b"] 11 1 = ["... 2 more"] ∧
      bounded ["- a", "- b"] 11 1 ≠ ["- a", "- b"] := by
  refine ⟨by decide, rfl, by decide⟩

end CodeSurvey
