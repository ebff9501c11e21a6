import CodeSurvey.Proofs.Entries
import CodeSurvey.Toml.Reader

/-!
# Assembling tables

Lines that open new tables and add new keys to them are assembled to the tables that they spell.

* `nest`: the table that a header has opened last, with what stands around it.
* `alter_nest`: a change at that table leaves all around it.
* `assemble_pairs`, `assemble_section`: entries go to the end of that table, and a header opens one
  inside of it.
-/

namespace CodeSurvey.Toml

/-! ### Keys -/

section

variable {slots : Slots} {key : String} {slot other : Slot}

theorem not_any_of_notMem (fresh : key ∉ slots.map Prod.fst) : ¬ slots.any (·.1 == key) = true := by
  rw [List.any_eq_true]
  rintro ⟨entry, there, same⟩
  exact fresh (List.mem_map.2 ⟨entry, there, eq_of_beq same⟩)

/-- A new key stands at the end. -/
theorem set_of_notMem (fresh : key ∉ slots.map Prod.fst) :
    slots.set key slot = slots ++ [(key, slot)] := by
  rw [Slots.set, if_neg (not_any_of_notMem fresh)]

/-- A key at the end can be set again. -/
theorem set_last (fresh : key ∉ slots.map Prod.fst) :
    Slots.set (slots ++ [(key, slot)]) key other = slots ++ [(key, other)] := by
  have kept : ∀ e ∈ slots, (if e.1 == key then (key, other) else e) = e := by
    intro e there
    rw [if_neg]
    exact fun same => fresh (List.mem_map.2 ⟨e, there, eq_of_beq same⟩)
  rw [Slots.set, if_pos (by simp), List.map_append, List.map_congr_left kept]
  simp

theorem lookup_last (fresh : key ∉ slots.map Prod.fst) :
    (slots ++ [(key, slot)]).lookup key = some slot := by
  rw [List.lookup_append, lookup_of_notMem fresh]
  simp

end

/-! ### The table opened last -/

/-- A table inside others. Of each it stands in, the entries before and its key are given, the
outermost first. -/
def nest : List (Slots × String) → Slots → Slots
  | [], inner                    => inner
  | (before, key) :: more, inner => before ++ [(key, .table false false (nest more inner))]

/-- The path to a table inside others. -/
def pathOf (around : List (Slots × String)) : List String :=
  around.map Prod.snd

/-- Tables whose keys are not taken. -/
def Fresh (around : List (Slots × String)) : Prop :=
  ∀ table ∈ around, table.2 ∉ table.1.map Prod.fst

section

variable {around : List (Slots × String)} {inner : Slots}

/-- **A change at a table leaves all around it.** -/
theorem alter_nest (fresh : Fresh around) (change : Bool → Slots → Option Slots) :
    Slots.alter false change false (pathOf around) (nest around inner) =
      (change false inner).map (nest around) := by
  induction around with
  | nil => simp [pathOf, Slots.alter, nest]
  | cons table around ih =>
      obtain ⟨before, key⟩ := table
      have own : key ∉ before.map Prod.fst := fresh (before, key) List.mem_cons_self
      have later := ih fun t ht => fresh t (.tail _ ht)
      rw [pathOf] at later
      simp only [pathOf, List.map_cons, nest, Slots.alter, lookup_last own, Bool.false_and,
        Bool.false_eq_true, if_false, later, Option.map_map]
      congr 1
      -- the changed table is set where the old one stood, at the end
      funext changed
      exact set_last own

/-- A table inside another is one level more of nesting. -/
theorem nest_append (before inner : Slots) (key : String) :
    nest (around ++ [(before, key)]) inner =
      nest around (before ++ [(key, .table false false inner)]) := by
  induction around with
  | nil => rfl
  | cons table around ih => rw [List.cons_append, nest, ih, nest]

/-- A header opens a new table at the end of the one that it stands in. -/
theorem openTable_nest (fresh : Fresh around) {key : String} (new : key ∉ inner.map Prod.fst) :
    Slots.openTable (pathOf around) key (nest around inner) =
      some (nest (around ++ [(inner, key)]) []) := by
  rw [Slots.openTable, alter_nest fresh, lookup_of_notMem new, set_of_notMem new, nest_append]
  rfl

/-- An entry goes to the end of the table that the last header opened. -/
theorem insertAt_nest (fresh : Fresh around) {key : String} (new : key ∉ inner.map Prod.fst)
    (v : Value) :
    Slots.insertAt (pathOf around) [] key v (nest around inner) =
      some (nest around (inner ++ [(key, .value v)])) := by
  rw [Slots.insertAt, alter_nest fresh, Slots.insert, Slots.alter, if_neg (by simp),
    if_neg (not_any_of_notMem new), set_of_notMem new]
  rfl

/-! ### Lines -/

/-- The lines of entries. -/
def pairLines (entries : List (String × Value)) : List Line :=
  entries.map fun entry => .pair [] entry.1 entry.2

/-- Entries as slots. -/
def valueSlots (entries : List (String × Value)) : Slots :=
  entries.map fun entry => (entry.1, .value entry.2)

/-- Values stand under their own keys. -/
theorem keys_valueSlots (entries : List (String × Value)) :
    (valueSlots entries).map Prod.fst = entries.map Prod.fst := by
  rw [valueSlots, List.map_map]
  rfl

/-- **Entries with new keys go to the table that the last header opened.** -/
theorem assemble_pairs (fresh : Fresh around) {entries : List (String × Value)}
    (distinct : (inner.map Prod.fst ++ entries.map Prod.fst).Nodup) (rest : List Line) :
    assemble (pairLines entries ++ rest) (pathOf around) (nest around inner) =
      assemble rest (pathOf around) (nest around (inner ++ valueSlots entries)) := by
  induction entries generalizing inner with
  | nil => rw [pairLines, List.map_nil, List.nil_append, valueSlots, List.map_nil, List.append_nil]
  | cons entry entries ih =>
      have new : entry.1 ∉ inner.map Prod.fst := fun there =>
        (List.nodup_append.1 distinct).2.2 _ there _ List.mem_cons_self rfl
      have later := @ih (inner ++ [(entry.1, .value entry.2)]) (by simpa using distinct)
      rw [List.append_assoc] at later
      rw [pairLines, List.map_cons, List.cons_append, assemble, insertAt_nest fresh new]
      exact later

/-- A table that is opened under a new key stays fresh. -/
theorem Fresh.append (fresh : Fresh around) {key : String} (new : key ∉ inner.map Prod.fst) :
    Fresh (around ++ [(inner, key)]) := by
  intro table there
  rcases List.mem_append.1 there with outer | last
  · exact fresh table outer
  · rw [List.mem_singleton.1 last]
    exact new

/-- **A header with a new key opens a table inside the one of its path**, which the entries after it
go to. An empty line stands before the header. -/
theorem assemble_section (fresh : Fresh around) {key : String} (new : key ∉ inner.map Prod.fst)
    {entries : List (String × Value)} (distinct : (entries.map Prod.fst).Nodup) (rest : List Line)
    (current : List String) :
    assemble (.nothing :: .table (pathOf around) key :: (pairLines entries ++ rest)) current
        (nest around inner) =
      assemble rest (pathOf (around ++ [(inner, key)]))
        (nest (around ++ [(inner, key)]) (valueSlots entries)) := by
  have opened : pathOf around ++ [key] = pathOf (around ++ [(inner, key)]) := by simp [pathOf]
  rw [assemble, assemble, openTable_nest fresh new, Option.bind_some, opened]
  exact @assemble_pairs _ [] (fresh.append new) entries distinct rest

end

/-! ### Finished tables -/

/-- Tables are finished entry by entry. -/
theorem finishEntries_append (slots later : Slots) :
    finishEntries (slots ++ later) = finishEntries slots ++ finishEntries later := by
  induction slots with
  | nil => rfl
  | cons entry slots ih =>
      rw [List.cons_append, finishEntries, finishEntries, ih]
      rfl

/-- Values are finished as they are. -/
theorem finishEntries_valueSlots (entries : List (String × Value)) :
    finishEntries (valueSlots entries) = entries := by
  induction entries with
  | nil => rfl
  | cons entry entries ih =>
      rw [valueSlots, List.map_cons, finishEntries, Slot.finish]
      exact congrArg _ ih

end CodeSurvey.Toml
