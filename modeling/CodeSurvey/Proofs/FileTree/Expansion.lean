import CodeSurvey.Proofs.FileTree.Variation
import Mathlib.Data.Finset.Card

/-!
# Directories with their links expanded

What lies below a directory when a link to a directory counts as one. A link to a directory that it
is inside of is a leaf, so a way down is finite, although it may come to a place more than once.

* `Shows`: what a name in a directory shows, and `Shows.unique` that it is one thing.
* `HoldsFile`: the files below a directory, and `HoldsFile.unique` that each has one size.
* `room_lt`: how far down the ways can go on. Every step takes some of it.
-/

namespace CodeSurvey

namespace FileTree

/-! ### Files below a directory -/

/-- What a name in a directory shows: what is there, or what a link leads to, if links are followed.
A link to one of the directories that it is inside of shows nothing; `above` are those around the
directory. -/
inductive Shows (tree : FileTree) (follows : Bool) (above : List Place) (place : Place)
    (name : String) : Place → FileEntry → Prop where
  | entry {entry : FileEntry} (there : tree.entryAt (place ++ [name]) = some entry)
      (plain : ∀ text, entry ≠ .link text) :
      Shows tree follows above place name (place ++ [name]) entry
  | link {text : String} {target : Place} {entry : FileEntry}
      (there : tree.entryAt (place ++ [name]) = some (.link text)) (on : follows = true)
      (leads : tree.follow true 40 place [.name name] = .ok (target, some entry))
      (leaves : entry = .directory → target ∉ place :: above) :
      Shows tree follows above place name target entry

/-- A file with its names below a directory and its size. -/
inductive HoldsFile (tree : FileTree) (follows : Bool) :
    List Place → Place → List String → Nat → Prop where
  | file {above : List Place} {place target : Place} {name : String} {content : ByteArray}
      {modified : Nat}
      (shown : tree.Shows follows above place name target (.file content modified)) :
      HoldsFile tree follows above place [name] content.size
  | inside {above : List Place} {place target : Place} {name : String} {rest : List String}
      {size : Nat} (shown : tree.Shows follows above place name target .directory)
      (later : HoldsFile tree follows (place :: above) target rest size) :
      HoldsFile tree follows above place (name :: rest) size

variable {tree : FileTree} {follows : Bool} {above : List Place} {place target : Place}
  {name : String} {rest : List String} {size : Nat}

/-- **A name shows one thing.** -/
theorem Shows.unique {target' : Place} {entry entry' : FileEntry}
    (h : tree.Shows follows above place name target entry)
    (h' : tree.Shows follows above place name target' entry') :
    target = target' ∧ entry = entry' := by
  cases h with
  | entry there plain =>
      cases h' with
      | entry there' => exact ⟨rfl, Option.some.inj (there.symm.trans there')⟩
      | link there' => exact absurd (Option.some.inj (there.symm.trans there')) (plain _)
  | link there on leads =>
      cases h' with
      | entry there' plain => exact absurd (Option.some.inj (there'.symm.trans there)) (plain _)
      | link _ _ leads' =>
          cases leads.symm.trans leads'
          exact ⟨rfl, rfl⟩

/-- A link shows what it leads to, or nothing. -/
theorem Shows.of_link {entry : FileEntry} {text : String}
    (h : tree.Shows follows above place name target entry)
    (isLink : tree.entryAt (place ++ [name]) = some (.link text)) :
    follows = true ∧ tree.follow true 40 place [.name name] = .ok (target, some entry) ∧
      (entry = .directory → target ∉ place :: above) := by
  cases h with
  | entry there plain => exact absurd (Option.some.inj (there.symm.trans isLink)) (plain text)
  | link _ on leads leaves => exact ⟨on, leads, leaves⟩

theorem Shows.mem_namesIn {entry : FileEntry}
    (h : tree.Shows follows above place name target entry) : name ∈ tree.namesIn place := by
  cases h with
  | entry there | link there =>
      exact FileTree.mem_namesIn.2 (List.mem_map_of_mem (mem_of_entryAt there))

theorem HoldsFile.ne_nil (h : tree.HoldsFile follows above place rest size) : rest ≠ [] := by
  cases h <;> simp

/-- The first name of a file is one in the directory. -/
theorem HoldsFile.head (h : tree.HoldsFile follows above place rest size) :
    ∃ name ∈ tree.namesIn place, rest.head? = some name := by
  cases h with
  | file shown | inside shown => exact ⟨_, shown.mem_namesIn, rfl⟩

/-- Below a name that shows a file there is that file. -/
theorem Shows.holdsFile_iff {content : ByteArray} {modified : Nat}
    (shown : tree.Shows follows above place name target (.file content modified)) :
    tree.HoldsFile follows above place (name :: rest) size ↔ rest = [] ∧ size = content.size := by
  constructor
  · intro h
    cases h with
    | file shown' =>
        cases (shown.unique shown').2
        exact ⟨rfl, rfl⟩
    | inside shown' => cases (shown.unique shown').2
  · rintro ⟨rfl, rfl⟩
    exact .file shown

/-- Below a name that shows a directory there is what is below the directory. -/
theorem Shows.holdsFile_cons_iff
    (shown : tree.Shows follows above place name target .directory) :
    tree.HoldsFile follows above place (name :: rest) size ↔
      tree.HoldsFile follows (place :: above) target rest size := by
  constructor
  · intro h
    cases h with
    | file shown' => cases (shown.unique shown').2
    | inside shown' later =>
        cases (shown.unique shown').1
        exact later
  · exact .inside shown

/-- **A file has one size.** -/
theorem HoldsFile.unique (h : tree.HoldsFile follows above place rest size) {size' : Nat}
    (h' : tree.HoldsFile follows above place rest size') : size = size' := by
  induction h with
  | file shown => exact (shown.holdsFile_iff.1 h').2.symm
  | inside shown _ ih => exact ih (shown.holdsFile_cons_iff.1 h')

/-- Below a name that shows neither there is nothing. -/
theorem not_holdsFile_cons
    (links : ∀ target entry, tree.Shows follows above place name target entry →
      ∃ text, entry = .link text) : ¬ tree.HoldsFile follows above place (name :: rest) size := by
  intro h
  cases h with
  | file shown =>
      obtain ⟨text, eq⟩ := links _ _ shown
      cases eq
  | inside shown =>
      obtain ⟨text, eq⟩ := links _ _ shown
      cases eq

/-! ### Ways down -/

/-- The greatest number of names on the way to a directory. -/
def longest (tree : FileTree) : Nat :=
  tree.directories.foldl (fun depth place => max depth place.length) 0

theorem length_le_longest (h : place ∈ tree.directories) : place.length ≤ tree.longest := by
  have eq : tree.longest = (tree.directories.map List.length).foldl max 0 := List.foldl_map.symm
  have there : place.length ∈ tree.directories.map List.length := List.mem_map_of_mem h
  rw [eq, List.foldl_max, Nat.zero_max, List.max?_eq_some_max (List.ne_nil_of_mem there)]
  exact List.le_max_of_mem there

theorem mem_directories (h : tree.entryAt place = some .directory) :
    place ∈ [] :: tree.directories := by
  by_cases root : place = []
  · rw [root]
    exact List.mem_cons_self
  · rw [entryAt_of_ne_nil root] at h
    exact .tail _ (List.mem_filterMap.2 ⟨_, mem_of_lookup h, rfl⟩)

/-- The directories that a way down has not come through. -/
def unseen (tree : FileTree) (seen : List Place) : Finset Place :=
  ([] :: tree.directories).toFinset \ seen.toFinset

theorem card_unseen_le (tree : FileTree) (seen : List Place) :
    (tree.unseen seen).card ≤ tree.directories.length + 1 :=
  (Finset.card_le_card Finset.sdiff_subset).trans (List.toFinset_card_le _)

theorem unseen_cons (tree : FileTree) (seen : List Place) (place : Place) :
    tree.unseen (place :: seen) = (tree.unseen seen).erase place := by
  rw [unseen, List.toFinset_cons (l := seen), Finset.sdiff_insert]
  rfl

/-- How many steps a way down from a directory can still take at most: a link leads to one of the
directories that the way has not come through, and a step without a link gets deeper. -/
def room (tree : FileTree) (above : List Place) (place : Place) : Nat :=
  (tree.unseen (place :: above)).card * (tree.longest + 1) + (tree.longest - place.length)

/-- **Every step down leaves less room.** -/
theorem Shows.room_lt (shown : tree.Shows follows above place name target .directory) :
    tree.room (place :: above) target < tree.room above place := by
  rw [room, room, unseen_cons tree (place :: above) target]
  cases shown with
  | entry there =>
      have deep : (place ++ [name]).length ≤ tree.longest :=
        length_le_longest (List.mem_filterMap.2 ⟨_, mem_of_entryAt there, rfl⟩)
      have fewer := Nat.mul_le_mul_right (tree.longest + 1)
        (Finset.card_erase_le (s := tree.unseen (place :: above)) (a := place ++ [name]))
      rw [List.length_append, List.length_singleton] at deep ⊢
      omega
  | link there on leads leaves =>
      have directory := mem_directories (follow_eq_ok_iff.1 leads).2.symm
      have new : target ∈ tree.unseen (place :: above) :=
        Finset.mem_sdiff.2 ⟨List.mem_toFinset.2 directory, by simpa using leaves rfl⟩
      have fewer := Nat.mul_le_mul_right (tree.longest + 1)
        (Nat.succ_le_of_lt (Finset.card_erase_lt_of_mem new))
      rw [Nat.succ_mul] at fewer
      omega

end FileTree

end CodeSurvey
