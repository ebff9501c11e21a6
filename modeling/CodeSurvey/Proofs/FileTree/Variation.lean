import CodeSurvey.Proofs.FileTree.Following
import CodeSurvey.Proofs.Order
import Mathlib.Data.List.Sort

/-!
# File trees that differ in some files

Two trees that differ in nothing but files at some places: at each of these there is a file or
nothing in both. Every path leads to the same place in both of them.

* `Varies`: the relation, and `Varies.put` that writing to one of the places keeps it.
* `Varies.follow`: paths lead to the same places.
* `Varies.namesIn`: directories have the same names, but for those of the places.
-/

namespace CodeSurvey

namespace FileTree

/-- What a place holds when there is a file or nothing. -/
def IsWritable (entry : Option FileEntry) : Prop :=
  entry = none ∨ ∃ content modified, entry = some (.file content modified)

/-- Two trees differ in nothing but files at some places. -/
structure Varies (places : List Place) (s t : FileTree) : Prop where
  here        : t.here = s.here
  outside     : ∀ q, q ∉ places → t.entryAt q = s.entryAt q
  before      : ∀ q ∈ places, IsWritable (s.entryAt q)
  after       : ∀ q ∈ places, IsWritable (t.entryAt q)
  listed      : ∀ q, q ∉ places → (q ∈ t.entries.map Prod.fst ↔ q ∈ s.entries.map Prod.fst)
  distinct    : (t.entries.map Prod.fst).Nodup
  directories : t.directories = s.directories

variable {s t : FileTree} {places : List Place}

/-! ### Writing to a place -/

theorem put_entries (q : Place) (entry : FileEntry) :
    (t.put q entry).entries = t.entries.filter (fun e => e.1 ≠ q) ++ [(q, entry)] := rfl

/-- **What is put at a place is there**, and everything else is where it was. -/
theorem entryAt_put {q : Place} (ne : q ≠ []) (entry : FileEntry) (place : Place) :
    (t.put q entry).entryAt place = if place = q then some entry else t.entryAt place := by
  by_cases root : place = []
  · subst root
    rw [if_neg (Ne.symm ne)]
    rfl
  · rw [entryAt_of_ne_nil root, entryAt_of_ne_nil root, put_entries, List.lookup_append]
    by_cases same : place = q
    · subst same
      have gone : place ∉ (t.entries.filter fun e => e.1 ≠ place).map Prod.fst := by
        intro h
        obtain ⟨e, he, same⟩ := List.mem_map.1 h
        exact of_decide_eq_true (List.mem_filter.1 he).2 same
      rw [lookup_of_notMem gone, if_pos rfl, List.lookup_cons_self]
      rfl
    · rw [lookup_filter fun _ => decide_eq_true same, if_neg same, List.lookup_cons,
        beq_false_of_ne same]
      exact Option.or_none

/-- No place is there twice. -/
theorem nodup_put (distinct : (t.entries.map Prod.fst).Nodup) (q : Place) (entry : FileEntry) :
    ((t.put q entry).entries.map Prod.fst).Nodup := by
  rw [put_entries, List.map_append, List.nodup_append]
  refine ⟨(List.filter_sublist.map _).nodup distinct, by simp, ?_⟩
  intro p hp p' hp'
  obtain ⟨e, he, rfl⟩ := List.mem_map.1 hp
  rw [List.mem_singleton.1 hp']
  simpa using (List.mem_filter.1 he).2

theorem IsWritable.ne_directory {entry : Option FileEntry} (h : IsWritable entry) :
    entry ≠ some .directory := by
  rcases h with rfl | ⟨_, _, rfl⟩
  · exact nofun
  · exact nofun

theorem IsWritable.ne_nil {q : Place} (h : IsWritable (t.entryAt q)) : q ≠ [] := by
  rintro rfl
  exact h.ne_directory rfl

/-- A tree varies from itself at places that can be written. -/
theorem Varies.refl (distinct : (s.entries.map Prod.fst).Nodup)
    (writable : ∀ q ∈ places, IsWritable (s.entryAt q)) : Varies places s s where
  here := rfl
  outside _ _ := rfl
  before := writable
  after := writable
  listed _ _ := .rfl
  distinct := distinct
  directories := rfl

/-- The clock does not matter. -/
theorem Varies.clock (h : Varies places s t) (clock : Nat) :
    Varies places s { t with clock } :=
  ⟨h.here, h.outside, h.before, h.after, h.listed, h.distinct, h.directories⟩

/-- **Writing a file to one of the places keeps all else.** -/
theorem Varies.put (h : Varies places s t) {q : Place} (there : q ∈ places) (content : ByteArray)
    (modified : Nat) : Varies places s (t.put q (.file content modified)) where
  here := h.here
  outside p hp := by
    have ne : p ≠ q := fun e => hp (e ▸ there)
    rw [entryAt_put (h.after q there).ne_nil, if_neg ne, h.outside p hp]
  before := h.before
  after p hp := by
    rw [entryAt_put (h.after q there).ne_nil]
    split
    · exact .inr ⟨content, modified, rfl⟩
    · exact h.after p hp
  listed p hp := by
    have ne : p ≠ q := fun e => hp (e ▸ there)
    rw [← h.listed p hp, put_entries]
    simp [ne]
  distinct := nodup_put h.distinct q _
  directories := by
    rw [← h.directories, FileTree.directories, FileTree.directories, put_entries,
      List.filterMap_append, List.filterMap_filter, List.filterMap_cons, List.filterMap_nil,
      List.append_nil]
    refine List.filterMap_congr fun e he => ?_
    obtain ⟨place, entry⟩ := e
    by_cases same : place = q
    · -- what was there was a file, and is so now
      subst same
      have found := lookup_of_mem h.distinct he
      have writable := h.after place there
      rw [entryAt_of_ne_nil writable.ne_nil, found] at writable
      rcases writable with eq | ⟨_, _, eq⟩
      · cases eq
      · cases eq
        simp
    · simp [same]

/-! ### Paths -/

/-- Two answers to following a path: both refuse, or both give one place and what is there. -/
inductive Agree (s t : FileTree) :
    Except OsError (Place × Option FileEntry) →
      Except OsError (Place × Option FileEntry) → Prop where
  | refused (e e' : OsError) : Agree s t (.error e) (.error e')
  | there (q : Place) : Agree s t (.ok (q, s.entryAt q)) (.ok (q, t.entryAt q))

/-- A way that leads somewhere leads to the same place in the other tree. -/
theorem Agree.of_ok {r r' : Except OsError (Place × Option FileEntry)} (h : Agree s t r r')
    {q : Place} {entry : Option FileEntry} (eq : r = .ok (q, entry)) :
    entry = s.entryAt q ∧ r' = .ok (q, t.entryAt q) := by
  cases h with
  | refused => cases eq
  | there =>
      obtain ⟨rfl, rfl⟩ := Prod.mk.inj (Except.ok.inj eq)
      exact ⟨rfl, rfl⟩

/-- **One walk along names leads to the same place in both trees**, if following links does. -/
theorem Varies.walk (h : Varies places s t) {followLast : Bool}
    {onLink onLink' : Place → Path → List Component → Except OsError (Place × Option FileEntry)}
    (links : ∀ directory target rest,
      Agree s t (onLink directory target rest) (onLink' directory target rest)) :
    ∀ (parts : List Component) (place : Place),
      Agree s t (s.walk followLast onLink place parts) (t.walk followLast onLink' place parts)
  | [], place => .there place
  | .root :: rest, _ => h.walk links rest []
  | .here :: rest, place => h.walk links rest place
  | .up :: rest, place => h.walk links rest place.dropLast
  | .name name :: rest, place => by
      rw [FileTree.walk, FileTree.walk]
      have ends := Agree.there (s := s) (t := t) (place ++ [name])
      by_cases there : place ++ [name] ∈ places
      · -- a file or nothing ends a path, and refuses one that goes on
        rcases h.before _ there with eq | ⟨c, m, eq⟩ <;>
          rcases h.after _ there with eq' | ⟨c', m', eq'⟩ <;>
          rw [eq, eq'] at ends ⊢ <;> dsimp only
        all_goals
          split
          · exact ends
          · exact .refused _ _
      · rw [h.outside _ there] at ends ⊢
        cases entry : s.entryAt (place ++ [name]) with
        | none =>
            rw [entry] at ends
            dsimp only
            split
            · exact ends
            · exact .refused _ _
        | some found =>
            rw [entry] at ends
            cases found with
            | file =>
                dsimp only
                split
                · exact ends
                · exact .refused _ _
            | directory => exact h.walk links rest _
            | link target =>
                dsimp only
                split
                · exact ends
                · exact links _ _ _

/-- **Paths lead to the same places.** -/
theorem Varies.follow (h : Varies places s t) (followLast : Bool) :
    ∀ (n : Nat) (place : Place) (parts : List Component),
      Agree s t (s.follow followLast n place parts) (t.follow followLast n place parts)
  | 0, place, parts => h.walk (fun _ _ _ => .refused _ _) parts place
  | n + 1, place, parts => h.walk (fun _ _ _ => h.follow followLast n _ _) parts place

/-- So does a path. -/
theorem Varies.locate (h : Varies places s t) (path : Path) (followLast : Bool) :
    Agree s t (s.locate path followLast) (t.locate path followLast) := by
  rw [FileTree.locate, FileTree.locate, h.here]
  exact h.follow followLast 40 s.here path.parts

/-- The directories are the same ones. -/
theorem Varies.directory_iff (h : Varies places s t) {q : Place} :
    t.entryAt q = some .directory ↔ s.entryAt q = some .directory := by
  by_cases there : q ∈ places
  · exact iff_of_false (h.after q there).ne_directory (h.before q there).ne_directory
  · rw [h.outside q there]

/-- A path that leads to a directory does so in both trees. -/
theorem Varies.locate_directory (h : Varies places s t) {path : Path} {q : Place}
    (leads : s.locate path = .ok (q, some .directory)) :
    t.locate path = .ok (q, some .directory) := by
  obtain ⟨there, eq⟩ := (h.locate path true).of_ok leads
  rw [eq, h.directory_iff.2 there.symm]

/-! ### Names -/

/-- The names in a directory are those of the entries there. -/
theorem mem_namesIn {directory : Place} {name : String} :
    name ∈ s.namesIn directory ↔ directory ++ [name] ∈ s.entries.map Prod.fst := by
  rw [namesIn, mem_sortedSet, List.mem_filterMap, List.mem_map]
  refine exists_congr fun listed => and_congr_right fun _ => ?_
  constructor
  · intro h
    obtain ⟨inside, last⟩ := Option.ite_none_right_eq_some.1 h
    rw [← inside]
    exact (List.dropLast_append_getLast? name last).symm
  · intro h
    simp [h]

/-- **Directories have the same names, but for those of the places.** -/
theorem Varies.namesIn (h : Varies places s t) (directory : Place) :
    (t.namesIn directory).filter (fun name => directory ++ [name] ∉ places) =
      (s.namesIn directory).filter (fun name => directory ++ [name] ∉ places) := by
  have strict : Std.Asymm fun a b : String => compare a b = .lt :=
    ⟨fun a b lt gt => by rw [Std.OrientedCmp.gt_of_lt lt] at gt; cases gt⟩
  refine ((pairwise_sortedSet _).filter _).eq_of_mem_iff ((pairwise_sortedSet _).filter _) ?_
  intro name
  rw [List.mem_filter, List.mem_filter]
  refine and_congr_left fun there => ?_
  exact mem_namesIn.trans ((h.listed _ (of_decide_eq_true there)).trans mem_namesIn.symm)

end FileTree

end CodeSurvey
