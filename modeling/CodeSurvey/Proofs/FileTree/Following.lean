import CodeSurvey.Proofs.Entries
import CodeSurvey.Proofs.FileTree.Spelling
import CodeSurvey.Proofs.Order

/-!
# Following paths

How far a path leads in a sound file tree: in one whose entries lie in directories and have names
that can stand in a path.

* `Leads`: the way from a directory to a place, step by step.
* `follow_eq_ok_iff`: following a path is finding such a way.
* `Leads.mono`: with more links allowed, a path leads to the same place.
* `Leads.through`: a path that goes on leads through a directory.
* `Leads.not_link`: a path leads to no link.
-/

namespace CodeSurvey

/-- A file tree as file systems keep it: every entry has a place of its own, a name that can stand
in a path and a directory around it, and relative paths start from a directory. -/
structure FileTree.Sound (tree : FileTree) : Prop where
  distinct : (tree.entries.map Prod.fst).Nodup
  named    : ∀ place name entry, (place ++ [name], entry) ∈ tree.entries → IsName name
  inside   : ∀ place name entry, (place ++ [name], entry) ∈ tree.entries →
    tree.entryAt place = some .directory
  here     : tree.entryAt tree.here = some .directory

namespace FileTree

variable {tree : FileTree}

/-! ### Entries -/

theorem entryAt_of_ne_nil {place : Place} (ne : place ≠ []) :
    tree.entryAt place = tree.entries.lookup place := by
  cases place with
  | nil => exact absurd rfl ne
  | cons => rfl

theorem mem_of_entryAt {place : Place} {name : String} {entry : FileEntry}
    (h : tree.entryAt (place ++ [name]) = some entry) :
    (place ++ [name], entry) ∈ tree.entries := by
  rw [entryAt_of_ne_nil (by simp)] at h
  exact mem_of_lookup h

/-- A tree with all its entries in the root. -/
def flat (entries : List (String × FileEntry)) (clock : Nat) : FileTree :=
  { entries := entries.map fun e => ([e.1], e.2), here := [], clock }

/-- Such a tree is sound if its entries have different names. -/
theorem sound_flat {entries : List (String × FileEntry)} (named : ∀ e ∈ entries, IsName e.1)
    (distinct : (entries.map Prod.fst).Nodup) (clock : Nat) : (flat entries clock).Sound := by
  have only : ∀ place name entry, (place ++ [name], entry) ∈ (flat entries clock).entries →
      place = [] ∧ (name, entry) ∈ entries := by
    intro place name entry there
    obtain ⟨e, listed, eq⟩ := List.mem_map.1 there
    obtain ⟨names, rfl⟩ := Prod.mk.inj eq
    have names : [] ++ [e.1] = place ++ [name] := names
    obtain rfl := (List.append_inj_left' names rfl).symm
    obtain rfl := (List.cons.inj (List.append_inj_right' names rfl)).1
    exact ⟨rfl, listed⟩
  have places : (flat entries clock).entries.map Prod.fst =
      (entries.map Prod.fst).map fun name => [name] := by
    rw [flat, List.map_map, List.map_map]
    rfl
  refine ⟨?_, fun place name entry there => ?_, fun place name entry there => ?_, rfl⟩
  · rw [places]
    exact distinct.map List.singleton_injective
  · exact named _ (only place name entry there).2
  · rw [(only place name entry there).1]
    rfl

/-- The names in its root, if they are listed in order. -/
theorem namesIn_flat {entries : List (String × FileEntry)} (clock : Nat)
    (sorted : (entries.map Prod.fst).Pairwise fun a b => compare a b = .lt) :
    (flat entries clock).namesIn [] = entries.map Prod.fst := by
  have names : ((flat entries clock).entries.filterMap fun e =>
      if e.1.dropLast = [] then e.1.getLast? else none) = entries.map Prod.fst := by
    rw [flat, List.filterMap_map, ← List.filterMap_eq_map]
    rfl
  rw [namesIn, names]
  exact sortedSet_of_pairwise sorted

/-- Around a directory is a directory. -/
theorem Sound.up (sound : tree.Sound) {place : Place}
    (h : tree.entryAt place = some .directory) : tree.entryAt place.dropLast = some .directory := by
  rcases List.eq_nil_or_concat place with rfl | ⟨above, name, rfl⟩
  · rfl
  · rw [List.concat_eq_append] at h ⊢
    rw [List.dropLast_concat]
    exact sound.inside above name _ (mem_of_entryAt h)

/-! ### Ways -/

/-- The way that components lead from a directory to a place, by at most so many links. -/
inductive Leads (tree : FileTree) (followLast : Bool) :
    Nat → Place → List Component → Place → Prop where
  | done {n : Nat} {place : Place} : Leads tree followLast n place [] place
  | root {n : Nat} {place q : Place} {rest : List Component}
      (later : Leads tree followLast n [] rest q) : Leads tree followLast n place (.root :: rest) q
  | here {n : Nat} {place q : Place} {rest : List Component}
      (later : Leads tree followLast n place rest q) :
      Leads tree followLast n place (.here :: rest) q
  | up {n : Nat} {place q : Place} {rest : List Component}
      (later : Leads tree followLast n place.dropLast rest q) :
      Leads tree followLast n place (.up :: rest) q
  | last {n : Nat} {place : Place} {name : String}
      (ends : tree.entryAt (place ++ [name]) ≠ some .directory)
      (stays : ∀ target, tree.entryAt (place ++ [name]) = some (.link target) → followLast = false) :
      Leads tree followLast n place [.name name] (place ++ [name])
  | enter {n : Nat} {place q : Place} {name : String} {rest : List Component}
      (there : tree.entryAt (place ++ [name]) = some .directory)
      (later : Leads tree followLast n (place ++ [name]) rest q) :
      Leads tree followLast n place (.name name :: rest) q
  | link {n : Nat} {place q : Place} {name target : String} {rest : List Component}
      (there : tree.entryAt (place ++ [name]) = some (.link target))
      (goesOn : rest ≠ [] ∨ followLast = true)
      (later : Leads tree followLast n place ((Path.ofText target).parts ++ rest) q) :
      Leads tree followLast (n + 1) place (.name name :: rest) q

/-- How a path goes on at a link when so many more are allowed. -/
def onLinkWith (tree : FileTree) (followLast : Bool) :
    Nat → Place → Path → List Component → Except OsError (Place × Option FileEntry)
  | 0, _, _, _                     => .error .tooManyLinks
  | n + 1, directory, target, rest => tree.follow followLast n directory (target.parts ++ rest)

theorem follow_eq_walk (tree : FileTree) (followLast : Bool) (n : Nat) (place : Place)
    (parts : List Component) :
    tree.follow followLast n place parts =
      tree.walk followLast (tree.onLinkWith followLast n) place parts := by
  cases n <;> rfl

section

variable {followLast : Bool} {n : Nat} {place q : Place} {parts : List Component}

theorem Leads.follow (h : tree.Leads followLast n place parts q) :
    tree.follow followLast n place parts = .ok (q, tree.entryAt q) := by
  induction h with
  | done => rw [follow_eq_walk, walk]
  | root _ ih | here _ ih | up _ ih => rw [follow_eq_walk, walk, ← follow_eq_walk, ih]
  | @last n place name ends stays =>
      rw [follow_eq_walk, walk]
      cases entry : tree.entryAt (place ++ [name]) with
      | none => rfl
      | some found =>
          cases found with
          | file => rfl
          | directory => exact absurd entry ends
          | link target =>
              rw [stays target entry]
              rfl
  | enter there _ ih =>
      rw [follow_eq_walk, walk, there]
      dsimp only
      rw [← follow_eq_walk, ih]
  | @link n place q name target rest there goesOn _ ih =>
      have follows : ¬(rest.isEmpty && !followLast) = true := by
        rcases goesOn with some | on
        · simp [some]
        · simp [on]
      rw [follow_eq_walk, walk, there]
      dsimp only
      rw [if_neg follows, onLinkWith, ih]

theorem ends_of_ite {rest : List Component} {r r' : Place × Option FileEntry} {e : OsError}
    (h : (if rest.isEmpty then .ok r else .error e : Except OsError (Place × Option FileEntry)) =
      .ok r') : rest = [] ∧ r = r' := by
  split at h
  · next last => exact ⟨List.isEmpty_iff.1 last, Except.ok.inj h⟩
  · cases h

theorem leads_of_follow {followLast : Bool} {r : Place × Option FileEntry} :
    ∀ (n : Nat) (parts : List Component) (place : Place),
      tree.follow followLast n place parts = .ok r →
        tree.Leads followLast n place parts r.1 ∧ r.2 = tree.entryAt r.1
  | n, [], place, h => by
      rw [follow_eq_walk, walk] at h
      cases h
      exact ⟨.done, rfl⟩
  | n, .root :: rest, place, h => by
      rw [follow_eq_walk, walk, ← follow_eq_walk] at h
      obtain ⟨later, there⟩ := leads_of_follow n rest [] h
      exact ⟨.root later, there⟩
  | n, .here :: rest, place, h => by
      rw [follow_eq_walk, walk, ← follow_eq_walk] at h
      obtain ⟨later, there⟩ := leads_of_follow n rest place h
      exact ⟨.here later, there⟩
  | n, .up :: rest, place, h => by
      rw [follow_eq_walk, walk, ← follow_eq_walk] at h
      obtain ⟨later, there⟩ := leads_of_follow n rest place.dropLast h
      exact ⟨.up later, there⟩
  | n, .name name :: rest, place, h => by
      rw [follow_eq_walk, walk] at h
      cases entry : tree.entryAt (place ++ [name]) with
      | none =>
          rw [entry] at h
          obtain ⟨rfl, rfl⟩ := ends_of_ite h
          exact ⟨.last (by simp [entry]) (by simp [entry]), entry.symm⟩
      | some found =>
          rw [entry] at h
          cases found with
          | file =>
              obtain ⟨rfl, rfl⟩ := ends_of_ite h
              exact ⟨.last (by simp [entry]) (by simp [entry]), entry.symm⟩
          | directory =>
              dsimp only at h
              rw [← follow_eq_walk] at h
              obtain ⟨later, there⟩ := leads_of_follow n rest _ h
              exact ⟨.enter entry later, there⟩
          | link target =>
              dsimp only at h
              split at h
              · rename_i stays
                obtain ⟨last, off⟩ := Bool.and_eq_true_iff.1 stays
                cases h
                rw [List.isEmpty_iff.1 last]
                exact ⟨.last (by simp [entry]) fun _ _ => by simpa using off, entry.symm⟩
              · rename_i goesOn
                cases n with
                | zero => cases h
                | succ n =>
                    obtain ⟨later, there⟩ := leads_of_follow n _ place h
                    refine ⟨.link entry ?_ later, there⟩
                    by_cases some : rest = []
                    · exact .inr (by simpa [some] using goesOn)
                    · exact .inl some
termination_by n parts => (n, parts.length)

/-- **Following components is finding a way.** -/
theorem follow_eq_ok_iff {entry : Option FileEntry} :
    tree.follow followLast n place parts = .ok (q, entry) ↔
      tree.Leads followLast n place parts q ∧ entry = tree.entryAt q := by
  constructor
  · exact leads_of_follow n parts place
  · rintro ⟨leads, rfl⟩
    exact leads.follow

namespace Leads

/-- **With more links allowed, a path leads to the same place.** -/
theorem mono {m : Nat} (h : tree.Leads followLast n place parts q) (le : n ≤ m) :
    tree.Leads followLast m place parts q := by
  induction h generalizing m with
  | done => exact .done
  | root _ ih => exact .root (ih le)
  | here _ ih => exact .here (ih le)
  | up _ ih => exact .up (ih le)
  | last ends stays => exact .last ends stays
  | enter there _ ih => exact .enter there (ih le)
  | link there goesOn _ ih =>
      cases m with
      | zero => cases le
      | succ m => exact .link there goesOn (ih (Nat.le_of_succ_le_succ le))

/-- **A path leads to no link.** -/
theorem not_link (sound : tree.Sound) (h : tree.Leads true n place parts q)
    (dir : tree.entryAt place = some .directory) (target : String) :
    tree.entryAt q ≠ some (.link target) := by
  induction h with
  | done => simp [dir]
  | root _ ih => exact ih rfl
  | here _ ih => exact ih dir
  | up _ ih => exact ih (sound.up dir)
  | last _ stays => exact fun there => absurd (stays target there) (by simp)
  | enter there _ ih => exact ih there
  | link _ _ _ ih => exact ih dir

/-- A path that leads to something is there itself. -/
theorem itself (h : tree.Leads true n place parts q) (found : (tree.entryAt q).isSome) :
    ∃ q', tree.Leads false n place parts q' ∧ (tree.entryAt q').isSome := by
  induction h with
  | done => exact ⟨_, .done, found⟩
  | root _ ih =>
      obtain ⟨q', later, found⟩ := ih found
      exact ⟨q', .root later, found⟩
  | here _ ih =>
      obtain ⟨q', later, found⟩ := ih found
      exact ⟨q', .here later, found⟩
  | up _ ih =>
      obtain ⟨q', later, found⟩ := ih found
      exact ⟨q', .up later, found⟩
  | last ends _ => exact ⟨_, .last ends fun _ _ => rfl, found⟩
  | enter there _ ih =>
      obtain ⟨q', later, found⟩ := ih found
      exact ⟨q', .enter there later, found⟩
  | @link _ _ _ _ _ rest there _ _ ih =>
      by_cases goesOn : rest = []
      · -- the link at the end is what is there
        subst goesOn
        exact ⟨_, .last (by simp [there]) fun _ _ => rfl, by rw [there]; rfl⟩
      · obtain ⟨q', later, found⟩ := ih found
        exact ⟨q', .link there (.inl goesOn) later, found⟩

/-- **A path that goes on leads through a directory.** -/
theorem through (sound : tree.Sound) {later : List Component} (goesOn : later ≠ []) :
    ∀ {n : Nat} {place : Place} (parts : List Component),
      tree.entryAt place = some .directory → tree.Leads true n place (parts ++ later) q →
        ∃ m ≤ n, ∃ between, tree.Leads true n place parts between ∧
          tree.entryAt between = some .directory ∧ tree.Leads true m between later q
  | n, place, [], dir, h => ⟨n, Nat.le_refl n, place, .done, dir, h⟩
  | n, place, .root :: rest, dir, .root h => by
      obtain ⟨m, le, between, way, last⟩ := through sound goesOn rest rfl h
      exact ⟨m, le, between, .root way, last⟩
  | n, place, .here :: rest, dir, .here h => by
      obtain ⟨m, le, between, way, last⟩ := through sound goesOn rest dir h
      exact ⟨m, le, between, .here way, last⟩
  | n, place, .up :: rest, dir, .up h => by
      obtain ⟨m, le, between, way, last⟩ := through sound goesOn rest (sound.up dir) h
      exact ⟨m, le, between, .up way, last⟩
  | n, place, .name name :: rest, dir, h => by
      rw [List.cons_append] at h
      -- for `cases` the index must be a variable
      generalize more : rest ++ later = whole at h
      cases h with
      | last => exact absurd (List.append_eq_nil_iff.1 more).2 goesOn
      | enter there h =>
          subst more
          obtain ⟨m, le, between, way, last⟩ := through sound goesOn rest there h
          exact ⟨m, le, between, .enter there way, last⟩
      | @link n _ _ _ target _ there _ h =>
          subst more
          rw [← List.append_assoc] at h
          obtain ⟨m, le, between, way, last⟩ := through sound goesOn _ dir h
          exact ⟨m, Nat.le_succ_of_le le, between, .link there (.inr rfl) way, last⟩
termination_by n _ parts => (n, parts.length)

end Leads

/-! ### Without links -/

/-- A file tree without links. -/
def Linkless (tree : FileTree) : Prop :=
  ∀ place target, (place, FileEntry.link target) ∉ tree.entries

/-- **Without links, names lead to the place that they name.** -/
theorem Linkless.leads_names (linkless : tree.Linkless) : ∀ {names : List String} {place q : Place},
    tree.Leads followLast n place (names.map .name) q → q = place ++ names
  | [], _, _, .done => (List.append_nil _).symm
  | name :: names, place, q, h => by
      rw [List.map_cons] at h
      generalize rest : names.map Component.name = parts at h
      cases h with
      | last => rw [List.map_eq_nil_iff.1 rest]
      | enter there h =>
          subst rest
          rw [linkless.leads_names h, List.append_assoc]
          rfl
      | link there => exact absurd (mem_of_entryAt there) (linkless _ _)

end

theorem statText_of_directory {text : String} {q : Place}
    (leads : tree.locate (.ofText text) = .ok (q, some .directory)) :
    tree.statText text = .ok (q, .directory) := by
  rw [statText, stat, leads]

end FileTree

end CodeSurvey
