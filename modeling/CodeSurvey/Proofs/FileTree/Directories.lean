import CodeSurvey.Proofs.FileTree.Writing

/-!
# Making directories

A sound file tree stays one when directories are made, and a text that is written to a file is read
back from it.

* `Path.isName_of_mem`: the names in a spelled path can stand in one.
* `Leads.absent`: where a path leads to nothing, there is a directory around.
* `makeDirectories_sound`: making directories keeps a tree sound.
* `readText_writeText`: what is written is read back.
-/

namespace CodeSurvey

/-! ### Names -/

theorem notMem_splitOn {c : Char} {text piece : List Char} (h : piece ∈ text.splitOn c) :
    c ∉ piece := by
  induction text generalizing piece with
  | nil =>
      rw [List.splitOn_nil, List.mem_singleton] at h
      simp [h]
  | cons x text ih =>
      rw [List.splitOn_cons_eq_if_modifyHead] at h
      split at h
      · rcases List.mem_cons.1 h with rfl | later
        · simp
        · exact ih later
      · rename_i other
        obtain ⟨first, rest, cut⟩ := List.exists_cons_of_ne_nil (List.splitOn_ne_nil c text)
        rw [cut] at h ih
        rcases List.mem_cons.1 h with rfl | later
        · have ne : c ≠ x := fun eq => other (by rw [eq]; exact beq_self_eq_true x)
          exact List.not_mem_cons_of_ne_of_not_mem ne (ih List.mem_cons_self)
        · exact ih (.tail _ later)

theorem Path.name_of_pieceComponent {first absolute : Bool} {piece name : String}
    (h : pieceComponent first absolute piece = some (.name name)) :
    piece = name ∧ name ≠ "" ∧ name ≠ "." ∧ name ≠ ".." := by
  unfold pieceComponent at h
  split_ifs at h with empty _ here _ up
  all_goals cases h
  exact ⟨rfl, empty, here, up⟩

/-- **The names in a spelled path can stand in one.** -/
theorem Path.isName_of_mem {text name : String} (h : .name name ∈ (ofText text).parts) :
    IsName name := by
  obtain ⟨first, rest, cut⟩ := List.exists_cons_of_ne_nil (List.splitOn_ne_nil '/' text.toList)
  have piece : ∀ {isFirst absolute : Bool} {piece : List Char}, piece ∈ text.toList.splitOn '/' →
      pieceComponent isFirst absolute (.ofList piece) = some (.name name) → IsName name := by
    intro isFirst absolute piece there component
    obtain ⟨rfl, nonempty, notHere, notUp⟩ := name_of_pieceComponent component
    exact ⟨nonempty, notHere, notUp, by rw [String.toList_ofList]; exact notMem_splitOn there⟩
  rw [parts_ofText cut] at h
  rw [cut] at piece
  rcases List.mem_append.1 h with front | later
  · exact piece List.mem_cons_self (Option.mem_toList.1 front)
  · obtain ⟨spelled, there, component⟩ := List.mem_filterMap.1 later
    obtain ⟨part, listed, rfl⟩ := List.mem_map.1 there
    exact piece (.tail _ listed) component

namespace FileTree

variable {tree : FileTree}

/-! ### Missing entries -/

/-- **Where a path leads to nothing, there is a directory around**, and a name that can stand in a
path is missing in it. -/
theorem Leads.absent (sound : tree.Sound) {followLast : Bool} {n : Nat} {place q : Place}
    {parts : List Component} (h : tree.Leads followLast n place parts q)
    (dir : tree.entryAt place = some .directory)
    (named : ∀ name, .name name ∈ parts → IsName name) (missing : tree.entryAt q = none) :
    ∃ above name, q = above ++ [name] ∧ IsName name ∧ tree.entryAt above = some .directory := by
  induction h with
  | done => rw [dir] at missing; cases missing
  | root _ ih => exact ih rfl (fun name there => named name (.tail _ there)) missing
  | here _ ih => exact ih dir (fun name there => named name (.tail _ there)) missing
  | up _ ih => exact ih (sound.up dir) (fun name there => named name (.tail _ there)) missing
  | last => exact ⟨_, _, rfl, named _ List.mem_cons_self, dir⟩
  | enter there _ ih => exact ih there (fun name there => named name (.tail _ there)) missing
  | link _ _ _ ih =>
      refine ih dir (fun name there => ?_) missing
      rcases List.mem_append.1 there with target | rest
      · exact Path.isName_of_mem target
      · exact named name (.tail _ rest)

/-! ### Directories -/

/-- A new directory in a directory keeps a tree sound. -/
theorem Sound.put_directory (sound : tree.Sound) {above : Place} {name : String}
    (isName : IsName name) (inside : tree.entryAt above = some .directory) :
    (tree.put (above ++ [name]) .directory).Sound := by
  have kept : ∀ {q}, tree.entryAt q = some .directory →
      (tree.put (above ++ [name]) .directory).entryAt q = some .directory := by
    intro q there
    rw [entryAt_put (by simp)]
    split
    · rfl
    · exact there
  have listed : ∀ {q n entry}, (q ++ [n], entry) ∈ (tree.put (above ++ [name]) .directory).entries →
      (q ++ [n], entry) ∈ tree.entries ∨ q = above ∧ n = name := by
    intro q n entry there
    rcases List.mem_append.1 there with old | new
    · exact .inl (List.mem_filter.1 old).1
    · obtain ⟨same, -⟩ := Prod.mk.inj (List.mem_singleton.1 new)
      exact .inr (by simpa using same)
  refine ⟨nodup_put sound.distinct _ _, fun q n entry there => ?_, fun q n entry there => ?_,
    kept sound.here⟩
  · rcases listed there with old | ⟨-, rfl⟩
    · exact sound.named q n entry old
    · exact isName
  · rcases listed there with old | ⟨rfl, -⟩
    · exact kept (sound.inside q n entry old)
    · exact kept inside

theorem makeDirectory_sound (sound : tree.Sound) {path : Path}
    (named : ∀ name, .name name ∈ path.parts → IsName name) {made : FileTree}
    (h : tree.makeDirectory path = .ok made) : made.Sound := by
  rw [makeDirectory] at h
  cases found : tree.locate path false with
  | error => rw [found] at h; cases h
  | ok r =>
      obtain ⟨q, entry⟩ := r
      rw [found] at h
      cases entry with
      | none =>
          cases h
          obtain ⟨way, missing⟩ := follow_eq_ok_iff.1 found
          obtain ⟨above, name, rfl, isName, inside⟩ :=
            way.absent sound sound.here named missing.symm
          exact sound.put_directory isName inside
      | some =>
          dsimp only at h
          split at h
          · cases h
            exact sound
          · cases h

/-- **Making directories keeps a tree sound.** -/
theorem makeDirectories_sound (sound : tree.Sound) {path : Path}
    (named : ∀ name, .name name ∈ path.parts → IsName name) {made : FileTree}
    (h : tree.makeDirectories path = .ok made) : made.Sound := by
  rw [makeDirectories] at h
  generalize List.range path.parts.length = steps at h
  induction steps generalizing tree with
  | nil =>
      cases h
      exact sound
  | cons n rest ih =>
      rw [List.foldlM_cons] at h
      cases first : tree.makeDirectory ⟨path.parts.take (n + 1)⟩ with
      | error => rw [first] at h; cases h
      | ok next =>
          rw [first] at h
          exact ih (makeDirectory_sound sound (fun name there =>
            named name (List.mem_of_mem_take there)) first) h

/-- **Above what is there, no directories are made.** -/
theorem makeDirectories_of_locate (sound : tree.Sound) {path : Path} {r : Place × Option FileEntry}
    (found : tree.locate path = .ok r) :
    tree.makeDirectories (path.parent.getD ⟨[]⟩) = .ok tree := by
  have none : tree.makeDirectories ⟨[]⟩ = .ok tree := rfl
  rcases List.eq_nil_or_concat path.parts with empty | ⟨front, last, split⟩
  · rw [Path.parent, empty]
    exact none
  · rw [List.concat_eq_append] at split
    have found : tree.locate ⟨front ++ [last]⟩ = .ok r := by
      rw [← split]
      exact found
    rw [Path.parent, split, List.getLast?_concat]
    cases last with
    | root => exact none
    | here | up | name =>
        dsimp only [Option.getD_some]
        rw [List.dropLast_concat]
        exact makeDirectories_of_leads fun n => leads_of_append sound found (n + 1)

/-! ### Texts -/

/-- **What is written is read back.** -/
theorem readText_writeText (sound : tree.Sound) {path text : String} {after : FileTree}
    (h : tree.writeText path text = some after) : after.readText path = some text := by
  have file : demandsDirectory path = false := by
    by_contra directory
    rw [writeText, if_pos (Bool.of_not_eq_false directory)] at h
    cases h
  rw [writeText_eq file, Option.map_eq_some_iff] at h
  obtain ⟨q, place, rfl⟩ := h
  have writable := isWritable_of_placeFor sound place
  have varies : Varies [q] tree (tree.put q (.file text.toUTF8 tree.clock)) :=
    (Varies.refl sound.distinct (by simpa using writable)).put List.mem_cons_self _ _
  obtain ⟨entry, leads, -, -⟩ := placeFor_eq_some_iff.1 place
  obtain ⟨-, there⟩ := (varies.locate (.ofText path) true).of_ok leads
  rw [entryAt_put writable.ne_nil, if_pos rfl] at there
  rw [readText, statText, stat, there]
  dsimp only
  rw [file, if_neg (by simp)]
  dsimp only
  rw [decode_toUTF8]
  rfl

end FileTree

end CodeSurvey
