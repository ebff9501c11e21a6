import CodeSurvey.Proofs.FileTree.Variation

/-!
# Writing files

Where a path lets a file be written, and what is there afterwards.

* `placeFor`: the place that a path lets a file be written to. Writing puts the file there, and the
  place is the same in trees that differ in nothing but such files.
* `makeDirectories_of_leads`: where directories are, none are made.
* `textAt_put`: what is written is read back.
-/

namespace CodeSurvey

namespace FileTree

variable {s t : FileTree} {places : List Place}

/-! ### Places to write to -/

/-- The place that a path lets a file be written to. -/
def placeFor (tree : FileTree) (path : Path) : Option Place :=
  match tree.locate path with
  | .error _                 => none
  | .ok (_, some .directory) => none
  | .ok (q, _)               =>
    match tree.entryAt q.dropLast with
    | some .directory => some q
    | _               => none

theorem placeFor_eq_some_iff {path : Path} {q : Place} :
    t.placeFor path = some q ↔ ∃ entry, t.locate path = .ok (q, entry) ∧
      entry ≠ some .directory ∧ t.entryAt q.dropLast = some .directory := by
  rw [placeFor]
  cases t.locate path with
  | error => simp
  | ok r =>
      obtain ⟨p, entry⟩ := r
      have inside : (match t.entryAt p.dropLast with
          | some .directory => some p
          | _ => none) = some q ↔ p = q ∧ t.entryAt q.dropLast = some .directory := by
        rcases there : t.entryAt p.dropLast with _ | _ | _ | _
        all_goals grind
      rcases entry with _ | _ | _ | _
      all_goals simp [inside]

theorem toOption_write (path : Path) (content : ByteArray) :
    (t.write path content).toOption =
      (t.placeFor path).map fun q => t.put q (.file content t.clock) := by
  rw [write, placeFor]
  cases t.locate path with
  | error => rfl
  | ok r =>
      obtain ⟨q, entry⟩ := r
      rcases entry with _ | _ | _ | _
      case some.directory => rfl
      all_goals
        dsimp only
        rcases t.entryAt q.dropLast with _ | _ | _ | _ <;> rfl

theorem writeText_eq {path : String} (file : demandsDirectory path = false) (text : String) :
    t.writeText path text =
      (t.placeFor (.ofText path)).map fun q => t.put q (.file text.toUTF8 t.clock) := by
  rw [writeText, file, if_neg (by simp), toOption_write]

/-- A place that a file can be written to has a file or nothing. -/
theorem isWritable_of_placeFor (sound : t.Sound) {path : Path} {q : Place}
    (h : t.placeFor path = some q) : IsWritable (t.entryAt q) := by
  obtain ⟨entry, leads, notDirectory, -⟩ := placeFor_eq_some_iff.1 h
  obtain ⟨way, rfl⟩ := follow_eq_ok_iff.1 leads
  rcases there : t.entryAt q with _ | content | _ | target
  · exact .inl rfl
  · exact .inr ⟨content, _, rfl⟩
  · exact absurd there notDirectory
  · exact absurd there (way.not_link sound sound.here target)

/-- **A path lets a file be written to the same place in both trees.** -/
theorem Varies.placeFor (h : Varies places s t) (path : Path) :
    t.placeFor path = s.placeFor path := by
  have agree := h.locate path true
  refine Option.ext fun q => ?_
  rw [placeFor_eq_some_iff, placeFor_eq_some_iff, h.directory_iff]
  generalize s.locate path = r at agree ⊢
  generalize t.locate path = r' at agree ⊢
  cases agree with
  | refused => simp
  | there p =>
      constructor
      · rintro ⟨entry, eq, other, inside⟩
        obtain ⟨rfl, rfl⟩ := Prod.mk.inj (Except.ok.inj eq)
        exact ⟨_, rfl, fun there => other (h.directory_iff.2 there), inside⟩
      · rintro ⟨entry, eq, other, inside⟩
        obtain ⟨rfl, rfl⟩ := Prod.mk.inj (Except.ok.inj eq)
        exact ⟨_, rfl, fun there => other (h.directory_iff.1 there), inside⟩

/-! ### Directories -/

theorem makeDirectory_of_leads {path : Path} {q : Place}
    (leads : t.locate path = .ok (q, some .directory)) : t.makeDirectory path = .ok t := by
  obtain ⟨way, there⟩ := follow_eq_ok_iff.1 leads
  obtain ⟨q', itself, some⟩ := way.itself (by rw [← there]; rfl)
  obtain ⟨found, there⟩ := Option.isSome_iff_exists.1 some
  have there : t.locate path false = .ok (q', .some found) := itself.follow.trans (by rw [there])
  have directory : t.isDirectory path = true := by rw [isDirectory, stat, leads]
  rw [makeDirectory, there]
  dsimp only
  rw [if_pos directory]

/-- **Where directories are, none are made.** -/
theorem makeDirectories_of_leads {path : Path}
    (leads : ∀ n, ∃ q, t.locate ⟨path.parts.take (n + 1)⟩ = .ok (q, some .directory)) :
    t.makeDirectories path = .ok t := by
  rw [makeDirectories]
  induction List.range path.parts.length with
  | nil => rfl
  | cons n rest ih =>
      obtain ⟨q, leads⟩ := leads n
      rw [List.foldlM_cons, makeDirectory_of_leads leads]
      exact ih

/-- The directories on the way to a place. -/
theorem leads_of_append (sound : t.Sound) {parts : List Component} {last : Component}
    {r : Place × Option FileEntry} (h : t.locate ⟨parts ++ [last]⟩ = .ok r) (n : Nat) :
    ∃ q, t.locate ⟨parts.take n⟩ = .ok (q, some .directory) := by
  have split : parts ++ [last] = parts.take n ++ (parts.drop n ++ [last]) := by
    rw [← List.append_assoc, List.take_append_drop]
  rw [locate, split] at h
  obtain ⟨way, -⟩ := follow_eq_ok_iff.1 h
  obtain ⟨_, -, between, front, dir, -⟩ := way.through sound (by simp) (parts.take n) sound.here
  exact ⟨between, follow_eq_ok_iff.2 ⟨front, dir.symm⟩⟩

/-! ### Texts -/

/-- The text at a place, empty where there is no file, if it is one. -/
def textAt (tree : FileTree) (q : Place) : Option String :=
  match tree.entryAt q with
  | some (.file content _) => (Text.decode content).toOption
  | _                      => some ""

theorem decode_toUTF8 (text : String) : Text.decode text.toUTF8 = .ok text := by
  have read : String.fromUTF8? text.toUTF8 = some text := by
    simp [String.fromUTF8?, String.fromUTF8, text.isValidUTF8]
  rw [Text.decode, read]

/-- **What is written is read back.** -/
theorem textAt_put {q : Place} (ne : q ≠ []) (text : String) (modified : Nat) (place : Place) :
    (t.put q (.file text.toUTF8 modified)).textAt place =
      if place = q then some text else t.textAt place := by
  rw [textAt, entryAt_put ne]
  by_cases same : place = q
  · rw [if_pos same, if_pos same]
    dsimp only
    rw [decode_toUTF8]
    rfl
  · rw [if_neg same, if_neg same]
    rfl

end FileTree

end CodeSurvey
