import CodeSurvey.Config.File
import CodeSurvey.Proofs.Config.Text
import CodeSurvey.Proofs.FileTree.Directories

/-!
# Saving configurations

A configuration that is saved in a file is read back from it.

* `FileTree.Takes`: a file can be written by a spelled path, whatever is to be in it.
* `exists_save_iff`: a configuration whose integers fit is saved wherever a file can be written.
* `fromFile_save`: what is read back is the configuration, or what is wrong with it.
* `saveTo_of_large`: a configuration with an integer too large leaves a file that is there alone.
* `Config.save_roundTrip` is the three together.
-/

namespace CodeSurvey

variable {tree after : FileTree} {path : String}

/-! ### Places to save in -/

/-- A file can be written by a spelled path once the directories above it are made. -/
def FileTree.Takes (tree : FileTree) (path : String) : Prop :=
  ∃ made, tree.makeDirectories (directoryAbove path) = .ok made ∧
    demandsDirectory path = false ∧ (made.placeFor (.ofText path)).isSome

/-- Whether a file can be written does not depend on the text. -/
theorem FileTree.isSome_writeText {text : String} :
    (tree.writeText path text).isSome ↔
      demandsDirectory path = false ∧ (tree.placeFor (.ofText path)).isSome := by
  cases file : demandsDirectory path with
  | true => simp [writeText, file]
  | false => simp [writeText_eq file]

theorem isName_directoryAbove {name : String} (there : .name name ∈ (directoryAbove path).parts) :
    IsName name := by
  rw [directoryAbove, Path.parent] at there
  split at there
  · cases there
  · cases there
  · exact Path.isName_of_mem (List.dropLast_subset _ there)

namespace Config

variable {config : Config}

/-! ### Saving -/

theorem save_eq_ok_iff :
    config.save tree path = .ok after ↔
      ∃ made text, tree.makeDirectories (directoryAbove path) = .ok made ∧
        config.write = some text ∧ made.writeText path text = some after := by
  rw [save, saveTo]
  cases tree.makeDirectories (directoryAbove path) with
  | error => simp
  | ok made =>
      cases config.write with
      | none => simp
      | some text => cases written : made.writeText path text <;> simp [written]

/-- **A configuration whose integers fit is saved wherever a file can be written.** -/
theorem exists_save_iff (small : ∀ n ∈ config.integers, n ≤ Toml.greatestInteger) :
    (∃ after, config.save tree path = .ok after) ↔ tree.Takes path := by
  have text : config.write = some (Toml.writeSections config.sections) := by
    rw [write_eq, if_pos small]
  constructor
  · rintro ⟨after, saved⟩
    obtain ⟨made, text, directories, -, written⟩ := save_eq_ok_iff.1 saved
    exact ⟨made, directories, FileTree.isSome_writeText.1 (by rw [written]; rfl)⟩
  · rintro ⟨made, directories, place⟩
    obtain ⟨after, written⟩ := Option.isSome_iff_exists.1 (FileTree.isSome_writeText.2 place)
    exact ⟨after, save_eq_ok_iff.2 ⟨made, _, directories, text, written⟩⟩

/-- **What is read back is the configuration**, or what is wrong with it. -/
theorem fromFile_save (typed : config.Typed) (sound : tree.Sound)
    (saved : config.save tree path = .ok after) :
    fromFile after path =
      match config.invalid with
      | some failure => .error (.invalid failure)
      | none         => .ok config := by
  obtain ⟨made, text, directories, spelled, written⟩ := save_eq_ok_iff.1 saved
  have sound := FileTree.makeDirectories_sound sound (fun _ => isName_directoryAbove) directories
  rw [write_eq] at spelled
  split at spelled
  · rename_i small
    cases spelled
    rw [fromFile, FileTree.readText_writeText sound written]
    exact ofText_sections typed small
  · cases spelled

/-- **A configuration with an integer too large is not saved**, and a file that is there stays as it
is. -/
theorem saveTo_of_large (sound : tree.Sound)
    (large : ∃ n ∈ config.integers, Toml.greatestInteger < n) :
    (∃ e, config.save tree path = .error e) ∧
      (tree.isFile (.ofText path) → (config.saveTo tree path).tree = tree) := by
  have noText : config.write = none := by
    rw [write_eq, if_neg]
    intro small
    obtain ⟨n, there, above⟩ := large
    exact absurd (small n there) (not_le.2 above)
  constructor
  · cases saved : config.save tree path with
    | error e => exact ⟨e, rfl⟩
    | ok after =>
        obtain ⟨-, text, -, spelled, -⟩ := save_eq_ok_iff.1 saved
        rw [noText] at spelled
        cases spelled
  · intro file
    cases found : tree.locate (.ofText path) with
    | error => simp [FileTree.isFile, FileTree.stat, found] at file
    | ok r =>
        have none := FileTree.makeDirectories_of_locate sound found
        rw [saveTo, directoryAbove, none, noText]

/-! ### Main result -/

/-- **Configurations survive saving and reading.** One without faults whose integers fit in 64 bits
with a sign is saved wherever a file can be written, and read back as it was. One with a larger
integer is not saved, and a file that is there stays as it is. One with a fault is not read back. -/
theorem save_roundTrip (typed : config.Typed) (sound : tree.Sound) (path : String) :
    (config.invalid = none → (∀ n ∈ config.integers, n ≤ 9223372036854775807) →
      ((∃ after, config.save tree path = .ok after) ↔ tree.Takes path) ∧
      ∀ after, config.save tree path = .ok after → fromFile after path = .ok config) ∧
    ((∃ n ∈ config.integers, 9223372036854775807 < n) →
      (∃ e, config.save tree path = .error e) ∧
      (tree.isFile (.ofText path) → (config.saveTo tree path).tree = tree)) ∧
    ∀ failure, config.invalid = some failure → ∀ after, config.save tree path = .ok after →
      fromFile after path = .error (.invalid failure) := by
  refine ⟨fun valid small => ⟨exists_save_iff small, fun after saved => ?_⟩,
    saveTo_of_large sound, fun failure faulty after saved => ?_⟩
  · rw [fromFile_save typed sound saved, valid]
  · rw [fromFile_save typed sound saved, faulty]

/-- A configuration with texts that are hard to spell and a weight below zero. -/
def strangeConfig : Config :=
  { targetDirectory := "a \"b\" \\ 'c' é"
    excludePatterns := ["", "line\nline\r\n\t", "\u0000\u007f\u0008", "'''\"\"\""]
    analysis        := { threads := some 2, weights := { unused := -7 } } }

/-- A configuration with an integer too large. -/
def largeConfig : Config :=
  { maxFileSize := 9223372036854775808 }

/-- A configuration without a budget. -/
def faultyConfig : Config :=
  { output := { budget := 0 } }

/-- A tree with one file. -/
def settingsTree : FileTree :=
  .flat [("settings.toml", .file "old".toUTF8 0)] 1

theorem sound_settingsTree : settingsTree.Sound :=
  FileTree.sound_flat (by decide) (by decide) 1

theorem save_roundTrip_settings :
    (∃ after, strangeConfig.save settingsTree "new/settings.toml" = .ok after ∧
      fromFile after "new/settings.toml" = .ok strangeConfig) ∧
    ((∃ e, largeConfig.save settingsTree "settings.toml" = .error e) ∧
      (largeConfig.saveTo settingsTree "settings.toml").tree = settingsTree) ∧
    (∃ after, faultyConfig.save settingsTree "settings.toml" = .ok after ∧
      fromFile after "settings.toml" =
        .error (.invalid (.config "output budget must be positive"))) := by
  have sound := sound_settingsTree
  have strange : strangeConfig.Typed := ⟨by decide, by decide, by decide⟩
  have large : largeConfig.Typed := ⟨by decide, by decide, by decide⟩
  have faulty : faultyConfig.Typed := ⟨by decide, by decide, by decide⟩
  have takes : settingsTree.Takes "settings.toml" := ⟨settingsTree, rfl, rfl, rfl⟩
  refine ⟨?_, ?_, ?_⟩
  · have round := (save_roundTrip strange sound "new/settings.toml").1 rfl (by decide)
    obtain ⟨after, saved⟩ := round.1.2 ⟨_, rfl, rfl, rfl⟩
    exact ⟨after, saved, round.2 after saved⟩
  · have refused := (save_roundTrip large sound "settings.toml").2.1 (by decide)
    exact ⟨refused.1, refused.2 rfl⟩
  · have small : ∀ n ∈ faultyConfig.integers, n ≤ Toml.greatestInteger := by decide
    obtain ⟨after, saved⟩ := (exists_save_iff small).2 takes
    exact ⟨after, saved, (save_roundTrip faulty sound "settings.toml").2.2 _ rfl after saved⟩

end Config

end CodeSurvey
