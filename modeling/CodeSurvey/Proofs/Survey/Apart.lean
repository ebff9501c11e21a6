import CodeSurvey.Proofs.FileTree.Variation
import CodeSurvey.Proofs.Survey.Models

/-!
# Files that a survey does not read

A survey looks into the ignore file, into the markers of virtual environments and into files with
the extensions it is configured for. When no such name leads to some places, what is written there
does not show in the model of the project, but for the wording of diagnostics.

* `Apart`: no name that a survey looks into leads to one of some places.
* `sources_walkFrom`: the walk then finds the same files.
* `scanOnce_apart`: the survey then gives the same model, but for its diagnostics.
-/

namespace CodeSurvey

open FileTree (Agree Varies IsWritable)

/-- Whether a survey looks into files of a name. -/
def Config.Reads (config : Config) (name : String) : Prop :=
  name = ".gitignore" ∨ name = "pyvenv.cfg" ∨
    ∃ extension, (Path.splitName name).2 = some extension ∧
      Text.lower extension ∈ config.fileExtensions

/-- No name that a survey looks into leads to one of some places. -/
def Apart (tree : FileTree) (config : Config) (places : List Place) : Prop :=
  ∀ directory name q entry, config.Reads name →
    tree.follow true 40 directory [.name name] = .ok (q, entry) → q ∉ places

variable {s t : FileTree} {places : List Place} {config : Config}

/-! ### Reading -/

/-- A path that ends in a name that is read does not lead to one of the places. -/
theorem Apart.locate (apart : Apart s config places) (sound : s.Sound) {path : Path}
    {front : List Component} {name : String} (ends : path.parts = front ++ [.name name])
    (reads : config.Reads name) {q : Place} {entry : Option FileEntry}
    (h : s.locate path = .ok (q, entry)) : q ∉ places := by
  rw [FileTree.locate, ends] at h
  obtain ⟨way, there⟩ := FileTree.follow_eq_ok_iff.1 h
  obtain ⟨m, le, between, -, -, last⟩ := way.through sound (by simp) front sound.here
  exact apart between name q entry reads (FileTree.follow_eq_ok_iff.2 ⟨last.mono le, there⟩)

/-- A path that ends in a name that is read leads to the same in both trees. -/
theorem Apart.agree (apart : Apart s config places) (sound : s.Sound) (h : Varies places s t)
    {path : Path} {front : List Component} {name : String}
    (ends : path.parts = front ++ [.name name]) (reads : config.Reads name) :
    (∃ e e', s.locate path = .error e ∧ t.locate path = .error e') ∨
      t.locate path = s.locate path := by
  have agree := h.locate path true
  generalize eq : s.locate path = r at agree ⊢
  generalize t.locate path = r' at agree ⊢
  cases agree with
  | refused e e' => exact .inl ⟨e, e', rfl, rfl⟩
  | there q => exact .inr (by rw [h.outside q (apart.locate sound ends reads eq)])

/-- **Whether a name is a file that is read does not depend on the documents.** -/
theorem Apart.isFile (apart : Apart s config places) (sound : s.Sound) (h : Varies places s t)
    {path : Path} {front : List Component} {name : String}
    (ends : path.parts = front ++ [.name name]) (reads : config.Reads name) :
    t.isFile path = s.isFile path := by
  simp only [FileTree.isFile, FileTree.stat]
  rcases apart.agree sound h ends reads with ⟨e, e', eq, eq'⟩ | eq
  · rw [eq, eq']
  · rw [eq]

/-- What is read from it is the same, or fails on both sides. -/
theorem Apart.read (apart : Apart s config places) (sound : s.Sound) (h : Varies places s t)
    {path : Path} {front : List Component} {name : String}
    (ends : path.parts = front ++ [.name name]) (reads : config.Reads name) :
    (∃ e e', s.read path = .error e ∧ t.read path = .error e') ∨ t.read path = s.read path := by
  simp only [FileTree.read, FileTree.stat]
  rcases apart.agree sound h ends reads with ⟨e, e', eq, eq'⟩ | eq
  · rw [eq, eq']
    exact .inl ⟨e, e', rfl, rfl⟩
  · rw [eq]
    exact .inr rfl

/-- A name at one of the places is not read. -/
theorem Apart.not_reads (apart : Apart s config places) {place : Place} {name : String}
    (writable : IsWritable (s.entryAt (place ++ [name]))) (there : place ++ [name] ∈ places) :
    ¬config.Reads name := by
  intro reads
  have way : s.Leads true 40 place [.name name] (place ++ [name]) := by
    refine .last writable.ne_directory fun target eq => ?_
    rcases writable with none | ⟨content, modified, file⟩
    · cases none.symm.trans eq
    · cases file.symm.trans eq
  exact apart place name _ _ reads way.follow there

/-- So the ignore rules are the same. -/
theorem ignoreRules_apart (apart : Apart s config places) (sound : s.Sound)
    (h : Varies places s t) : ignoreRules t config = ignoreRules s config := by
  have ends := Path.parts_below_name config.targetDirectory (show IsName ".gitignore" by decide)
  simp only [ignoreRules]
  rcases apart.read sound h ends (.inl rfl) with ⟨e, e', eq, eq'⟩ | eq
  · rw [eq, eq']
  · rw [eq]

/-! ### Walking -/

namespace Discovery

variable {discovery : Discovery}

theorem extension_snoc (names : List String) (name : String) :
    (Path.ofNames (names ++ [name])).extension = (Path.splitName name).2 := by
  simp [Path.extension, Path.fileName, Path.ofNames, Component.name?]

/-- A name that is not read is that of no source file. -/
theorem fileEntry_of_not_reads (names : List String) {name : String} (size : Nat)
    (unread : ¬discovery.config.Reads name) :
    discovery.fileEntry (names ++ [name]) size = none := by
  simp only [fileEntry, extension_snoc]
  split
  · rfl
  · cases extension : (Path.splitName name).2 with
    | none => rfl
    | some ext =>
        have other : Text.lower ext ∉ discovery.config.fileExtensions := fun listed =>
          unread (.inr (.inr ⟨ext, extension, listed⟩))
        simp [other]

/-- A file that is not read is no source. -/
theorem sources_of_not_reads (names : List String) {name : String} (size : Nat)
    (unread : ¬discovery.config.Reads name) :
    sources (discovery.fileEntry (names ++ [name]) size).toList = [] := by
  rw [fileEntry_of_not_reads names size unread]
  rfl

section

variable {inside : List (Place × List String)} {place : Place} {names : List String} {name : String}

/-- A file or nothing at one of the places is no source file. -/
theorem sources_meet_of_mem {tree : FileTree} {enter : Place → List Discovered}
    (writable : IsWritable (tree.entryAt (place ++ [name])))
    (unread : ¬discovery.config.Reads name) :
    sources (discovery.meet tree inside place names name enter) = [] := by
  rcases writable with eq | ⟨content, modified, eq⟩
  · rw [meet, eq]
    rfl
  · rw [meet, eq]
    exact sources_of_not_reads names content.size unread

/-- Elsewhere the walk meets the same source files. -/
theorem sources_meet (apart : Apart s discovery.config places) (h : Varies places s t)
    (outside : place ++ [name] ∉ places) {enter enter' : Place → List Discovered}
    (same : ∀ target, sources (enter' target) = sources (enter target)) :
    sources (discovery.meet t inside place names name enter') =
      sources (discovery.meet s inside place names name enter) := by
  rw [meet, meet, h.outside _ outside]
  cases s.entryAt (place ++ [name]) with
  | none => rfl
  | some found =>
      cases found with
      | file => rfl
      | directory => exact same _
      | link =>
          dsimp only
          split
          · rfl
          · have agree := h.follow true 40 place [.name name]
            generalize eq : s.follow true 40 place [.name name] = r at agree ⊢
            generalize t.follow true 40 place [.name name] = r' at agree ⊢
            cases agree with
            | refused => rfl
            | there q =>
                by_cases written : q ∈ places
                · -- the link leads to one of the places, so it is not read
                  have unread : ¬discovery.config.Reads name := fun reads =>
                    apart place name q _ reads eq written
                  rcases h.before q written with old | ⟨_, _, old⟩ <;>
                    rcases h.after q written with new | ⟨_, _, new⟩ <;>
                    rw [old, new] <;> dsimp only <;>
                    simp only [sources_skipped, sources_of_not_reads names _ unread]
                · rw [h.outside q written]
                  cases s.entryAt q with
                  | none => rfl
                  | some found =>
                      cases found with
                      | file => rfl
                      | link => rfl
                      | directory =>
                          dsimp only
                          split
                          · rfl
                          · exact same q

end

/-- Items that give nothing can be left out. -/
theorem flatMap_filter {α β : Type} {p : α → Bool} {f : α → List β} {items : List α}
    (nothing : ∀ x, p x = false → f x = []) : (items.filter p).flatMap f = items.flatMap f := by
  induction items with
  | nil => rfl
  | cons x items ih =>
      rw [List.filter_cons, List.flatMap_cons]
      split
      · rw [List.flatMap_cons, ih]
      · rename_i out
        rw [ih, nothing x (by simpa using out), List.nil_append]

/-- Whether a directory is entered does not depend on the places. -/
theorem isPruned_apart (apart : Apart s discovery.config places) (sound : s.Sound)
    (h : Varies places s t) (names : List String) :
    discovery.isPruned t names = discovery.isPruned s names := by
  have marker : t.isFile ((discovery.pathTo names).child "pyvenv.cfg") =
      s.isFile ((discovery.pathTo names).child "pyvenv.cfg") :=
    apart.isFile sound h rfl (.inr (.inl rfl))
  rw [isPruned, isPruned, marker]

/-- **The walk finds the same files below a directory.** -/
theorem sources_walkFrom (apart : Apart s discovery.config places) (sound : s.Sound)
    (h : Varies places s t) : ∀ (fuel : Nat) (above : List (Place × List String)) (place : Place)
      (names : List String), sources (discovery.walkFrom t fuel above place names) =
        sources (discovery.walkFrom s fuel above place names)
  | 0, _, _, _ => rfl
  | fuel + 1, above, place, names => by
      rw [walkFrom_succ, walkFrom_succ, sources_flatMap, sources_flatMap]
      -- the names of the places add nothing in either tree, and the others are the same
      refine (flatMap_filter (p := fun name => place ++ [name] ∉ places) ?_).symm.trans
        (Eq.trans ?_ (flatMap_filter (p := fun name => place ++ [name] ∉ places) ?_))
      · intro name out
        have there := of_not_not (of_decide_eq_false out)
        exact sources_meet_of_mem (h.after _ there) (apart.not_reads (h.before _ there) there)
      · rw [h.namesIn place]
        refine List.flatMap_congr fun name there => ?_
        have outside := of_decide_eq_true (List.mem_filter.1 there).2
        refine sources_meet apart h outside fun target => ?_
        rw [isPruned_apart apart sound h]
        split
        · rfl
        · exact sources_walkFrom apart sound h fuel _ target _
      · intro name out
        have there := of_not_not (of_decide_eq_false out)
        exact sources_meet_of_mem (h.before _ there) (apart.not_reads (h.before _ there) there)

/-! ### Where the files lie -/

/-- A file that lies below some names: names that stand for themselves lead to it, and the last of
them is read. -/
def LiesBelow (discovery : Discovery) (names : List String) (file : SourceFile) : Prop :=
  ∃ rest name, (∀ n ∈ rest ++ [name], IsName n) ∧
    file.location = discovery.pathTo (names ++ (rest ++ [name])) ∧
    file.path = .ofNames (names ++ (rest ++ [name])) ∧ discovery.config.Reads name

/-- What lies below a name in a directory lies below the directory. -/
theorem LiesBelow.up {names : List String} {name : String} {file : SourceFile}
    (h : discovery.LiesBelow (names ++ [name]) file) (isName : IsName name) :
    discovery.LiesBelow names file := by
  obtain ⟨rest, last, valid, location, path, reads⟩ := h
  refine ⟨name :: rest, last, ?_, ?_, ?_, reads⟩
  · intro n hn
    rcases List.mem_cons.1 hn with rfl | later
    · exact isName
    · exact valid n later
  · rw [location, List.append_assoc]
    rfl
  · rw [path, List.append_assoc]
    rfl

theorem liesBelow_of_fileEntry {names : List String} {name : String} {size : Nat}
    {file : SourceFile} (isName : IsName name)
    (h : file ∈ sources (discovery.fileEntry (names ++ [name]) size).toList) :
    discovery.LiesBelow names file := by
  obtain ⟨met, there, eq⟩ := List.mem_filterMap.1 h
  cases met with
  | skipped => cases eq
  | file source =>
      cases eq
      obtain ⟨location, path, -, ext, extension, listed⟩ :=
        discovery.file_of_fileEntry (Option.mem_toList.1 there)
      rw [extension_snoc] at extension
      exact ⟨[], name, by simpa using isName, location, path, .inr (.inr ⟨ext, extension, listed⟩)⟩

/-- What is met at a name lies below the directory. -/
theorem liesBelow_of_meet {tree : FileTree} {inside : List (Place × List String)} {place : Place}
    {names : List String} {name : String} {enter : Place → List Discovered} {file : SourceFile}
    (isName : IsName name)
    (entered : ∀ target, file ∈ sources (enter target) → discovery.LiesBelow (names ++ [name]) file)
    (h : file ∈ sources (discovery.meet tree inside place names name enter)) :
    discovery.LiesBelow names file := by
  rw [meet] at h
  split at h
  · cases h
  · exact (entered _ h).up isName
  · exact liesBelow_of_fileEntry isName h
  · split at h
    · cases h
    · split at h
      · cases h
      · cases h
      · exact liesBelow_of_fileEntry isName h
      · cases h
      · split at h
        · cases h
        · exact (entered _ h).up isName

theorem isName_of_mem {tree : FileTree} (sound : tree.Sound) {place : Place} {name : String}
    (h : name ∈ tree.namesIn place) : IsName name := by
  obtain ⟨⟨_, entry⟩, there, rfl⟩ := List.mem_map.1 (FileTree.mem_namesIn.1 h)
  exact sound.named place name entry there

/-- **The files that a walk finds below a directory lie below its names.** -/
theorem liesBelow_walkFrom {tree : FileTree} (sound : tree.Sound) {file : SourceFile} :
    ∀ (fuel : Nat) (above : List (Place × List String)) (place : Place) (names : List String),
      file ∈ sources (discovery.walkFrom tree fuel above place names) →
        discovery.LiesBelow names file
  | 0, _, _, _, h => by cases h
  | fuel + 1, above, place, names, h => by
      rw [walkFrom_succ, sources_flatMap] at h
      obtain ⟨name, listed, h⟩ := List.mem_flatMap.1 h
      refine liesBelow_of_meet (isName_of_mem sound listed) (fun target there => ?_) h
      split at there
      · cases there
      · exact liesBelow_walkFrom sound fuel _ target _ there

end Discovery

/-! ### Models -/

section

variable (apart : Apart s config places) (sound : s.Sound) (h : Varies places s t) {place : Place}
  (root : s.locate (.ofText config.targetDirectory) = .ok (place, some .directory))

theorem sources_run (discovery : Discovery) (tree : FileTree) :
    (discovery.run tree).1 = Discovery.sources (discovery.walk tree) := rfl

include root in
/-- A walk starts in the directory that the root leads to. -/
theorem walk_of_directory {discovery : Discovery} (same : discovery.config = config) :
    discovery.walk s = discovery.walkFrom s (Discovery.depthBound s) [] place [] := by
  subst same
  rw [Discovery.walk, Discovery.root, FileTree.statText_of_directory root]

include sound root in
/-- The sources of a project lie below its root. -/
theorem location_of_source {file : SourceFile} (there : file ∈ (scanInput s config).sources) :
    ∃ rest name, (∀ n ∈ rest ++ [name], IsName n) ∧
      file.location.parts = (Path.ofText config.targetDirectory).parts ++ rest.map .name ++
        [.name name] ∧
      file.path = .ofNames (rest ++ [name]) ∧ config.Reads name := by
  have found : file ∈ Discovery.sources ((discoveryFor s config).walk s) := mem_sortBy.1 there
  rw [walk_of_directory root rfl] at found
  obtain ⟨rest, name, valid, location, path, reads⟩ :=
    Discovery.liesBelow_walkFrom sound _ _ _ _ found
  refine ⟨rest, name, valid, ?_, path, reads⟩
  rw [location, Discovery.pathTo, List.nil_append, Path.parts_spellBelow _ _ valid,
    List.map_append, List.append_assoc]
  rfl

include apart sound h root in
/-- **A survey starts from the same files.** -/
theorem scanInput_apart : (scanInput t config).sources = (scanInput s config).sources ∧
    (scanInput t config).name = (scanInput s config).name := by
  have root' := h.locate_directory root
  have prepared : discoveryFor t config = discoveryFor s config := by
    rw [discoveryFor, discoveryFor, ignoreRules_apart apart sound h]
  have depth : Discovery.depthBound t = Discovery.depthBound s := by
    rw [Discovery.depthBound, Discovery.depthBound, h.directories]
  constructor
  · have found : ((discoveryFor t config).run t).1 = ((discoveryFor s config).run s).1 := by
      rw [sources_run, sources_run, prepared, walk_of_directory root rfl,
        walk_of_directory root' rfl, depth]
      exact Discovery.sources_walkFrom apart sound h _ _ _ _
    exact congrArg (sortBy fun a b : SourceFile => a.path.order b.path) found
  · show projectName t config.targetDirectory = projectName s config.targetDirectory
    rw [projectName, projectName, FileTree.statText_of_directory root,
      FileTree.statText_of_directory root']

end

/-! ### Models -/

/-- What became of a file in two surveys: the same, but for why it failed. -/
inductive Placement.Alike : Placement → Placement → Prop where
  | same (placement : Placement) : Alike placement placement
  | failed (failure failure' : Failure) : Alike (.failed failure) (.failed failure')

/-- What became of a file that the survey of a tree starts from. -/
def placementIn (tree : FileTree) (config : Config) (file : SourceFile) : Placement :=
  .ofOutcome (indexOne tree (haltAtStart config false) file)

/-- A model without what its diagnostics say. -/
def ProjectModel.undiagnosed (model : ProjectModel) : ProjectModel :=
  { model with diagnostics := [] }

/-- Without a cache every file has its own outcome. -/
theorem placeOutcomes_none : ∀ (sources : List SourceFile) (f : SourceFile → IndexOutcome),
    placeOutcomes (sources.map fun _ => none) (sources.map f) =
      sources.map fun file => .ofOutcome (f file)
  | [], _ => rfl
  | _ :: sources, f => by
      rw [List.map_cons, List.map_cons, List.map_cons, placeOutcomes, placeOutcomes_none sources f]

theorem pendingFiles_none : ∀ sources : List SourceFile,
    pendingFiles sources (sources.map fun _ => none) = sources
  | [] => rfl
  | file :: sources => congrArg (file :: ·) (pendingFiles_none sources)

/-- A survey that starts from nothing takes up every file. -/
theorem scanOnce_eq (tree : FileTree) (config : Config) :
    scanOnce tree config = assemble (scanInput tree config)
      ((haltAtStart config false).getD .stopped)
      ((scanInput tree config).sources.map (placementIn tree config)) := by
  have slots : cachedSlots tree {} (scanInput tree config).sources =
      (scanInput tree config).sources.map fun _ => none := rfl
  simp only [scanOnce, scan, slots, pendingFiles_none, indexFiles_eq, placeOutcomes_none]
  rfl

/-- What does not depend on the wording of failures is counted alike. -/
theorem countP_alike {p : Placement → Bool} (same : ∀ a b, Placement.Alike a b → p b = p a)
    {placements placements' : List Placement}
    (alike : List.Forall₂ Placement.Alike placements placements') :
    placements'.countP p = placements.countP p := by
  induction alike with
  | nil => rfl
  | cons first _ ih => rw [List.countP_cons, List.countP_cons, ih, same _ _ first]

theorem placedFiles_alike {placements placements' : List Placement}
    (alike : List.Forall₂ Placement.Alike placements placements') :
    placedFiles placements' = placedFiles placements := by
  induction alike with
  | nil => rfl
  | cons first _ ih =>
      cases first with
      | same =>
          rename_i placement _ _ _
          cases placement with
          | cached index => exact congrArg (index :: ·) ih
          | fresh index => exact congrArg (index :: ·) ih
          | failed => exact ih
          | notStarted => exact ih
      | failed => exact ih

/-- **Models from placements that are alike are the same** but for their diagnostics. -/
theorem assemble_alike {input input' : ScanInput} {halt : Halt}
    {placements placements' : List Placement} (config : input'.config = input.config)
    (name : input'.name = input.name) (sources : input'.sources = input.sources)
    (alike : List.Forall₂ Placement.Alike placements placements') :
    (assemble input' halt placements').map ProjectModel.undiagnosed =
      (assemble input halt placements).map ProjectModel.undiagnosed := by
  have pending : pendingCount placements' = pendingCount placements :=
    countP_alike (fun _ _ h => by cases h <;> rfl) alike
  have stats : ∀ graph, statsOf input' placements' graph = statsOf input placements graph := by
    intro graph
    have cached := countP_alike (p := Placement.isCached) (fun _ _ h => by cases h <;> rfl) alike
    have failed := countP_alike (p := fun p => p.failure?.isSome)
      (fun _ _ h => by cases h <;> rfl) alike
    simp only [statsOf, sources, pending, placedFiles_alike alike, cached, failed]
  simp only [assemble, Option.map_bind, Option.map_map, Function.comp_def,
    ProjectModel.undiagnosed, config, name, sources, pending, stats, placedFiles_alike alike]

section

variable (apart : Apart s config places) (sound : s.Sound) (h : Varies places s t) {place : Place}
  (root : s.locate (.ofText config.targetDirectory) = .ok (place, some .directory))

/-- What cannot be read has no index. -/
theorem indexBytes_error (file : SourceFile) (reason : String) :
    ∃ failure, indexBytes file (.error reason) = .error failure := by
  rw [indexBytes]
  split
  · exact ⟨_, rfl⟩
  · exact ⟨_, rfl⟩

include apart sound h root in
/-- **A file is placed alike on both sides.** -/
theorem placementIn_alike {file : SourceFile} (there : file ∈ (scanInput s config).sources) :
    (placementIn s config file).Alike (placementIn t config file) := by
  obtain ⟨rest, name, -, location, -, reads⟩ := location_of_source sound root there
  rw [placementIn, placementIn, indexOne, indexOne]
  by_cases halted : (haltAtStart config false).isSome
  · rw [if_pos halted, if_pos halted]
    exact .same _
  · rw [if_neg halted, if_neg halted]
    rcases apart.read sound h location reads with ⟨e, e', eq, eq'⟩ | eq
    · obtain ⟨failure, fails⟩ := indexBytes_error file e.text
      obtain ⟨failure', fails'⟩ := indexBytes_error file e'.text
      rw [eq, eq', Except.mapError, Except.mapError, fails, fails']
      exact .failed failure failure'
    · rw [eq]
      exact .same _

include apart sound h root in
/-- **A survey gives the same model, but for its diagnostics.** -/
theorem scanOnce_apart : (scanOnce t config).map ProjectModel.undiagnosed =
    (scanOnce s config).map ProjectModel.undiagnosed := by
  obtain ⟨sources, name⟩ := scanInput_apart apart sound h root
  rw [scanOnce_eq, scanOnce_eq, sources]
  refine assemble_alike rfl name sources ?_
  rw [List.forall₂_map_left_iff, List.forall₂_map_right_iff, List.forall₂_same]
  exact fun file there => placementIn_alike apart sound h root there

end

end CodeSurvey
