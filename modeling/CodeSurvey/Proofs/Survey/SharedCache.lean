import CodeSurvey.Proofs.Survey.TextProjects

/-!
# Surveys that share a cache

Surveys one after another may share a cache, while files are changed, removed and made again and the
configuration changes. As long as the size and the time of change of a file tell what is in it, no
survey shows that it had a cache, but for the count of the indexes that came from there.

* `ScanCache.Faithful`: every kept index is what one of the trees gives for its file.
* `scan_faithful`: with such a cache a survey gives the model of one without a cache, and it leaves
  such a cache.
* `surveys_shared`: so all surveys that share a cache give the models of surveys that start from
  nothing.
-/

namespace CodeSurvey

/-! ### Runs of surveys -/

/-- A survey of a run: the file tree as it is then, and how the survey is configured. -/
structure SurveyStep where
  tree   : FileTree
  config : Config

/-- The models of surveys one after another, each with the cache that the one before it left. -/
def surveys : ScanCache → List SurveyStep → List (Option ProjectModel)
  | _, []                => []
  | cache, step :: later =>
    let (model, cache) := scan step.tree step.config false cache
    model :: surveys cache later

/-- Whether a survey has the time for its files. -/
def SurveyStep.IsComplete (step : SurveyStep) : Prop :=
  haltAtStart step.config false = none

/-- In some trees, the size and the time of change of what a path leads to tell what is in it. -/
def Determined (trees : List FileTree) : Prop :=
  ∀ s ∈ trees, ∀ t ∈ trees, ∀ path fingerprint,
    s.fingerprint path = some fingerprint → t.fingerprint path = some fingerprint →
      s.read path = t.read path

/-- A model without the count of indexes from the cache. -/
def ProjectModel.uncounted (model : ProjectModel) : ProjectModel :=
  { model with stats := { model.stats with cachedFiles := 0 } }

/-! ### Faithful caches -/

/-- Every kept index is what one of some trees gives for its file, at a time when the file had the
size and the time of change that are kept with it. -/
def ScanCache.Faithful (trees : List FileTree) (cache : ScanCache) : Prop :=
  ∀ entry ∈ cache.entries, ∃ tree ∈ trees,
    tree.fingerprint entry.1 = some entry.2.fingerprint ∧
      indexOne tree none entry.2.index.file = .indexed entry.2.index

variable {trees : List FileTree} {tree : FileTree} {config : Config} {cache : ScanCache}

theorem faithful_empty (trees : List FileTree) : ScanCache.Faithful trees {} :=
  nofun

/-- A file that reads the same has the same outcome. -/
theorem indexOne_congr {s t : FileTree} {file : SourceFile}
    (same : s.read file.location = t.read file.location) :
    indexOne s none file = indexOne t none file := by
  rw [indexOne, indexOne, same]

/-- **What a faithful cache finds for a file is what the tree gives for it.** -/
theorem ScanCache.Faithful.indexOne (faithful : cache.Faithful trees)
    (determined : Determined trees)
    (there : tree ∈ trees) {file : SourceFile} {index : FileIndex}
    (found : cache.find (tree.fingerprint file.location) file = some index) :
    CodeSurvey.indexOne tree none file = .indexed index := by
  obtain ⟨entry, listed, h⟩ := Option.bind_eq_some_iff.1 found
  split at h
  · rename_i matching
    cases h
    obtain ⟨current, own⟩ := matching
    obtain ⟨before, listed', known, gave⟩ := faithful _ (mem_of_lookup listed)
    -- the entry is from a tree where the file was known by the same, so it read the same there
    rw [own] at gave
    rw [← gave]
    exact indexOne_congr (determined tree there before listed' _ _ current known)
  · cases h

/-! ### What a survey makes of a file -/

namespace Placement

/-- A placement as it is without a cache. -/
def anew : Placement → Placement
  | cached index => fresh index
  | placement    => placement

theorem anew_ofOutcome (outcome : IndexOutcome) : (ofOutcome outcome).anew = ofOutcome outcome := by
  cases outcome <;> rfl

theorem index?_anew (placement : Placement) : placement.anew.index? = placement.index? := by
  cases placement <;> rfl

theorem failure?_anew (placement : Placement) : placement.anew.failure? = placement.failure? := by
  cases placement <;> rfl

theorem isNotStarted_anew (placement : Placement) :
    placement.anew.isNotStarted = placement.isNotStarted := by
  cases placement <;> rfl

end Placement

/-- A model does not show which indexes came from the cache, but for their count. -/
theorem assemble_anew (input : ScanInput) (halt : Halt) (placements : List Placement) :
    (assemble input halt (placements.map Placement.anew)).map ProjectModel.uncounted =
      (assemble input halt placements).map ProjectModel.uncounted := by
  have files : placedFiles (placements.map Placement.anew) = placedFiles placements := by
    simp only [placedFiles, List.filterMap_map, Function.comp_def, Placement.index?_anew]
  have failures : (placements.map Placement.anew).filterMap Placement.failure? =
      placements.filterMap Placement.failure? := by
    simp only [List.filterMap_map, Function.comp_def, Placement.failure?_anew]
  have pending : pendingCount (placements.map Placement.anew) = pendingCount placements := by
    simp only [pendingCount, List.countP_map, Function.comp_def, Placement.isNotStarted_anew]
  have failed : (placements.map Placement.anew).countP (fun p => p.failure?.isSome) =
      placements.countP fun p => p.failure?.isSome := by
    simp only [List.countP_map, Function.comp_def, Placement.failure?_anew]
  simp only [assemble, Option.map_bind, Option.map_map, Function.comp_def,
    ProjectModel.uncounted, statsOf, fileDiagnostics, files, failures, pending, failed]

/-- What a survey without a halt makes of the files, and of the cache. -/
theorem scan_eq (tree : FileTree) (cache : ScanCache) (complete : haltAtStart config false = none) :
    ∃ placements, scan tree config false cache =
        (assemble (scanInput tree config) .stopped placements,
          updateCache tree (cache.count (cachedSlots tree cache (scanInput tree config).sources))
            (scanInput tree config).sources placements) ∧
      List.Forall₂
        (PlacedFor (fun file => cache.find (tree.fingerprint file.location) file)
          fun file outcome => outcome = indexOne tree none file)
        (scanInput tree config).sources placements := by
  refine ⟨_, ?_, forall₂_placeOutcomes _ ((pendingFiles (scanInput tree config).sources
    (cachedSlots tree cache (scanInput tree config).sources)).map (indexOne tree none)) ?_⟩
  · simp only [scan, complete, indexFiles_eq, Option.getD_none]
    rfl
  · exact List.forall₂_map_right_iff.2 (List.forall₂_same.2 fun _ _ => rfl)

/-- A survey that is not halted takes up every file. -/
theorem scanOnce_complete (complete : haltAtStart config false = none) :
    scanOnce tree config = assemble (scanInput tree config) .stopped
      ((scanInput tree config).sources.map fun file => .ofOutcome (indexOne tree none file)) := by
  have placed : placementIn tree config = fun file => .ofOutcome (indexOne tree none file) := by
    funext file
    rw [placementIn, complete]
  rw [scanOnce_eq, complete, placed]
  rfl

/-- **A survey with a faithful cache gives the model of one without a cache, and leaves a faithful
cache.** -/
theorem scan_faithful (faithful : cache.Faithful trees) (determined : Determined trees)
    (there : tree ∈ trees) (complete : haltAtStart config false = none) :
    (scan tree config false cache).1.map ProjectModel.uncounted =
        (scanOnce tree config).map ProjectModel.uncounted ∧
      (scan tree config false cache).2.Faithful trees := by
  obtain ⟨placements, eq, placed⟩ := scan_eq tree cache complete
  rw [eq, scanOnce_complete complete]
  constructor
  · have same : placements.map Placement.anew =
        (scanInput tree config).sources.map fun file => .ofOutcome (indexOne tree none file) := by
      refine List.forall₂_eq_eq_eq ▸ List.forall₂_map_left_iff.2 (List.forall₂_map_right_iff.2
        (placed.flip.imp fun placement file h => ?_))
      cases h with
      | cached found =>
          rw [faithful.indexOne determined there found]
          rfl
      | taken _ h => rw [h, Placement.anew_ofOutcome]
    rw [← assemble_anew, same]
  · intro entry kept
    rcases mem_updateCache kept with kept | ⟨file, index, fingerprint, new, current, rfl⟩
    · exact faithful entry kept
    · -- a new entry is what this tree gives for the file in the same place of the list
      rcases (List.forall₂_zip placed new).of_index rfl with ⟨eq, -⟩ | ⟨-, gave⟩
      · cases eq
      · obtain ⟨rfl, -⟩ := file_of_becomes (.inl gave)
        exact ⟨tree, there, current, gave.symm⟩

/-! ### A project that changes -/

/-- A project with nothing but a package marker. -/
def markerTree : FileTree :=
  .ofTexts [("__init__.py", "")]

/-- The package marker. -/
def markerSource : SourceFile :=
  textModule "__init__.py" ""

theorem sources_markerTree : (scanInput markerTree plainConfig).sources = [markerSource] := by
  rw [markerTree, sources_ofTexts (FileTree.sound_ofTexts (by decide) (by decide)) (by decide) rfl]
  rfl

theorem placementIn_markerTree : ∃ index : FileIndex,
    placementIn markerTree plainConfig markerSource = .fresh index ∧ index.file = markerSource ∧
      index.symbols = [] := by
  have indexed : indexSource markerSource "" = .ok (indexNodes markerSource [] 0) := rfl
  have outcome : indexOne markerTree none markerSource =
      .indexed (indexNodes markerSource [] 0) := by
    rw [indexOne_of_text "" rfl rfl, indexed]
  exact ⟨_, congrArg Placement.ofOutcome outcome, rfl, rfl⟩

theorem scanOnce_markerTree : ∃ model, scanOnce markerTree plainConfig = some model := by
  obtain ⟨index, placed, -, symbols⟩ := placementIn_markerTree
  rw [scanOnce_eq, sources_markerTree, List.map_singleton, placed]
  refine Option.isSome_iff_exists.1 (isSome_assemble.2 (inRange_of_root ?_ ?_ ?_))
  · rw [sources_markerTree]
    exact fun file there => ⟨"__init__.py", List.mem_singleton.1 there ▸ rfl⟩
  · -- the name of a package marker is no candidate
    rw [sources_markerTree]
    exact Nat.zero_le _
  · intro found there symbol own
    cases List.mem_singleton.1 there
    rw [symbols] at own
    cases own

/-- The package marker with other content, written later. -/
def changedMarkerTree : FileTree :=
  { markerTree with entries := [(["__init__.py"], .file (String.toUTF8 "x = 1\n") 1)] }

/-- Two surveys of the package marker, and one after it has been written again. -/
def markerSteps : List SurveyStep :=
  [⟨markerTree, plainConfig⟩, ⟨markerTree, plainConfig⟩, ⟨changedMarkerTree, plainConfig⟩]

/-- What a file is known by is the time of change of some entry. -/
theorem FileTree.mem_of_fingerprint {path : Path} {fingerprint : Fingerprint}
    (h : tree.fingerprint path = some fingerprint) :
    ∃ place content, (place, .file content fingerprint.modified) ∈ tree.entries := by
  rw [FileTree.fingerprint, stat] at h
  cases leads : tree.locate path with
  | error => simp [leads] at h
  | ok r =>
      obtain ⟨place, entry⟩ := r
      obtain ⟨-, there⟩ := follow_eq_ok_iff.1 leads
      rcases entry with _ | ⟨content, modified⟩ | _ | _
      all_goals simp [leads] at h
      subst h
      have nonempty : place ≠ [] := by
        rintro rfl
        cases there
      rw [entryAt_of_ne_nil nonempty] at there
      exact ⟨place, content, mem_of_lookup there.symm⟩

/-- A tree of one file knows every file by its time of change. -/
theorem modified_of_single {place : Place} {content : ByteArray} {modified : Nat}
    (only : tree.entries = [(place, .file content modified)]) {path : Path}
    {fingerprint : Fingerprint} (h : tree.fingerprint path = some fingerprint) :
    fingerprint.modified = modified := by
  obtain ⟨place', content', there⟩ := FileTree.mem_of_fingerprint h
  rw [only, List.mem_singleton, Prod.mk.injEq, FileEntry.file.injEq] at there
  exact there.2.2

/-- The marker is told by its time of change. -/
theorem determined_markerSteps : Determined (markerSteps.map SurveyStep.tree) := by
  have before : ∀ {path fingerprint}, markerTree.fingerprint path = some fingerprint →
      fingerprint.modified = 0 := modified_of_single rfl
  have after : ∀ {path fingerprint}, changedMarkerTree.fingerprint path = some fingerprint →
      fingerprint.modified = 1 := modified_of_single rfl
  have which : ∀ tree ∈ markerSteps.map SurveyStep.tree,
      tree = markerTree ∨ tree = changedMarkerTree := by
    simp [markerSteps]
  intro s hs t ht path fingerprint known known'
  -- the two trees never have a file with one time of change
  rcases which s hs with rfl | rfl <;> rcases which t ht with rfl | rfl
  · rfl
  · cases (before known).symm.trans (after known')
  · cases (before known').symm.trans (after known)
  · rfl

/-- After a survey the cache has the index of the package marker. -/
theorem find_markerTree : ∃ index, (scan markerTree plainConfig false {}).2.find
    (markerTree.fingerprint markerSource.location) markerSource = some index := by
  obtain ⟨index, placed, own, -⟩ := placementIn_markerTree
  have kept : (scan markerTree plainConfig false {}).2.entries =
      [(markerSource.location, ⟨⟨0, 0⟩, index⟩)] := by
    simp only [scan, sources_markerTree, indexFiles_eq]
    show (updateCache markerTree _ [markerSource]
      [placementIn markerTree plainConfig markerSource]).entries = _
    rw [placed]
    rfl
  have current : markerTree.fingerprint markerSource.location = some ⟨0, 0⟩ := rfl
  refine ⟨index, ?_⟩
  rw [ScanCache.find, kept, List.lookup_cons_self, Option.bind_some, if_pos ⟨current, own⟩]

/-! ### Main result -/

/-- **A run of surveys keeps the cache faithful**; the induction is on the run. -/
theorem surveys_faithful (determined : Determined trees) : ∀ (steps : List SurveyStep)
    (cache : ScanCache), cache.Faithful trees → (∀ step ∈ steps, step.tree ∈ trees) →
      (∀ step ∈ steps, step.IsComplete) →
      (surveys cache steps).map (Option.map ProjectModel.uncounted) =
        steps.map fun step => (scanOnce step.tree step.config).map ProjectModel.uncounted
  | [], _, _, _, _ => rfl
  | step :: later, cache, faithful, listed, complete => by
      obtain ⟨model, next⟩ := scan_faithful faithful determined (listed step List.mem_cons_self)
        (complete step List.mem_cons_self)
      rw [surveys, List.map_cons, List.map_cons, model,
        surveys_faithful determined later _ next
          (fun s h => listed s (List.mem_cons_of_mem _ h))
          fun s h => complete s (List.mem_cons_of_mem _ h)]

/-- **Surveys that share a cache give the models of surveys that start from nothing**, but for the
count of indexes from the cache: whatever becomes of the files and the configuration between them,
if the size and the time of change of a file tell what is in it and no survey runs out of time. -/
theorem surveys_shared {steps : List SurveyStep} (complete : ∀ step ∈ steps, step.IsComplete)
    (determined : Determined (steps.map SurveyStep.tree)) :
    (surveys {} steps).map (Option.map ProjectModel.uncounted) =
      steps.map fun step => (scanOnce step.tree step.config).map ProjectModel.uncounted :=
  surveys_faithful determined steps {} (faithful_empty _)
    (fun _ h => List.mem_map_of_mem h) complete

/-- A project that changes after two surveys. The first of them gives a model, and leaves the index
that the second one finds. -/
theorem surveys_shared_marker : (∀ step ∈ markerSteps, step.IsComplete) ∧
    Determined (markerSteps.map SurveyStep.tree) ∧
    (∃ model, scanOnce markerTree plainConfig = some model) ∧
    (∃ index, (scan markerTree plainConfig false {}).2.find
      (markerTree.fingerprint markerSource.location) markerSource = some index) ∧
    (surveys {} markerSteps).map (Option.map ProjectModel.uncounted) =
      markerSteps.map fun step => (scanOnce step.tree step.config).map ProjectModel.uncounted := by
  have complete : ∀ step ∈ markerSteps, step.IsComplete := by
    intro step h
    have config : step.config = plainConfig := by
      revert step
      simp [markerSteps]
    rw [SurveyStep.IsComplete, config]
    rfl
  exact ⟨complete, determined_markerSteps, scanOnce_markerTree, find_markerTree,
    surveys_shared complete determined_markerSteps⟩

end CodeSurvey
