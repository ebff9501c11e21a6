import CodeSurvey.Proofs.DeadCode.Findings
import CodeSurvey.Proofs.Survey.Discovery
import CodeSurvey.Scan
import Mathlib.Data.List.Forall2

/-!
# Models that a survey can give

A survey may be halted before any of its files, and may start from the cache that earlier surveys
left. `Produced` are the models it can give in all of these ways.

* `scan_produced`: `scan` gives such a model, and leaves a cache for the next survey.
* `forall₂_placeOutcomes`: every file in turn is given what was found for it.
* `mem_updateCache`: what a survey keeps was kept before, or is a new index.
* `Produced.surveyed`: in such a model no two files have one path, and every file is one of the
  language that is indexed.
* `isSome_assemble`: there is a model exactly if no count and no score leaves its range.
-/

namespace CodeSurvey

/-! ### Surveys -/

/-- What can become of a file that is not in the cache: it is taken up, or the survey is halted
before it. -/
def Becomes (tree : FileTree) (file : SourceFile) (outcome : IndexOutcome) : Prop :=
  outcome = indexOne tree none file ∨ outcome = .notStarted

/-- What becomes of the files that are not in the cache. -/
def Outcomes (tree : FileTree) (config : Config) (cache : ScanCache)
    (outcomes : List IndexOutcome) : Prop :=
  let sources := (scanInput tree config).sources
  List.Forall₂ (Becomes tree) (pendingFiles sources (cachedSlots tree cache sources)) outcomes

/-- The files of a project as a survey places them. -/
def placementsOf (tree : FileTree) (config : Config) (cache : ScanCache)
    (outcomes : List IndexOutcome) : List Placement :=
  placeOutcomes (cachedSlots tree cache (scanInput tree config).sources) outcomes

/-- The caches that surveys leave. -/
inductive Kept : ScanCache → Prop where
  | fresh : Kept {}
  | survey {cache : ScanCache} {tree : FileTree} {config : Config} {outcomes : List IndexOutcome}
      (before : Kept cache) (h : Outcomes tree config cache outcomes) :
      Kept (updateCache tree
        (cache.count (cachedSlots tree cache (scanInput tree config).sources))
        (scanInput tree config).sources (placementsOf tree config cache outcomes))

/-- A model that a survey can give. -/
inductive Produced : ProjectModel → Prop where
  | survey {cache : ScanCache} {tree : FileTree} {config : Config} {outcomes : List IndexOutcome}
      {halt : Halt} {model : ProjectModel} (before : Kept cache)
      (h : Outcomes tree config cache outcomes)
      (assembled : assemble (scanInput tree config) halt
        (placementsOf tree config cache outcomes) = some model) : Produced model

/-! ### Surveys without a halt -/

theorem flatten_inRuns {α : Type} (size : Nat) (items : List α) :
    (inRuns size items).flatten = items := by
  fun_induction inRuns size items with
  | case1 => rfl
  | case2 item items ih =>
      rw [List.flatten_cons, ih, List.cons_append, List.take_append_drop]

/-- Sharing the files out among workers does not show. -/
theorem indexFiles_eq (tree : FileTree) (halt : Option Halt) (workers : Nat)
    (files : List SourceFile) :
    indexFiles tree halt workers files = files.map (indexOne tree halt) := by
  rw [indexFiles, List.flatMap, ← List.map_flatten, flatten_inRuns]

theorem indexOne_becomes (tree : FileTree) (halt : Option Halt) (file : SourceFile) :
    Becomes tree file (indexOne tree halt file) := by
  cases halt with
  | none => exact .inl rfl
  | some => exact .inr rfl

/-- **A survey gives a model that surveys can give, and leaves a cache for the next one.** -/
theorem scan_produced (tree : FileTree) (config : Config) (stop : Bool) {cache : ScanCache}
    (before : Kept cache) :
    (∀ model, (scan tree config stop cache).1 = some model → Produced model) ∧
      Kept (scan tree config stop cache).2 := by
  have h : Outcomes tree config cache
      (indexFiles tree (haltAtStart config stop) (config.analysis.threads.getD 1)
        (pendingFiles (scanInput tree config).sources
          (cachedSlots tree cache (scanInput tree config).sources))) := by
    rw [indexFiles_eq]
    exact List.forall₂_map_right_iff.2
      (List.forall₂_same.2 fun file _ => indexOne_becomes tree _ file)
  exact ⟨fun model eq => .survey before h eq, .survey before h⟩

/-! ### Placed files -/

theorem file_of_indexBytes {file : SourceFile} {content : Except String ByteArray}
    {index : FileIndex} (h : indexBytes file content = .ok index) :
    index.file = file ∧ file.language = .python := by
  rw [indexBytes.eq_def] at h
  split at h
  · cases h
  · rename_i python
    refine ⟨?_, of_not_not python⟩
    split at h
    · cases h
    · split at h
      · cases h
      · rw [indexSource] at h
        split at h
        · cases h
          rfl
        · cases h

theorem file_of_becomes {tree : FileTree} {file : SourceFile} {index : FileIndex}
    (h : Becomes tree file (.indexed index)) : index.file = file ∧ file.language = .python := by
  rcases h with h | h
  · rw [indexOne, if_neg (by simp)] at h
    split at h
    · rename_i ok
      cases h
      exact file_of_indexBytes ok
    · cases h
  · cases h

theorem exists_of_forall₂ {α β : Type} {R : α → β → Prop} {as : List α} {bs : List β} {b : β}
    (h : List.Forall₂ R as bs) (there : b ∈ bs) : ∃ a ∈ as, R a b := by
  induction h with
  | nil => cases there
  | cons first _ ih =>
      rcases List.mem_cons.1 there with rfl | there
      · exact ⟨_, List.mem_cons_self, first⟩
      · obtain ⟨a, listed, h⟩ := ih there
        exact ⟨a, List.mem_cons_of_mem _ listed, h⟩

theorem file_of_find {cache : ScanCache} {current : Option Fingerprint} {file : SourceFile}
    {index : FileIndex} (h : cache.find current file = some index) :
    index.file = file ∧ ∃ entry ∈ cache.entries, entry.2.index = index := by
  obtain ⟨entry, there, h⟩ := Option.bind_eq_some_iff.1 h
  split at h
  · rename_i same
    cases h
    exact ⟨same.2, (file.location, entry), mem_of_lookup there, rfl⟩
  · cases h

/-- What a survey makes of a file: what `find` has for it, or else what becomes of it. -/
inductive PlacedFor (find : SourceFile → Option FileIndex)
    (becomes : SourceFile → IndexOutcome → Prop) (file : SourceFile) : Placement → Prop where
  | cached {index : FileIndex} (found : find file = some index) :
      PlacedFor find becomes file (.cached index)
  | taken {outcome : IndexOutcome} (missing : find file = none) (h : becomes file outcome) :
      PlacedFor find becomes file (.ofOutcome outcome)

/-- **Every file in turn is given what was found for it.** -/
theorem forall₂_placeOutcomes {find : SourceFile → Option FileIndex}
    {becomes : SourceFile → IndexOutcome → Prop} :
    ∀ (sources : List SourceFile) (outcomes : List IndexOutcome),
      List.Forall₂ becomes (pendingFiles sources (sources.map find)) outcomes →
      List.Forall₂ (PlacedFor find becomes) sources (placeOutcomes (sources.map find) outcomes)
  | [], _, _ => .nil
  | file :: rest, outcomes, h => by
      cases found : find file with
      | some index =>
          simp only [pendingFiles, List.map_cons, found, List.zip_cons_cons, List.filterMap_cons,
            Option.isNone_some, Bool.false_eq_true, if_false] at h
          simp only [List.map_cons, found, placeOutcomes]
          exact .cons (.cached found) (forall₂_placeOutcomes rest outcomes h)
      | none =>
          simp only [pendingFiles, List.map_cons, found, List.zip_cons_cons, List.filterMap_cons,
            Option.isNone_none, if_true] at h
          cases h with
          | @cons _ outcome _ later becomes h =>
              -- the outcome is that of the file, since those found in the cache are not pending
              simp only [List.map_cons, found, placeOutcomes]
              exact .cons (.taken found becomes) (forall₂_placeOutcomes rest later h)

namespace PlacedFor

variable {find : SourceFile → Option FileIndex} {becomes : SourceFile → IndexOutcome → Prop}
  {file : SourceFile} {placement : Placement} {index : FileIndex}

/-- An index that is placed for a file was found for it, or is what became of it. -/
theorem of_index (h : PlacedFor find becomes file placement) (has : placement.index? = some index) :
    (placement = .cached index ∧ find file = some index) ∨
      placement = .fresh index ∧ becomes file (.indexed index) := by
  cases h with
  | cached found =>
      cases has
      exact .inl ⟨rfl, found⟩
  | @taken outcome _ h =>
      cases outcome with
      | indexed =>
          cases has
          exact .inr ⟨rfl, h⟩
      | failed => cases has
      | notStarted => cases has

/-- A failure that is placed for a file is what became of it. -/
theorem of_failure {failure : Failure} (h : PlacedFor find becomes file (.failed failure)) :
    becomes file (.failed failure) := by
  generalize made : Placement.failed failure = placement at h
  cases h with
  | cached => cases made
  | @taken outcome _ h =>
      cases outcome with
      | indexed => cases made
      | failed =>
          cases made
          exact h
      | notStarted => cases made

end PlacedFor

/-- **The placed indexes are those of some of the files, in order.** -/
theorem placedFiles_sublist {placed : SourceFile → Placement → Prop}
    (own : ∀ file placement index, placed file placement → placement.index? = some index →
      index.file = file)
    {sources : List SourceFile} {placements : List Placement}
    (h : List.Forall₂ placed sources placements) :
    ((placedFiles placements).map FileIndex.file).Sublist sources := by
  induction h with
  | nil => exact .slnil
  | @cons file placement sources placements first _ ih =>
      cases has : placement.index? with
      | none =>
          rw [placedFiles, List.filterMap_cons_none has]
          exact ih.cons file
      | some index =>
          rw [placedFiles, List.filterMap_cons_some has, List.map_cons, own _ _ _ first has]
          exact ih.cons_cons file

/-! ### Kept indexes -/

variable {tree : FileTree} {config : Config} {cache : ScanCache} {outcomes : List IndexOutcome}

theorem ScanCache.mem_insert {current : Option Fingerprint} {location : Path} {index : FileIndex}
    {entry : Path × CacheEntry} (h : entry ∈ (cache.insert current location index).entries) :
    entry ∈ cache.entries ∨
      ∃ fingerprint, current = some fingerprint ∧ entry = (location, ⟨fingerprint, index⟩) := by
  cases current with
  | none => exact .inl h
  | some fingerprint =>
      rcases List.mem_cons.1 h with rfl | h
      · exact .inr ⟨fingerprint, rfl, rfl⟩
      · exact .inl (List.mem_filter.1 h).1

/-- **What a survey keeps was kept before, or is the new index of one of its files.** -/
theorem mem_updateCache {sources : List SourceFile} {placements : List Placement}
    {entry : Path × CacheEntry} (h : entry ∈ (updateCache tree cache sources placements).entries) :
    entry ∈ cache.entries ∨ ∃ file index fingerprint,
      (file, .fresh index) ∈ sources.zip placements ∧
        tree.fingerprint file.location = some fingerprint ∧
        entry = (file.location, ⟨fingerprint, index⟩) := by
  replace h := (List.mem_filter.1 h).1
  generalize sources.zip placements = pairs at h ⊢
  induction pairs generalizing cache with
  | nil => exact .inl h
  | cons pair rest ih =>
      obtain ⟨file, placement⟩ := pair
      rcases ih h with kept | ⟨file', index, fingerprint, later, new⟩
      · cases placement with
        | fresh index =>
            rcases ScanCache.mem_insert kept with kept | ⟨fingerprint, current, rfl⟩
            · exact .inl kept
            · exact .inr ⟨file, index, fingerprint, List.mem_cons_self, current, rfl⟩
        | _ => exact .inl kept
      · exact .inr ⟨file', index, fingerprint, List.mem_cons_of_mem _ later, new⟩

/-! ### The language of placed files -/

/-- Every kept index is one of the language that is indexed. -/
def ScanCache.IsPython (cache : ScanCache) : Prop :=
  ∀ entry ∈ cache.entries, entry.2.index.file.language = .python

theorem python_of_placed (kept : cache.IsPython) (h : Outcomes tree config cache outcomes)
    {placement : Placement} {index : FileIndex}
    (placed : placement ∈ placementsOf tree config cache outcomes)
    (there : placement.index? = some index) : index.file.language = .python := by
  obtain ⟨file, -, placed⟩ := exists_of_forall₂ (forall₂_placeOutcomes _ _ h) placed
  rcases placed.of_index there with ⟨-, found⟩ | ⟨-, new⟩
  · obtain ⟨-, entry, mem, rfl⟩ := file_of_find found
    exact kept entry mem
  · obtain ⟨rfl, python⟩ := file_of_becomes new
    exact python

theorem Kept.isPython (h : Kept cache) : cache.IsPython := by
  induction h with
  | fresh => exact nofun
  | survey _ outcomes ih =>
      intro entry there
      rcases mem_updateCache there with kept | ⟨_, index, _, placed, -, rfl⟩
      · exact ih entry kept
      · exact python_of_placed ih outcomes (List.of_mem_zip placed).2 rfl

/-! ### The files of a model -/

/-- What a model has of the files that have been placed. -/
theorem of_assemble {input : ScanInput} {halt : Halt} {placements : List Placement}
    {model : ProjectModel} (assembled : assemble input halt placements = some model) :
    model.files = placedFiles placements ∧
      model.stats = statsOf input placements (buildGraph (placedFiles placements)) ∧
      model.isIncomplete = decide (0 < pendingCount placements) := by
  obtain ⟨_, -, h⟩ := Option.bind_eq_some_iff.1 assembled
  obtain ⟨_, -, rfl⟩ := Option.map_eq_some_iff.1 h
  exact ⟨rfl, rfl, rfl⟩

/-- The files of a model lie at different paths, and every path is that of a file in the language
that is indexed. -/
structure ProjectModel.Surveyed (model : ProjectModel) : Prop where
  distinct : (model.files.map FileIndex.path).Nodup
  python   : ∀ file ∈ model.files,
    Language.ofExtension (file.path.extension.map Text.lower) = .python

theorem scanInput_found (tree : FileTree) (config : Config) :
    Discovery.Found [] (scanInput tree config).sources := by
  have found := (discoveryFor tree config).run_found tree
  have perm := sortBy_perm (fun a b : SourceFile => a.path.order b.path)
    ((discoveryFor tree config).run tree).1
  exact ⟨fun file h => found.below file (perm.mem_iff.1 h),
    fun file h => found.language file (perm.mem_iff.1 h),
    (perm.map SourceFile.path).nodup_iff.2 found.distinct⟩

/-- **A survey gives a model whose files lie at different paths, all of the language that is
indexed.** -/
theorem Produced.surveyed {model : ProjectModel} (h : Produced model) : model.Surveyed := by
  obtain @⟨cache, tree, config, outcomes, halt, model, before, h, assembled⟩ := h
  have files : model.files = placedFiles (placementsOf tree config cache outcomes) :=
    (of_assemble assembled).1
  have found := scanInput_found tree config
  have sub : (model.files.map FileIndex.file).Sublist (scanInput tree config).sources := by
    rw [files]
    refine placedFiles_sublist (fun file placement index placed has => ?_)
      (forall₂_placeOutcomes _ _ h)
    rcases placed.of_index has with ⟨-, found⟩ | ⟨-, new⟩
    · exact (file_of_find found).1
    · exact (file_of_becomes new).1
  constructor
  · have := (sub.map SourceFile.path).nodup found.distinct
    rwa [List.map_map] at this
  · intro file there
    rw [files] at there
    obtain ⟨placement, placed, eq⟩ := List.mem_filterMap.1 there
    have python := python_of_placed before.isPython h placed eq
    rw [← files] at there
    exact (found.language file.file (sub.subset (List.mem_map_of_mem there))).symm.trans python

/-! ### Range -/

/-- No count of the conflicts and no score of a symbol that may be reported leaves its range. -/
def InRange (input : ScanInput) (files : List FileIndex) : Prop :=
  (detectConflicts (conflictCandidates input.sources (buildGraph files))).isSome ∧
    ∀ index ∈ files, ∀ symbol ∈ index.symbols, isCandidate index.file symbol →
      (score (.ofSymbol symbol ((buildGraph files).usage symbol.id) index.file.isTest)
        input.config.analysis.weights).isSome

/-- **A survey gives a model exactly if nothing leaves its range.** -/
theorem isSome_assemble {input : ScanInput} {halt : Halt} {placements : List Placement} :
    (assemble input halt placements).isSome ↔ InRange input (placedFiles placements) := by
  rw [InRange, ← isSome_deadCode input.config.analysis.confidenceThreshold, assemble]
  cases detectConflicts (conflictCandidates input.sources (buildGraph (placedFiles placements))) with
  | none => simp
  | some conflicts => simp

end CodeSurvey
