import CodeSurvey.Proofs.Survey.HaltDiagnostics
import CodeSurvey.Proofs.Survey.TextProjects

/-!
# Every file is accounted for

The files that the cache has nothing for are shared out among workers in runs, and the survey may be
halted before any of them: so what the workers say about the files may be anything, file by file.
Whatever it is, no file is lost and none is taken for another.

* `Answer`: what a worker can say about a file; `Answered`: what the workers say, run by run.
* `scan_answered`: `scan` is a survey with such answers.
* `length_placements`: a file has an index, has failed, or was not started.
* `Accounts`: what the model of a survey tells about the files of the project.
* `survey_accounts`: whatever the workers say, the model accounts for every file.
-/

namespace CodeSurvey

open Std (TransCmp LawfulEqCmp)

/-! ### What workers say -/

/-- What a worker can say about a file: what the file gives, that there is no parser for it, or that
the survey was halted before it. -/
inductive Answer (tree : FileTree) (file : SourceFile) : IndexOutcome → Prop where
  | taken {outcome : IndexOutcome} (gives : indexOne tree none file = outcome) :
      Answer tree file outcome
  | noParser : Answer tree file (.failed (.parse file.path.text "python grammar unavailable"))
  | notStarted : Answer tree file .notStarted

/-- What the workers say about the files that are not in the cache, run by run. -/
def Answered (tree : FileTree) (config : Config) (cache : ScanCache) (workers : Nat)
    (runs : List (List IndexOutcome)) : Prop :=
  let sources := (scanInput tree config).sources
  let pending := pendingFiles sources (cachedSlots tree cache sources)
  List.Forall₂ (List.Forall₂ (Answer tree)) (inRuns (pending.length / workers - 1) pending) runs

/-- What a survey makes of a file: what the cache has for it, or else what a worker says. -/
def Treated (tree : FileTree) (cache : ScanCache) : SourceFile → Placement → Prop :=
  PlacedFor (fun file => cache.find (tree.fingerprint file.location) file) (Answer tree)

variable {tree : FileTree} {config : Config} {cache : ScanCache} {workers : Nat}
  {runs : List (List IndexOutcome)}

/-- **A survey that is halted at its start or not at all has such answers.** -/
theorem scan_answered (tree : FileTree) (config : Config) (stop : Bool) (cache : ScanCache) :
    ∃ runs, Answered tree config cache (config.analysis.threads.getD 1) runs ∧
      (scan tree config stop cache).1 = assemble (scanInput tree config)
        ((haltAtStart config stop).getD .stopped)
        (placementsOf tree config cache runs.flatten) := by
  refine ⟨_, List.forall₂_map_right_iff.2 (List.forall₂_same.2 fun run _ =>
    List.forall₂_map_right_iff.2 (List.forall₂_same.2 fun file _ => ?_)), rfl⟩
  rcases indexOne_becomes tree (haltAtStart config stop) file with eq | eq
  · exact .taken eq.symm
  · exact eq ▸ .notStarted

/-- **Every file in turn is treated as the cache or a worker says.** -/
theorem forall₂_treated (answered : Answered tree config cache workers runs) :
    List.Forall₂ (Treated tree cache) (scanInput tree config).sources
      (placementsOf tree config cache runs.flatten) := by
  refine forall₂_placeOutcomes _ _ ?_
  -- the runs put together are the files, whatever the number of workers
  have flat := List.rel_flatten answered
  rwa [flatten_inRuns] at flat

/-! ### Numbers -/

/-- **A file has an index, has failed, or was not started.** -/
theorem length_placements (placements : List Placement) :
    placements.length = (placedFiles placements).length +
      placements.countP (fun p => p.failure?.isSome) + pendingCount placements := by
  rw [placedFiles, List.length_filterMap_eq_countP, pendingCount]
  induction placements with
  | nil => rfl
  | cons placement rest ih =>
      have one : (if placement.index?.isSome then 1 else 0) +
          (if placement.failure?.isSome then 1 else 0) +
          (if placement.isNotStarted then 1 else 0) = 1 := by
        cases placement <;> rfl
      rw [List.length_cons, List.countP_cons, List.countP_cons, List.countP_cons, ih]
      omega

theorem countP_isCached_le (placements : List Placement) :
    placements.countP Placement.isCached ≤ (placedFiles placements).length := by
  rw [placedFiles, List.length_filterMap_eq_countP]
  refine List.countP_mono_left fun placement _ cached => ?_
  cases placement <;> first | rfl | cases cached

/-! ### Failures -/

theorem Answer.index {file : SourceFile} {index : FileIndex}
    (h : Answer tree file (.indexed index)) :
    indexOne tree none file = .indexed index := by
  cases h with
  | taken gives => exact gives

theorem indexBytes_failure {file : SourceFile} {content : Except String ByteArray}
    {failure : Failure} (h : indexBytes file content = .error failure) :
    (∃ reason, failure = .parse file.path.text reason) ∨
      ∃ reason, failure = .io file.path.text reason := by
  rw [indexBytes.eq_def] at h
  split at h
  · cases h
    exact .inl ⟨_, rfl⟩
  · split at h
    · cases h
      exact .inr ⟨_, rfl⟩
    · split at h
      · cases h
        exact .inl ⟨_, rfl⟩
      · rw [indexSource] at h
        split at h
        · cases h
        · cases h
          exact .inl ⟨_, rfl⟩

/-- A failure of a file is one of reading or parsing it, and names it. -/
theorem Answer.failure {file : SourceFile} {failure : Failure}
    (h : Answer tree file (.failed failure)) :
    (∃ reason, failure = .parse file.path.text reason) ∨
      ∃ reason, failure = .io file.path.text reason := by
  cases h with
  | taken gives =>
      rw [indexOne, if_neg (by simp)] at gives
      split at gives
      · cases gives
      · rename_i error
        cases gives
        exact indexBytes_failure error
  | noParser => exact .inl ⟨_, rfl⟩

theorem Answer.subject {file : SourceFile} {failure : Failure}
    (h : Answer tree file (.failed failure)) :
    (Diagnostic.ofFailure failure).file = file.path.text := by
  rcases h.failure with ⟨reason, rfl⟩ | ⟨reason, rfl⟩
  · rfl
  · rfl

theorem Answer.not_isHalt {file : SourceFile} {failure : Failure}
    (h : Answer tree file (.failed failure)) : ¬(Diagnostic.ofFailure failure).isHalt := by
  rcases h.failure with ⟨reason, rfl⟩ | ⟨reason, rfl⟩
  · exact Diagnostic.not_isHalt_of_kind .parseError rfl (by decide)
  · exact Diagnostic.not_isHalt_of_kind .ioError rfl (by decide)

/-! ### Sources -/

/-- The path of a file of the project is spelled by names that stand for themselves. -/
theorem ofText_source (sound : tree.Sound) {file : SourceFile}
    (there : file ∈ (scanInput tree config).sources) : Path.ofText file.path.text = file.path := by
  have found : file ∈ Discovery.sources ((discoveryFor tree config).walk tree) := mem_sortBy.1 there
  rw [Discovery.walk] at found
  split at found
  · cases found
  · obtain ⟨rest, name, valid, -, path, -⟩ := Discovery.liesBelow_walkFrom sound _ _ _ _ found
    rw [path, List.nil_append, Path.ofText_text (by simp) valid]
  · cases found

/-- **The files of a project are in strict order.** -/
theorem pairwise_sources (tree : FileTree) (config : Config) :
    (scanInput tree config).sources.Pairwise fun a b => a.path.order b.path = .lt := by
  have paths : TransCmp (compare : Path → Path → Ordering) := inferInstanceAs (TransCmp Path.order)
  have : TransCmp fun a b : SourceFile => a.path.order b.path :=
    inferInstanceAs (TransCmp (compareOn SourceFile.path))
  have sorted : (scanInput tree config).sources.Pairwise fun a b => (a.path.order b.path).isLE :=
    pairwise_sortBy _
  have distinct := List.pairwise_map.1 (scanInput_found tree config).distinct
  refine sorted.imp₂ (fun a b le ne => ?_) distinct
  cases eq : a.path.order b.path with
  | lt => rfl
  | eq => exact absurd (LawfulEqCmp.eq_of_compare eq) ne
  | gt => simp [eq] at le

/-! ### The model -/

/-- What the model of a survey tells about the files of the project.

* Its files are in strict order. Each is the index of a file of the project: the one that the cache
  has for that file, or the one that the file gives.
* A file that was found has been indexed, has failed, or was not started. The indexes from the cache
  are among the indexes.
* A file that failed has a diagnostic that says why, and is that of no other file.
* The model is incomplete exactly if files were not started, and then it has one diagnostic of a
  halt; otherwise it has none. -/
structure Accounts (tree : FileTree) (config : Config) (cache : ScanCache)
    (placements : List Placement) (model : ProjectModel) : Prop where
  ordered    : model.files.Pairwise fun a b => a.path.order b.path = .lt
  own        : ∀ index ∈ model.files, index.file ∈ (scanInput tree config).sources ∧
    (cache.find (tree.fingerprint index.file.location) index.file = some index ∨
      indexOne tree none index.file = .indexed index)
  found      : model.stats.discoveredFiles = (scanInput tree config).sources.length
  indexed    : model.stats.indexedFiles = model.files.length
  total      : model.stats.discoveredFiles =
    model.stats.indexedFiles + model.stats.failedFiles + model.stats.skippedFiles
  cached     : model.stats.cachedFiles ≤ model.stats.indexedFiles
  failures   : ∀ file failure,
    (file, .failed failure) ∈ (scanInput tree config).sources.zip placements →
    ∃ d ∈ model.diagnostics, d.kind = failure.kind ∧ d.reason = failure.message ∧
      ∀ other ∈ (scanInput tree config).sources, Path.ofText d.file = other.path ↔ other = file
  incomplete : model.isIncomplete ↔ 0 < model.stats.skippedFiles
  halts      : model.diagnostics.countP Diagnostic.isHalt = if model.isIncomplete then 1 else 0

/-- An index that a file is given is its own: the cache has it for the file or the file gives it. -/
theorem own_of_treated {file : SourceFile} {placement : Placement} {index : FileIndex}
    (h : Treated tree cache file placement) (has : placement.index? = some index) :
    index.file = file ∧
      (cache.find (tree.fingerprint file.location) file = some index ∨
        indexOne tree none file = .indexed index) := by
  rcases h.of_index has with ⟨-, found⟩ | ⟨-, new⟩
  · exact ⟨(file_of_find found).1, .inl found⟩
  · exact ⟨(file_of_becomes (.inl new.index.symm)).1, .inr new.index⟩

/-- The diagnostics of a survey before they are settled. -/
def reported (input : ScanInput) (halt : Halt) (placements : List Placement)
    (graph : ReferenceGraph) (conflicts : List Conflict) : List Diagnostic :=
  fileDiagnostics input halt placements ++
    graph.cycles.map (fun cycle => .importCycle (cycle.map Path.text)) ++
    conflicts.filterMap Conflict.diagnostic

section

variable {placements : List Placement}
  (treated : List.Forall₂ (Treated tree cache) (scanInput tree config).sources placements)

include treated in
theorem own_of_mem {index : FileIndex} (there : index ∈ placedFiles placements) :
    index.file ∈ (scanInput tree config).sources ∧
      (cache.find (tree.fingerprint index.file.location) index.file = some index ∨
        indexOne tree none index.file = .indexed index) := by
  obtain ⟨placement, placed, has⟩ := List.mem_filterMap.1 there
  obtain ⟨file, listed, h⟩ := exists_of_forall₂ treated placed
  obtain ⟨rfl, own⟩ := own_of_treated h has
  exact ⟨listed, own⟩

include treated in
theorem pairwise_placedFiles :
    (placedFiles placements).Pairwise fun a b => a.path.order b.path = .lt := by
  have sub := placedFiles_sublist (fun _ _ _ h has => (own_of_treated h has).1) treated
  exact List.pairwise_map.1 ((pairwise_sources tree config).sublist sub)

include treated in
/-- Among the diagnostics of a survey, only that of its halt is one of a halt. -/
theorem eq_haltDiagnostic (sound : tree.Sound) {halt : Halt} {graph : ReferenceGraph}
    {conflicts : List Conflict} {d : Diagnostic}
    (h : d ∈ reported (scanInput tree config) halt placements graph conflicts) (isHalt : d.isHalt) :
    pendingCount placements ≠ 0 ∧ d = haltDiagnostic halt (pendingCount placements) := by
  simp only [reported, fileDiagnostics, List.mem_append, List.mem_map, List.mem_filterMap] at h
  rcases h with (((found | ⟨failure, ⟨placement, placed, has⟩, rfl⟩) | halted) | ⟨cycle, -, rfl⟩) |
    ⟨conflict, -, eq⟩
  -- discovery, the files that failed, the halt itself, import cycles, conflicts
  · exact absurd isHalt (not_isHalt_of_discovery sound found)
  · obtain ⟨file, -, own⟩ := exists_of_forall₂ treated placed
    cases placement with
    | failed =>
        cases has
        exact absurd isHalt own.of_failure.not_isHalt
    | cached => cases has
    | fresh => cases has
    | notStarted => cases has
  · split at halted
    · cases halted
    · rename_i pending
      exact ⟨pending, List.mem_singleton.1 halted⟩
  · exact absurd isHalt (Diagnostic.not_isHalt_of_kind .importCycle rfl (by decide))
  · rw [Conflict.diagnostic] at eq
    split at eq
    · cases eq
      exact absurd isHalt (Diagnostic.not_isHalt_of_kind .ambiguousConflict rfl (by decide))
    · cases eq

include treated in
/-- **A survey reports its halt once**, if it left out files. -/
theorem countP_isHalt (sound : tree.Sound) (halt : Halt) (graph : ReferenceGraph)
    (conflicts : List Conflict) :
    (Diagnostic.settle (reported (scanInput tree config) halt placements graph conflicts)).countP
        Diagnostic.isHalt = if 0 < pendingCount placements then 1 else 0 := by
  have only : ∀ d ∈ reported (scanInput tree config) halt placements graph conflicts, d.isHalt →
      pendingCount placements ≠ 0 ∧ d = haltDiagnostic halt (pendingCount placements) :=
    fun d h isHalt => eq_haltDiagnostic treated sound h isHalt
  split
  · rename_i pending
    have ne : pendingCount placements ≠ 0 := Nat.ne_of_gt pending
    refine Diagnostic.countP_settle_isHalt ?_ (Diagnostic.isHalt_haltDiagnostic halt _)
      fun d h isHalt => (only d h isHalt).2
    simp [reported, fileDiagnostics, ne]
  · rename_i none
    refine List.countP_eq_zero.2 fun d h isHalt => ?_
    exact none (Nat.pos_of_ne_zero (only d (mem_of_mem_sortedSet h) isHalt).1)

include treated in
/-- **A file that failed has its own diagnostic.** -/
theorem diagnostic_of_failed (sound : tree.Sound) {halt : Halt} {graph : ReferenceGraph}
    {conflicts : List Conflict} {file : SourceFile} {failure : Failure}
    (failed : (file, .failed failure) ∈ (scanInput tree config).sources.zip placements) :
    ∃ d ∈ Diagnostic.settle (reported (scanInput tree config) halt placements graph conflicts),
      d.kind = failure.kind ∧ d.reason = failure.message ∧
        ∀ other ∈ (scanInput tree config).sources,
          Path.ofText d.file = other.path ↔ other = file := by
  obtain ⟨listed, placed⟩ := List.of_mem_zip failed
  -- the failure names the file it is placed for, whose path reads back from its text
  have subject := (List.forall₂_zip treated failed).of_failure.subject
  have there : Diagnostic.ofFailure failure ∈
      reported (scanInput tree config) halt placements graph conflicts := by
    simp only [reported, fileDiagnostics, List.mem_append, List.mem_map, List.mem_filterMap]
    exact .inl (.inl (.inl (.inr ⟨failure, ⟨_, placed, rfl⟩, rfl⟩)))
  obtain ⟨d, settled, path, kind, reason⟩ := Diagnostic.exists_mem_settle there
  rw [subject, ofText_source sound listed] at path
  refine ⟨d, settled, kind.symm, reason.symm, fun other others => ?_⟩
  rw [← path]
  -- different files lie at different paths
  exact ⟨fun same => List.inj_on_of_nodup_map (scanInput_found tree config).distinct others listed
    same.symm, fun same => same ▸ rfl⟩

end

/-! ### Main result -/

/-- **Whatever the workers say about the files, no file is lost and none is taken for another.** For
every cache, number of workers and pattern of answers, each file in turn is treated as the cache or
its worker says, a survey gives a model exactly if nothing leaves its range, and the model accounts
for every file. -/
theorem survey_accounts (sound : tree.Sound) (answered : Answered tree config cache workers runs)
    (halt : Halt) :
    let placements := placementsOf tree config cache runs.flatten
    let survey := assemble (scanInput tree config) halt placements
    List.Forall₂ (Treated tree cache) (scanInput tree config).sources placements ∧
      (survey.isSome ↔ InRange (scanInput tree config) (placedFiles placements)) ∧
      ∀ model, survey = some model → Accounts tree config cache placements model := by
  intro placements survey
  have treated := forall₂_treated answered
  refine ⟨treated, isSome_assemble, fun model assembled => ?_⟩
  obtain ⟨conflicts, -, h⟩ := Option.bind_eq_some_iff.1 assembled
  obtain ⟨dead, -, rfl⟩ := Option.map_eq_some_iff.1 h
  exact
    { ordered    := pairwise_placedFiles treated
      own        := fun index => own_of_mem treated
      found      := rfl
      indexed    := rfl
      total      := treated.length_eq.trans (length_placements placements)
      cached     := countP_isCached_le placements
      failures   := fun file failure => diagnostic_of_failed treated sound
      incomplete := decide_eq_true_iff
      halts      := by
        simp only [decide_eq_true_eq]
        exact countP_isHalt treated sound halt _ conflicts }

/-! ### A survey that is stopped -/

/-- Four modules, the third of which does not parse. -/
def mixedTree : FileTree :=
  .ofTexts [("a.py", "x = 1\n"), ("b.py", "def f(): pass\n"), ("c.py", "("), ("d.py", "y = 2\n")]

/-- The four modules as source files. -/
def mixedSources : List SourceFile :=
  [textModule "a.py" "x = 1\n", textModule "b.py" "def f(): pass\n", textModule "c.py" "(",
    textModule "d.py" "y = 2\n"]

/-- A cache that has the index of the first of them. -/
def cacheOfFirst (index : FileIndex) : ScanCache :=
  { entries := [((textModule "a.py" "x = 1\n").location, ⟨⟨6, 0⟩, index⟩)] }

theorem sound_mixedTree : mixedTree.Sound :=
  FileTree.sound_ofTexts (by decide) (by decide)

theorem slots_mixedTree {index : FileIndex} (own : index.file = textModule "a.py" "x = 1\n") :
    cachedSlots mixedTree (cacheOfFirst index) mixedSources = [some index, none, none, none] := by
  have found : (cacheOfFirst index).find
      (mixedTree.fingerprint (textModule "a.py" "x = 1\n").location)
      (textModule "a.py" "x = 1\n") = some index := by
    rw [ScanCache.find, cacheOfFirst, List.lookup_cons_self, Option.bind_some, if_pos ⟨rfl, own⟩]
  rw [cachedSlots, mixedSources, List.map_cons, found]
  rfl

theorem sources_mixedTree : (scanInput mixedTree plainConfig).sources = mixedSources := by
  rw [mixedTree, sources_ofTexts sound_mixedTree (by decide) rfl]
  rfl

/-- Two workers who are stopped before the last file: what is not in the cache is three files, and
half of three is one, so that every run has one. -/
theorem answered_mixedTree {index second : FileIndex} {failure : Failure}
    (own : index.file = textModule "a.py" "x = 1\n")
    (fresh : indexOne mixedTree none (textModule "b.py" "def f(): pass\n") = .indexed second)
    (fails : indexOne mixedTree none (textModule "c.py" "(") = .failed failure) :
    Answered mixedTree plainConfig (cacheOfFirst index) 2
      [[.indexed second], [.failed failure], [.notStarted]] := by
  have pending : pendingFiles mixedSources [some index, none, none, none] =
      [textModule "b.py" "def f(): pass\n", textModule "c.py" "(", textModule "d.py" "y = 2\n"] :=
    rfl
  have runs : ∀ b c d : SourceFile, inRuns ([b, c, d].length / 2 - 1) [b, c, d] =
      [[b], [c], [d]] := by
    simp [inRuns]
  rw [Answered, sources_mixedTree, slots_mixedTree own, pending, runs]
  exact .cons (.cons (.taken fresh) .nil) (.cons (.cons (.taken fails) .nil)
    (.cons (.cons .notStarted .nil) .nil))

theorem placementsOf_mixedTree {index : FileIndex} (second : FileIndex) (failure : Failure)
    (own : index.file = textModule "a.py" "x = 1\n") :
    placementsOf mixedTree plainConfig (cacheOfFirst index)
      [[.indexed second], [.failed failure], [.notStarted]].flatten =
        [.cached index, .fresh second, .failed failure, .notStarted] := by
  rw [placementsOf, sources_mixedTree, slots_mixedTree own]
  rfl

/-- A survey of four files by two workers: the index of the first is in the cache, that of the
second is new, the third does not parse, and the survey is stopped before the fourth. -/
theorem survey_accounts_mixed : ∃ kept fresh failure model,
    indexOne mixedTree none (textModule "a.py" "x = 1\n") = .indexed kept ∧
      indexOne mixedTree none (textModule "b.py" "def f(): pass\n") = .indexed fresh ∧
      indexOne mixedTree none (textModule "c.py" "(") = .failed failure ∧
      mixedTree.Sound ∧
      Answered mixedTree plainConfig (cacheOfFirst kept) 2
        [[.indexed fresh], [.failed failure], [.notStarted]] ∧
      assemble (scanInput mixedTree plainConfig) .stopped
        (placementsOf mixedTree plainConfig (cacheOfFirst kept)
          [[.indexed fresh], [.failed failure], [.notStarted]].flatten) = some model ∧
      Accounts mixedTree plainConfig (cacheOfFirst kept)
        [.cached kept, .fresh fresh, .failed failure, .notStarted] model ∧
      model.files = [kept, fresh] ∧ model.stats.cachedFiles = 1 ∧ model.stats.failedFiles = 1 ∧
      model.stats.skippedFiles = 1 ∧ model.isIncomplete := by
  have read : ∃ kept fresh failure,
      indexSource (textModule "a.py" "x = 1\n") "x = 1\n" = .ok kept ∧
        indexSource (textModule "b.py" "def f(): pass\n") "def f(): pass\n" = .ok fresh ∧
        indexSource (textModule "c.py" "(") "(" = .error failure ∧
        kept.file = textModule "a.py" "x = 1\n" ∧
        ((mixedSources.filterMap (moduleCandidate (buildGraph [kept, fresh]))).map
          fun c => c.fileCount + c.inbound).sum ≤ greatestCount ∧
        ∀ index ∈ [kept, fresh], ∀ symbol ∈ index.symbols, isCandidate index.file symbol →
          (score (.ofSymbol symbol ((buildGraph [kept, fresh]).usage symbol.id) index.file.isTest)
            plainConfig.analysis.weights).isSome :=
    ⟨_, _, _, rfl, rfl, rfl, rfl, by decide +kernel⟩
  obtain ⟨kept, fresh, failure, readFirst, readSecond, readThird, own, few, scores⟩ := read
  have first : indexOne mixedTree none (textModule "a.py" "x = 1\n") = .indexed kept := by
    rw [indexOne_of_text "x = 1\n" rfl rfl, readFirst]
  have second : indexOne mixedTree none (textModule "b.py" "def f(): pass\n") = .indexed fresh := by
    rw [indexOne_of_text "def f(): pass\n" rfl rfl, readSecond]
  have third : indexOne mixedTree none (textModule "c.py" "(") = .failed failure := by
    rw [indexOne_of_text "(" rfl rfl, readThird]
  have answered := answered_mixedTree own second third
  have placed := placementsOf_mixedTree fresh failure own
  obtain ⟨-, range, accounts⟩ := survey_accounts sound_mixedTree answered .stopped
  rw [placed] at range accounts
  have root : ∀ file ∈ (scanInput mixedTree plainConfig).sources,
      ∃ name, file.path = .ofNames [name] := by
    rw [sources_mixedTree]
    simp [mixedSources, textModule, Path.ofNames]
  obtain ⟨model, surveyed⟩ := Option.isSome_iff_exists.1
    (range.2 (inRange_of_root root (by rwa [sources_mixedTree]) scores))
  obtain ⟨files, stats, incomplete⟩ := of_assemble surveyed
  refine ⟨kept, fresh, failure, model, first, second, third, sound_mixedTree, answered,
    placed ▸ surveyed, accounts model surveyed, files, ?_, ?_, ?_, incomplete⟩
  all_goals rw [stats]; rfl

end CodeSurvey
