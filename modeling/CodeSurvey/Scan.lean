import CodeSurvey.Cache
import CodeSurvey.Conflict
import CodeSurvey.DeadCode.Report
import CodeSurvey.Discovery
import CodeSurvey.Index.File

/-!
# Surveys

Finds the files of a project, indexes them, and puts together what the indexes say.

Files that the cache serves are not indexed again. The others are shared out among the workers in
runs of neighbours, and a worker gives one outcome a file: an index, a failure, or nothing when the
survey was stopped before the file was taken up. The outcomes are put back in the order of the
files.

* `placeOutcomes` gives each file what the cache or a worker found for it.
* `assemble` makes the model of a project from that, whatever the outcomes are.
* `scan` is a whole survey.
-/

namespace CodeSurvey

/-! ### Outcomes -/

/-- What a worker says about a file. -/
inductive IndexOutcome where
  | indexed (index : FileIndex)
  | failed (failure : Failure)
  | notStarted

/-- What became of a file. -/
inductive Placement where
  | cached (index : FileIndex)
  | fresh (index : FileIndex)
  | failed (failure : Failure)
  | notStarted

namespace Placement

/-- The index of a file that has one. -/
def index? : Placement → Option FileIndex
  | cached index | fresh index => some index
  | _                          => none

/-- Why a file has no index, if the file is at fault. -/
def failure? : Placement → Option Failure
  | failed failure => some failure
  | _              => none

/-- Whether the index came from the cache. -/
def isCached : Placement → Bool
  | cached _ => true
  | _        => false

/-- Whether the survey was stopped before the file. -/
def isNotStarted : Placement → Bool
  | notStarted => true
  | _          => false

/-- What an outcome makes of a file. -/
def ofOutcome : IndexOutcome → Placement
  | .indexed index  => fresh index
  | .failed failure => failed failure
  | .notStarted     => notStarted

end Placement

/-- Gives each file in order what the cache found for it, and the other files the outcomes in
order. A file without an outcome was not started. -/
def placeOutcomes : List (Option FileIndex) → List IndexOutcome → List Placement
  | [], _                           => []
  | some index :: slots, outcomes   => .cached index :: placeOutcomes slots outcomes
  | none :: slots, []               => .notStarted :: placeOutcomes slots []
  | none :: slots, outcome :: later => .ofOutcome outcome :: placeOutcomes slots later

/-! ### Workers -/

/-- A list cut into runs of `size + 1` items, the last of which may be shorter. -/
def inRuns {α : Type} (size : Nat) : List α → List (List α)
  | []            => []
  | item :: items => (item :: items.take size) :: inRuns size (items.drop size)
termination_by items => items.length

/-- Why files can be left without an outcome. -/
inductive Halt where
  /-- Somebody asked the survey to stop. -/
  | stopped
  /-- The time for the survey, in milliseconds, is over. -/
  | expired (elapsed : Nat)
deriving DecidableEq

/-- The outcome of a file, which is taken up unless the survey has been halted. -/
def indexOne (tree : FileTree) (halt : Option Halt) (file : SourceFile) : IndexOutcome :=
  if halt.isSome then .notStarted
  else
    match indexBytes file ((tree.read file.location).mapError OsError.text) with
    | .ok index      => .indexed index
    | .error failure => .failed failure

/-- The outcomes of files shared out among workers. -/
def indexFiles (tree : FileTree) (halt : Option Halt) (workers : Nat) (files : List SourceFile) :
    List IndexOutcome :=
  (inRuns (files.length / workers - 1) files).flatMap fun run => run.map (indexOne tree halt)

/-! ### The model -/

/-- A survey in numbers. -/
structure ScanStats where
  discoveredFiles : Nat
  indexedFiles    : Nat
  cachedFiles     : Nat
  failedFiles     : Nat
  skippedFiles    : Nat
  testFiles       : Nat
  totalSize       : Nat
  totalLines      : Nat
  totalSymbols    : Nat
  totalReferences : Nat
  languages       : List (String × Nat)
deriving DecidableEq

/-- All that a survey found. The indexed files are in path order. -/
structure ProjectModel where
  name         : String
  root         : String
  files        : List FileIndex
  graph        : ReferenceGraph
  conflicts    : List Conflict
  deadCode     : DeadCodeReport
  diagnostics  : List Diagnostic
  stats        : ScanStats
  isIncomplete : Bool

/-- The index of the file with a path. -/
def ProjectModel.file (model : ProjectModel) (path : Path) : Option FileIndex :=
  model.files.find? fun index => index.path = path

/-- The diagnostic of a survey that left out some files. -/
def haltDiagnostic (halt : Halt) (pending : Nat) : Diagnostic :=
  match halt with
  | .expired elapsed => .ofFailure (.timeout elapsed pending)
  | .stopped         => .skipped "." s!"scan cancelled with {pending} files not indexed"

/-- What a survey starts from: how it is configured, the name of the project, its files in path
order, and what their discovery had to say. -/
structure ScanInput where
  config      : Config
  name        : String
  sources     : List SourceFile
  diagnostics : List Diagnostic

section

variable (input : ScanInput) (halt : Halt) (placements : List Placement)

/-- The indexes that a survey has. -/
def placedFiles : List FileIndex :=
  placements.filterMap Placement.index?

/-- How many files were not started. -/
def pendingCount : Nat :=
  placements.countP Placement.isNotStarted

/-- The diagnostics of discovery and of the files. -/
def fileDiagnostics : List Diagnostic :=
  let pending := pendingCount placements
  input.diagnostics ++ (placements.filterMap Placement.failure?).map .ofFailure ++
    if pending = 0 then [] else [haltDiagnostic halt pending]

/-- The survey in numbers. -/
def statsOf (graph : ReferenceGraph) : ScanStats :=
  let files := placedFiles placements
  let found := fileStats input.sources
  { discoveredFiles := input.sources.length
    indexedFiles    := files.length
    cachedFiles     := placements.countP Placement.isCached
    failedFiles     := placements.countP fun p => p.failure?.isSome
    skippedFiles    := pendingCount placements
    testFiles       := found.testFiles
    totalSize       := found.totalSize
    totalLines      := (files.map FileIndex.lineCount).foldr (· + ·) 0
    totalSymbols    := (files.map fun f => f.symbols.length).foldr (· + ·) 0
    totalReferences := graph.references.length
    languages       := found.languages }

/-- The model of a project whose files have been placed, unless a count or a score leaves its
range. -/
def assemble : Option ProjectModel :=
  let files := placedFiles placements
  let graph := buildGraph files
  (detectConflicts (conflictCandidates input.sources graph)).bind fun conflicts =>
    (deadCode input.config.analysis.confidenceThreshold input.config.analysis.weights files
      graph).map fun dead =>
        { name         := input.name
          root         := input.config.targetDirectory
          files, graph, conflicts
          deadCode     := dead
          diagnostics  := Diagnostic.settle
            (fileDiagnostics input halt placements ++
              graph.cycles.map (fun cycle => .importCycle (cycle.map Path.text)) ++
              conflicts.filterMap Conflict.diagnostic)
          stats        := statsOf input placements graph
          isIncomplete := decide (0 < pendingCount placements) }

end

/-! ### Surveys -/

/-- The name of a project: that of its directory, as it is or else as it is spelled. -/
def projectName (tree : FileTree) (root : String) : String :=
  let actual :=
    match tree.statText root with
    | .ok (place, _) => place.getLast?
    | .error _       => none
  (actual.or (Path.ofText root).fileName).getD "project"

/-- The files of a project in path order, and what their discovery had to say. -/
def scanInput (tree : FileTree) (config : Config) : ScanInput :=
  let (found, diagnostics) := (discoveryFor tree config).run tree
  { config
    name    := projectName tree config.targetDirectory
    sources := sortBy (fun a b => a.path.order b.path) found
    diagnostics }

/-- What the cache has for some files. -/
def cachedSlots (tree : FileTree) (cache : ScanCache) (sources : List SourceFile) :
    List (Option FileIndex) :=
  sources.map fun file => cache.find (tree.fingerprint file.location) file

/-- The files that the cache has nothing for. -/
def pendingFiles (sources : List SourceFile) (slots : List (Option FileIndex)) : List SourceFile :=
  (sources.zip slots).filterMap fun (file, slot) => if slot.isNone then some file else none

/-- The cache after a survey: it has the new indexes and has forgotten the files that are gone. -/
def updateCache (tree : FileTree) (cache : ScanCache) (sources : List SourceFile)
    (placements : List Placement) : ScanCache :=
  let filled := (sources.zip placements).foldl (fun c (file, placement) =>
    match placement with
    | .fresh index => c.insert (tree.fingerprint file.location) file.location index
    | _            => c) cache
  filled.retain (sources.map SourceFile.location)

/-- Why a survey is halted before its first file, if it is: no time is over at once. -/
def haltAtStart (config : Config) (stop : Bool) : Option Halt :=
  if config.analysis.scanTimeout = some 0 then some (.expired 0)
  else if stop then some .stopped else none

/-- A survey with a cache that outlives it. -/
def scan (tree : FileTree) (config : Config) (stop : Bool) (cache : ScanCache) :
    Option ProjectModel × ScanCache :=
  let input := scanInput tree config
  let halt := haltAtStart config stop
  let slots := cachedSlots tree cache input.sources
  let outcomes := indexFiles tree halt (config.analysis.threads.getD 1)
    (pendingFiles input.sources slots)
  let placements := placeOutcomes slots outcomes
  (assemble input (halt.getD .stopped) placements,
   updateCache tree (cache.count slots) input.sources placements)

/-- A survey that starts from nothing. -/
def scanOnce (tree : FileTree) (config : Config) : Option ProjectModel :=
  (scan tree config false {}).1

end CodeSurvey
