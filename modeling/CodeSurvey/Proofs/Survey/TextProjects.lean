import CodeSurvey.Proofs.Conflict.Grouping
import CodeSurvey.Proofs.FileTree.Writing
import CodeSurvey.Proofs.Survey.Apart
import Mathlib.Algebra.Order.BigOperators.Group.List

/-!
# Projects of texts

The smallest projects are texts in one directory. What a survey makes of such a project can be told
from their names and contents alone.

* `FileTree.ofTexts`: the file tree of such a project.
* `sources_ofTexts`: the survey takes up the texts in the order of their names.
* `indexOne_of_text`: a text gives its index, or fails where it does not parse.
* `conflictCandidates_of_root`: only its modules can have names in conflict.
* `countsFit_of_sum_le`: in a small project no count leaves its range.
-/

namespace CodeSurvey

namespace FileTree

/-- Texts in one directory, by their names, none of them ever changed. -/
def ofTexts (files : List (String × String)) : FileTree :=
  flat (files.map fun f => (f.1, .file (String.toUTF8 f.2) 0)) 0

variable {files : List (String × String)}

theorem names_ofTexts :
    (files.map fun f => (f.1, FileEntry.file (String.toUTF8 f.2) 0)).map Prod.fst =
      files.map Prod.fst := by
  rw [List.map_map]
  rfl

/-- The tree of texts with different names is sound. -/
theorem sound_ofTexts (named : ∀ f ∈ files, IsName f.1) (distinct : (files.map Prod.fst).Nodup) :
    (ofTexts files).Sound := by
  refine sound_flat (fun e there => ?_) (names_ofTexts ▸ distinct) 0
  obtain ⟨f, listed, rfl⟩ := List.mem_map.1 there
  exact named f listed

theorem linkless_ofTexts : (ofTexts files).Linkless := by
  intro place target there
  obtain ⟨e, listed, eq⟩ := List.mem_map.1 there
  obtain ⟨f, -, rfl⟩ := List.mem_map.1 listed
  cases (Prod.mk.inj eq).2

/-- Every text lies under its name. -/
theorem entryAt_ofTexts (sound : (ofTexts files).Sound) {f : String × String}
    (listed : f ∈ files) :
    (ofTexts files).entryAt [f.1] = some (.file (String.toUTF8 f.2) 0) := by
  rw [entryAt_of_ne_nil (List.cons_ne_nil _ _)]
  exact lookup_of_mem sound.distinct
    (List.mem_map.2 ⟨(f.1, _), List.mem_map.2 ⟨f, listed, rfl⟩, rfl⟩)

end FileTree

/-! ### Sources -/

section

variable {files : List (String × String)} {config : Config}

/-- Paths of one name are in the order of the names. -/
theorem order_ofNames_singleton (a b : String) :
    (Path.ofNames [a]).order (.ofNames [b]) = compare a b := by
  show ((compare 3 3).then (compare a b)).then .eq = compare a b
  cases compare a b <;> rfl

theorem exists_depthBound (tree : FileTree) : ∃ fuel, Discovery.depthBound tree = fuel + 1 :=
  Nat.exists_eq_succ_of_ne_zero (Nat.mul_pos (Nat.succ_pos _) (Nat.succ_pos _)).ne'

/-- What discovery makes of a file in the root. -/
def Discovery.rootSource (discovery : Discovery) (name text : String) : Option SourceFile :=
  (discovery.fileEntry [name] (String.toUTF8 text).size).bind Discovered.source?

theorem Discovery.path_of_rootSource {discovery : Discovery} {name text : String}
    {source : SourceFile} (h : discovery.rootSource name text = some source) :
    source.path = .ofNames [name] := by
  obtain ⟨met, entry, eq⟩ := Option.bind_eq_some_iff.1 h
  cases met with
  | skipped => cases eq
  | file found =>
      cases eq
      exact (discovery.file_of_fileEntry entry).2.1

/-- **The survey takes up the texts in the order of their names**, those that the configuration
takes for source files. -/
theorem sources_ofTexts (sound : (FileTree.ofTexts files).Sound)
    (sorted : (files.map Prod.fst).Pairwise fun a b => compare a b = .lt)
    (root : (FileTree.ofTexts files).locate (.ofText config.targetDirectory) =
      .ok ([], some .directory)) :
    (scanInput (FileTree.ofTexts files) config).sources = files.filterMap fun f =>
      (discoveryFor (FileTree.ofTexts files) config).rootSource f.1 f.2 := by
  have names : (FileTree.ofTexts files).namesIn [] = files.map Prod.fst := by
    rw [FileTree.ofTexts, FileTree.namesIn_flat 0 (FileTree.names_ofTexts ▸ sorted),
      FileTree.names_ofTexts]
  obtain ⟨fuel, deep⟩ := exists_depthBound (FileTree.ofTexts files)
  have found : Discovery.sources ((discoveryFor (FileTree.ofTexts files) config).walk
      (FileTree.ofTexts files)) = files.filterMap fun f =>
        (discoveryFor (FileTree.ofTexts files) config).rootSource f.1 f.2 := by
    rw [walk_of_directory root rfl, deep, Discovery.walkFrom_succ, names,
      Discovery.sources_flatMap, List.flatMap_map, List.filterMap_eq_flatMap_toList]
    refine List.flatMap_congr fun f listed => ?_
    rw [Discovery.meet_file _ _ (FileTree.entryAt_ofTexts sound listed), Discovery.rootSource,
      Discovery.sources, List.nil_append]
    rcases (discoveryFor (FileTree.ofTexts files) config).fileEntry _ _ with _ | _ | _ <;> rfl
  refine (congrArg (sortBy _) found).trans (sortBy_of_pairwise (List.pairwise_filterMap.2 ?_))
  refine (List.pairwise_map.1 sorted).imp fun before a ha b hb => ?_
  rw [Discovery.path_of_rootSource ha, Discovery.path_of_rootSource hb, order_ofNames_singleton,
    before]
  rfl

end

/-! ### Indexes -/

/-- **A text gives its index, or fails where it does not parse.** -/
theorem indexOne_of_text {tree : FileTree} {file : SourceFile} (text : String)
    (python : file.language = .python) (read : tree.read file.location = .ok (String.toUTF8 text)) :
    indexOne tree none file =
      match indexSource file text with
      | .ok index      => .indexed index
      | .error failure => .failed failure := by
  have content : indexBytes file ((tree.read file.location).mapError OsError.text) =
      indexSource file text := by
    rw [read, Except.mapError, indexBytes, if_neg (not_not.2 python)]
    simp only [FileTree.decode_toUTF8]
  exact congrArg (fun answer : Except Failure FileIndex =>
    match answer with
    | .ok index      => IndexOutcome.indexed index
    | .error failure => .failed failure) content

/-! ### Conflicts -/

/-- In a project without directories only the modules can have names in conflict. -/
theorem conflictCandidates_of_root {sources : List SourceFile} (graph : ReferenceGraph)
    (root : ∀ file ∈ sources, ∃ name, file.path = .ofNames [name]) :
    conflictCandidates sources graph = sources.filterMap (moduleCandidate graph) := by
  have none : sources.flatMap (fun file => file.path.ancestors) = [] := by
    refine List.flatMap_eq_nil_iff.2 fun file there => ?_
    obtain ⟨name, path⟩ := root file there
    rw [path]
    rfl
  rw [conflictCandidates, directoriesOf, none, sortedSet_nil]
  rfl

/-- **In a small project no count leaves its range.** -/
theorem countsFit_of_sum_le {candidates : List Candidate}
    (few : (candidates.map fun c => c.fileCount + c.inbound).sum ≤ greatestCount) :
    CountsFit candidates := by
  have weights : ∀ name, weightNamed candidates name ≤ greatestCount := by
    intro name
    refine le_trans ?_ few
    rw [weightNamed, filesNamed, inboundNamed, List.sum_map_add]
    exact Nat.add_le_add ((List.filter_sublist.map _).sum_le_sum fun _ _ => Nat.zero_le _)
      ((List.filter_sublist.map _).sum_le_sum fun _ _ => Nat.zero_le _)
  refine ⟨fun c _ => ?_, fun a _ _ _ _ _ _ _ => weights a.name⟩
  have both := weights c.name
  rw [weightNamed] at both
  omega

/-- **A small project without directories has a model**, if every symbol that may be reported has a
score. -/
theorem inRange_of_root {input : ScanInput} {files : List FileIndex}
    (root : ∀ file ∈ input.sources, ∃ name, file.path = .ofNames [name])
    (few : ((input.sources.filterMap (moduleCandidate (buildGraph files))).map fun c =>
      c.fileCount + c.inbound).sum ≤ greatestCount)
    (scores : ∀ index ∈ files, ∀ symbol ∈ index.symbols, isCandidate index.file symbol →
      (score (.ofSymbol symbol ((buildGraph files).usage symbol.id) index.file.isTest)
        input.config.analysis.weights).isSome) :
    InRange input files := by
  refine ⟨isSome_detectConflicts.2 (countsFit_of_sum_le ?_), scores⟩
  rw [conflictCandidates_of_root _ root]
  exact few

/-- A configuration without patterns. -/
def plainConfig : Config :=
  { excludePatterns := [], analysis := { testFilePatterns := [] } }

/-- A module with a text at the root of a project. -/
def textModule (name text : String) : SourceFile :=
  { location := ⟨[.here, .name name]⟩
    path     := .ofNames [name]
    size     := (String.toUTF8 text).size
    language := .python
    isTest   := false }

end CodeSurvey
