import CodeSurvey.Proofs.Conflict.Grouping
import CodeSurvey.Proofs.Document.Truncation
import CodeSurvey.Proofs.Graph.Dependencies

/-!
# What the page lists

The lines of the project page name modules by their paths. Which text of a line is a path cannot be
read off it, so the lines are written out in pieces here, words and paths, and `spell` puts them
together.

* `spell_architecture` and the like: the lines of the page are spelled from such pieces, and
  `listed_architecture` and the like say which paths they list.
* `PageSection` are the sections that list modules, and `projectLines_eq` says that the page is made
  of them.
* `not_listed`: a module that is left out is listed in no section but that of the conflicts, whose
  lines stay as they are.
* `page_lists`: which modules the page lists, and what it says of those that are not left out.
-/

namespace CodeSurvey

/-! ### Pieces of a line -/

/-- A piece of a line: words, or a path. -/
inductive LinePiece where
  | words (text : String)
  | path (place : Path)

namespace LinePiece

/-- How a piece is written. -/
def text : LinePiece → String
  | .words text => text
  | .path place => place.slash

/-- The path that a piece is. -/
def path? : LinePiece → Option Path
  | .words _    => none
  | .path place => some place

end LinePiece

/-- The line that pieces make. -/
def spell (line : List LinePiece) : String :=
  String.join (line.map LinePiece.text)

/-- The paths that a line lists. -/
def listed (line : List LinePiece) : List Path :=
  line.filterMap LinePiece.path?

/-- Lines in a row, with words between them. -/
def joined (separator : String) : List (List LinePiece) → List LinePiece
  | []                   => []
  | [line]               => line
  | line :: next :: rest => line ++ .words separator :: joined separator (next :: rest)

/-- Paths in a row, with words between them. -/
def separated (separator : String) (paths : List Path) : List LinePiece :=
  joined separator (paths.map fun path => [.path path])

@[simp] theorem spell_nil : spell [] = "" := rfl

@[simp] theorem spell_cons (piece : LinePiece) (line : List LinePiece) :
    spell (piece :: line) = piece.text ++ spell line := by
  simp [spell, String.join_cons]

/-- The pieces of a line are spelled one after another. -/
@[simp] theorem spell_append (a b : List LinePiece) : spell (a ++ b) = spell a ++ spell b := by
  simp [spell, String.join_append]

@[simp] theorem listed_nil : listed [] = [] := rfl

@[simp] theorem listed_words (text : String) (line : List LinePiece) :
    listed (.words text :: line) = listed line := rfl

@[simp] theorem listed_path (path : Path) (line : List LinePiece) :
    listed (.path path :: line) = path :: listed line := rfl

/-- What two lines list, both together list. -/
@[simp] theorem listed_append (a b : List LinePiece) : listed (a ++ b) = listed a ++ listed b :=
  List.filterMap_append

/-- Lines joined with a separator are spelled with it between them. -/
theorem spell_joined (separator : String) : ∀ lines : List (List LinePiece),
    spell (joined separator lines) = String.intercalate separator (lines.map spell)
  | []                   => rfl
  | [line]               => by rw [joined, List.map_singleton, String.intercalate_singleton]
  | line :: next :: rest => by
      rw [joined, spell_append, spell_cons, spell_joined separator (next :: rest), List.map_cons,
        List.map_cons, List.map_cons, String.intercalate_cons_cons, String.append_assoc]
      rfl

/-- The separator lists nothing. -/
theorem listed_joined (separator : String) : ∀ lines : List (List LinePiece),
    listed (joined separator lines) = lines.flatMap listed
  | []                   => rfl
  | [line]               => by rw [joined, List.flatMap_singleton]
  | line :: next :: rest => by
      rw [joined, listed_append, listed_words, listed_joined separator (next :: rest)]
      rfl

theorem spell_separated (separator : String) (paths : List Path) :
    spell (separated separator paths) = String.intercalate separator (paths.map Path.slash) := by
  have each : ∀ path : Path, spell [.path path] = path.slash := by simp [LinePiece.text]
  simp only [separated, spell_joined, List.map_map, Function.comp_def, each]

/-- Paths with a separator between them are listed in their order. -/
theorem listed_separated (separator : String) (paths : List Path) :
    listed (separated separator paths) = paths := by
  rw [separated, listed_joined, List.flatMap_map]
  simp

/-! ### The lines of the page -/

namespace ListedModule

/-- The pieces of the line of a module among the modules. -/
def architecturePieces (module : ListedModule) : List LinePiece :=
  [.words "- ", .path module.path] ++
    if module.dependencies.isEmpty then []
    else .words " [@deps: " :: separated ", " module.dependencies ++ [.words "]"]

/-- The pieces of the line of a module among the imports, if it imports anything. -/
def dependencyPieces (module : ListedModule) : Option (List LinePiece) :=
  if module.dependencies.isEmpty then none
  else some ([.path module.path, .words " -> "] ++ separated ", " module.dependencies)

variable (module : ListedModule)

/-- The pieces of a module spell its line. -/
theorem spell_architecture : spell module.architecturePieces = module.architectureLine := by
  rw [architecturePieces, architectureLine]
  split
  · simp [LinePiece.text, toString]
  · simp [LinePiece.text, toString, spell_separated, dependencyList, String.append_assoc]

/-- The line of a module lists it, and then what it imports. -/
theorem listed_architecture :
    listed module.architecturePieces = module.path :: module.dependencies := by
  rw [architecturePieces]
  split
  · rename_i none
    simp [List.isEmpty_iff.1 none]
  · simp [listed_separated]

theorem spell_dependency : module.dependencyPieces.map spell = module.dependencyLine := by
  rw [dependencyPieces, dependencyLine]
  split
  · rfl
  · simp [LinePiece.text, toString, spell_separated, dependencyList, String.append_assoc]

/-- So does its line in the graph, if it has one. -/
theorem listed_dependency {line : List LinePiece} (h : module.dependencyPieces = some line) :
    listed line = module.path :: module.dependencies := by
  rw [dependencyPieces] at h
  split at h
  · cases h
  · cases h
    simp [listed_separated]

end ListedModule

/-- The pieces of paths with arrows between them. -/
def arrowPieces (paths : List Path) : List LinePiece :=
  .words "- " :: separated " -> " paths

theorem spell_arrow (paths : List Path) : spell (arrowPieces paths) = arrowLine paths := by
  rw [arrowPieces, spell_cons, spell_separated]
  rfl

/-- A chain lists its modules in their order. -/
theorem listed_arrow (paths : List Path) : listed (arrowPieces paths) = paths := by
  rw [arrowPieces, listed_words, listed_separated]

namespace ConflictMember

/-- The pieces of a member as it is listed. -/
def pieces (member : ConflictMember) : List LinePiece :=
  .words s!"{member.name} (" :: separated ", " (member.paths.map Path.ofText) ++ [.words ")"]

/-- The pieces of a member spell how it is listed. -/
theorem spell_pieces (member : ConflictMember) : spell member.pieces = listMember member := by
  simp [pieces, listMember, LinePiece.text, toString, spell_separated, String.append_assoc,
    Function.comp_def]

/-- A member lists the paths of its name. -/
theorem listed_pieces (member : ConflictMember) :
    listed member.pieces = member.paths.map Path.ofText := by
  simp [pieces, listed_separated]

end ConflictMember

namespace Conflict

/-- The pieces of what is said about a conflict. -/
def issuePieces (conflict : Conflict) : List LinePiece :=
  let members := joined " vs " (conflict.members.map ConflictMember.pieces)
  match conflict.suggestedPrimary with
  | some primary =>
    .words "similar names " :: members ++ [.words s!"; consolidate into '{primary}'"]
  | none         =>
    .words s!"{conflict.members.length} names normalize to '{conflict.key}': " :: members

/-- The pieces of the line of a conflict. -/
def pieces (conflict : Conflict) : List LinePiece :=
  let members := String.intercalate ", " conflict.memberNames
  let primary := conflict.suggestedPrimary.getD "none"
  .words "- \x7bissue: " :: conflict.issuePieces ++
    [.words (s!", members: [{members}], suggested_primary: {primary}, " ++
      s!"severity: {conflict.severity.label}\x7d")]

variable (conflict : Conflict)

/-- The pieces of an issue spell what the conflict says. -/
theorem spell_issuePieces : spell conflict.issuePieces =
    issueText conflict.key (conflict.members.map listMember) conflict.suggestedPrimary := by
  have members : (conflict.members.map ConflictMember.pieces).map spell =
      conflict.members.map listMember := by
    rw [List.map_map]
    exact List.map_congr_left fun member _ => member.spell_pieces
  rw [issuePieces, issueText.eq_def]
  cases conflict.suggestedPrimary with
  | some primary =>
      simp [LinePiece.text, toString, spell_joined, members, String.append_assoc]
  | none =>
      simp [LinePiece.text, toString, spell_joined, members, String.append_assoc]

/-- So do those of a conflict, if its issue is made from its members. -/
theorem spell_pieces (issue : conflict.issue =
      issueText conflict.key (conflict.members.map listMember) conflict.suggestedPrimary) :
    spell conflict.pieces = conflictLine conflict := by
  -- not by `rw`, which would derive an equation for the whole line first
  delta conflictLine
  rw [issue, ← spell_issuePieces]
  simp [pieces, LinePiece.text, toString, String.append_assoc]

/-- **A conflict lists every path of its members**, whatever has been left out. -/
theorem listed_pieces : listed conflict.pieces =
    conflict.members.flatMap fun member => member.paths.map Path.ofText := by
  have members : listed (joined " vs " (conflict.members.map ConflictMember.pieces)) =
      conflict.members.flatMap fun member => member.paths.map Path.ofText := by
    rw [listed_joined, List.flatMap_map]
    simp only [ConflictMember.listed_pieces]
  rw [pieces, issuePieces.eq_def]
  cases conflict.suggestedPrimary with
  | some primary => simp [members]
  | none => simp [members]

end Conflict

/-! ### The sections of the page -/

/-- The sections of the page that list modules. -/
inductive PageSection where
  | architecture
  | dependencyGraph
  | conflicts
  | cycles
  | criticalPaths
deriving DecidableEq

namespace PageSection

/-- The header of a section. -/
def header : PageSection → String
  | architecture    => "@architecture:"
  | dependencyGraph => "@dependency_graph:"
  | conflicts       => "@conflicts:"
  | cycles          => "@cycles:"
  | criticalPaths   => "@critical_paths:"

section

variable (model : ProjectModel) (chains : List (List Path)) (dropped : List Path)

/-- The lines of a section on the page without some modules. -/
def lines : PageSection → List (List LinePiece)
  | architecture    => (listedModules model dropped).map ListedModule.architecturePieces
  | dependencyGraph => (listedModules model dropped).filterMap ListedModule.dependencyPieces
  | conflicts       => model.conflicts.map Conflict.pieces
  | cycles          => (keptRows dropped model.graph.cycles).map fun cycle =>
      arrowPieces (cycle ++ cycle.head?.toList)
  | criticalPaths   => (keptRows dropped chains).map arrowPieces

/-- How a section is written. -/
def text (part : PageSection) : List String :=
  sectionLines part.header ((part.lines model chains dropped).map spell)

end

end PageSection

section

variable {model : ProjectModel} {chains : List (List Path)} {dropped : List Path}

/-- **The page is made of its sections.** -/
theorem projectLines_eq (issues : ∀ conflict ∈ model.conflicts, conflict.issue =
      issueText conflict.key (conflict.members.map listMember) conflict.suggestedPrimary) :
    projectLines model chains dropped =
      headLines model ++
        PageSection.architecture.text model chains dropped ++
        PageSection.dependencyGraph.text model chains dropped ++
        PageSection.conflicts.text model chains dropped ++
        PageSection.cycles.text model chains dropped ++
        ["", deadCodeLine model.deadCode.summary] ++
        PageSection.criticalPaths.text model chains dropped ++
        if dropped.isEmpty then [] else ["", s!"@truncated: {dropped.length} modules omitted"] := by
  have architecture : (PageSection.architecture.lines model chains dropped).map spell =
      (listedModules model dropped).map ListedModule.architectureLine := by
    rw [PageSection.lines, List.map_map]
    exact List.map_congr_left fun module _ => module.spell_architecture
  have dependencies : (PageSection.dependencyGraph.lines model chains dropped).map spell =
      (listedModules model dropped).filterMap ListedModule.dependencyLine := by
    rw [PageSection.lines, List.map_filterMap]
    simp only [ListedModule.spell_dependency]
  have conflicts : (PageSection.conflicts.lines model chains dropped).map spell =
      model.conflicts.map conflictLine := by
    rw [PageSection.lines, List.map_map]
    exact List.map_congr_left fun conflict there => conflict.spell_pieces (issues conflict there)
  have cycles : (PageSection.cycles.lines model chains dropped).map spell =
      (keptRows dropped model.graph.cycles).map cycleLine := by
    rw [PageSection.lines, List.map_map]
    exact List.map_congr_left fun cycle _ => spell_arrow _
  have chains' : (PageSection.criticalPaths.lines model chains dropped).map spell =
      (keptRows dropped chains).map arrowLine := by
    rw [PageSection.lines, List.map_map]
    exact List.map_congr_left fun chain _ => spell_arrow chain
  simp only [PageSection.text, architecture, dependencies, conflicts, cycles, chains']
  rfl

/-- A module that the page lists is not left out, nor is what it is said to import. -/
theorem kept_of_listedModules {module : ListedModule} (h : module ∈ listedModules model dropped)
    {path : Path} (there : path ∈ module.path :: module.dependencies) : path ∉ dropped := by
  obtain ⟨file, kept, rfl⟩ := List.mem_map.1 h
  rcases List.mem_cons.1 there with rfl | there
  · simpa using (List.mem_filter.1 kept).2
  · simpa using (List.mem_filter.1 there).2

theorem kept_of_keptRows {rows : List (List Path)} {row : List Path}
    (h : row ∈ keptRows dropped rows) {path : Path} (there : path ∈ row) : path ∉ dropped := by
  have all := List.all_eq_true.1 (List.mem_filter.1 h).2 path there
  simpa using all

/-- **A module that is left out is listed in the section of the conflicts only.** -/
theorem not_listed {part : PageSection} (other : part ≠ .conflicts) {line : List LinePiece}
    (h : line ∈ part.lines model chains dropped) {path : Path} (there : path ∈ listed line) :
    path ∉ dropped := by
  cases part with
  | architecture =>
      obtain ⟨module, kept, rfl⟩ := List.mem_map.1 h
      rw [module.listed_architecture] at there
      exact kept_of_listedModules kept there
  | dependencyGraph =>
      obtain ⟨module, kept, eq⟩ := List.mem_filterMap.1 h
      rw [module.listed_dependency eq] at there
      exact kept_of_listedModules kept there
  | conflicts => exact absurd rfl other
  | cycles =>
      obtain ⟨cycle, kept, rfl⟩ := List.mem_map.1 h
      rw [listed_arrow] at there
      refine kept_of_keptRows kept ((List.mem_append.1 there).elim id fun first => ?_)
      exact List.mem_of_head? (Option.mem_toList.1 first)
  | criticalPaths =>
      obtain ⟨chain, kept, rfl⟩ := List.mem_map.1 h
      rw [listed_arrow] at there
      exact kept_of_keptRows kept there

/-- The conflicts list the paths of their members, whatever is left out. -/
theorem listed_conflicts {path : Path} :
    (∃ line ∈ PageSection.conflicts.lines model chains dropped, path ∈ listed line) ↔
      ∃ conflict ∈ model.conflicts, ∃ member ∈ conflict.members,
        path ∈ member.paths.map Path.ofText := by
  simp only [PageSection.lines, List.mem_map, exists_exists_and_eq_and, Conflict.listed_pieces,
    List.mem_flatMap]

/-- A module that is not left out has one line among the modules. -/
theorem architecture_of_kept (distinct : (model.files.map FileIndex.path).Nodup) {file : FileIndex}
    (there : file ∈ model.files) (kept : file.path ∉ dropped) :
    (PageSection.architecture.lines model chains dropped).filter
        (fun line => (listed line).head? = some file.path) =
      [(listedAs model dropped file).architecturePieces] := by
  have first : ∀ other : FileIndex,
      (listed (listedAs model dropped other).architecturePieces).head? = some other.path := by
    intro other
    rw [ListedModule.listed_architecture]
    rfl
  have own : (model.files.filter fun other => !dropped.contains other.path).filter
      (fun other => other.path = file.path) = [file] := by
    obtain ⟨before, after, eq⟩ := List.append_of_mem there
    rw [eq, List.map_append, List.map_cons, List.nodup_middle, List.nodup_cons, ← List.map_append]
      at distinct
    have others : ∀ other ∈ before ++ after, other.path ≠ file.path := by
      intro other mem same
      exact distinct.1 (same ▸ List.mem_map_of_mem mem)
    rw [eq, List.filter_filter, List.filter_append, List.filter_cons_of_pos (by simpa using kept),
      List.filter_eq_nil_iff.2, List.filter_eq_nil_iff.2]
    · rfl
    · intro other mem
      simp [others other (List.mem_append_right _ mem)]
    · intro other mem
      simp [others other (List.mem_append_left _ mem)]
  have lines : PageSection.architecture.lines model chains dropped =
      (model.files.filter fun other => !dropped.contains other.path).map fun other =>
        (listedAs model dropped other).architecturePieces := by
    rw [PageSection.lines, listedModules, List.map_map]
    rfl
  simp only [lines, List.filter_map, Function.comp_def, first, Option.some.injEq, own,
    List.map_singleton]

end

/-! ### Models that are put together -/

/-- Models with the graph of their files, which lie at different paths, and with the conflicts of
some candidates. -/
structure ProjectModel.Assembled (model : ProjectModel) : Prop where
  distinct  : (model.files.map FileIndex.path).Nodup
  graph     : model.graph = buildGraph model.files
  conflicts : ∃ candidates, detectConflicts candidates = some model.conflicts

/-- **A survey gives such a model.** -/
theorem Produced.assembled {model : ProjectModel} (h : Produced model) : model.Assembled := by
  have distinct := h.surveyed.distinct
  obtain @⟨cache, tree, config, outcomes, halt, model, before, h, assembled⟩ := h
  obtain ⟨conflicts, found, h⟩ := Option.bind_eq_some_iff.1 assembled
  obtain ⟨dead, -, rfl⟩ := Option.map_eq_some_iff.1 h
  exact ⟨distinct, rfl, _, found⟩

/-- **What the page lists without the first modules in the order of leaving out.** The page is made
of its sections. No section but that of the conflicts lists a module that is left out, and that one
lists those that are members of a conflict. Every other module has one line among the modules, with
what it imports and is not left out, in path order. -/
theorem page_lists {model : ProjectModel} (assembled : model.Assembled) (output : OutputConfig)
    (count : Nat) :
    let dropped := (dropOrder model).take count
    let chains := model.graph.criticalPaths output.criticalPaths
    pageWithout model output count = Text.unlines (headLines model ++
      PageSection.architecture.text model chains dropped ++
      PageSection.dependencyGraph.text model chains dropped ++
      PageSection.conflicts.text model chains dropped ++
      PageSection.cycles.text model chains dropped ++
      ["", deadCodeLine model.deadCode.summary] ++
      PageSection.criticalPaths.text model chains dropped ++
      if dropped.isEmpty then [] else ["", s!"@truncated: {dropped.length} modules omitted"]) ∧
    (∀ part : PageSection, part ≠ .conflicts → ∀ line ∈ part.lines model chains dropped,
      ∀ path ∈ listed line, path ∉ dropped) ∧
    (∀ path ∈ dropped,
      (∃ part : PageSection, ∃ line ∈ part.lines model chains dropped, path ∈ listed line) ↔
        ∃ conflict ∈ model.conflicts, ∃ member ∈ conflict.members,
          path ∈ member.paths.map Path.ofText) ∧
    ∀ file ∈ model.files, file.path ∉ dropped → ∃ line dependencies,
      (PageSection.architecture.lines model chains dropped).filter
          (fun line => (listed line).head? = some file.path) = [line] ∧
      listed line = file.path :: dependencies ∧
      (dependencies.Pairwise fun a b => a.order b = .lt) ∧
      ∀ path, path ∈ dependencies ↔ path ∉ dropped ∧ model.graph.Depends file.path path := by
  intro dropped chains
  obtain ⟨candidates, found⟩ := assembled.conflicts
  have issues := fun conflict there => ((groups_of_detectConflicts found).2.2 conflict there).issue
  have wellFormed : model.graph.WellFormed := by
    rw [assembled.graph]
    exact ReferenceGraph.wellFormed_buildGraph assembled.distinct
  refine ⟨congrArg Text.unlines (projectLines_eq issues), fun part other line there path => ?_,
    fun path gone => ?_, fun file there kept => ?_⟩
  · exact not_listed other there
  · have members : (∃ line ∈ PageSection.conflicts.lines model chains dropped,
        path ∈ listed line) ↔ _ := listed_conflicts
    rw [← members]
    constructor
    · rintro ⟨part, line, there, lists⟩
      by_cases conflicts : part = .conflicts
      · subst conflicts
        exact ⟨line, there, lists⟩
      · exact absurd gone (not_listed conflicts there lists)
    · rintro ⟨line, there, lists⟩
      exact ⟨.conflicts, line, there, lists⟩
  · refine ⟨_, (listedAs model dropped file).dependencies,
      architecture_of_kept assembled.distinct there kept, ListedModule.listed_architecture _,
      (ReferenceGraph.pairwise_dependencies _ _).filter _, fun path => ?_⟩
    rw [listedAs, List.mem_filter, wellFormed.mem_dependencies_iff, and_comm]
    simp

/-- Two modules whose names differ in a plural `s`. -/
def pluralCandidates : List Candidate :=
  [⟨"config", "config.py", 1, 0, false⟩, ⟨"configs", "configs.py", 1, 0, false⟩]

theorem exists_pluralConflicts : ∃ conflicts, detectConflicts pluralCandidates = some conflicts ∧
    ∃ conflict ∈ conflicts, ∃ member ∈ conflict.members,
      Path.ofText "config.py" ∈ member.paths.map Path.ofText := by
  have weights : ∀ c ∈ pluralCandidates, weightNamed pluralCandidates c.name ≤ greatestCount := by
    decide
  have fits : CountsFit pluralCandidates :=
    ⟨fun c there => by have := weights c there; rw [weightNamed] at this; omega,
      fun a there _ _ _ _ _ _ => weights a there⟩
  obtain ⟨conflicts, found⟩ := Option.isSome_iff_exists.1 (isSome_detectConflicts.2 fits)
  obtain ⟨-, keys, groups⟩ := groups_of_detectConflicts found
  have singular : normalizeName "config" = "config" := by decide +kernel
  have plural : normalizeName "configs" = "config" := by decide +kernel
  have both : "config" ∈ conflicts.map Conflict.key := (keys "config").2
    ⟨by decide, _, List.mem_cons_self, _, .tail _ List.mem_cons_self, by decide, singular, plural⟩
  obtain ⟨conflict, there, key⟩ := List.mem_map.1 both
  have groups := groups conflict there
  have named : "config" ∈ conflict.memberNames :=
    (groups.names "config").2 ⟨singular.trans key.symm, _, List.mem_cons_self, rfl⟩
  obtain ⟨member, mem, name⟩ := List.mem_map.1 named
  refine ⟨conflicts, found, conflict, there, member, mem, ?_⟩
  exact ((groups.sums member mem).paths _).2 ⟨_, List.mem_cons_self, name.symm, rfl⟩

/-- A project of the two modules. -/
def pluralModules (conflicts : List Conflict) : ProjectModel :=
  { emptyModules ["config.py", "configs.py"] with conflicts }

/-- Both modules are left out, and the page lists one of them in a conflict. -/
theorem page_lists_conflict : ∃ conflicts,
    let model := pluralModules conflicts
    let dropped := (dropOrder model).take 2
    model.Assembled ∧ Path.ofText "config.py" ∈ dropped ∧
      ∃ part : PageSection, ∃ line ∈ part.lines model (model.graph.criticalPaths 3) dropped,
        Path.ofText "config.py" ∈ listed line := by
  obtain ⟨conflicts, found, member⟩ := exists_pluralConflicts
  have paths : (pluralModules conflicts).files.map FileIndex.path =
      [Path.ofText "config.py", Path.ofText "configs.py"] := rfl
  have assembled : (pluralModules conflicts).Assembled :=
    ⟨by rw [paths]; decide, rfl, pluralCandidates, found⟩
  have gone : Path.ofText "config.py" ∈ (dropOrder (pluralModules conflicts)).take 2 := by
    have two : (dropOrder (pluralModules conflicts)).length = 2 := length_dropOrder _
    have perm := dropOrder_perm (pluralModules conflicts)
    rw [paths] at perm
    rw [List.take_of_length_le two.le]
    exact perm.mem_iff.2 List.mem_cons_self
  exact ⟨conflicts, assembled, gone, ((page_lists assembled {} 2).2.2.1 _ gone).2 member⟩

end CodeSurvey
