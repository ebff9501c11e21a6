import CodeSurvey.Proofs.Document.Writing
import CodeSurvey.Proofs.Survey.TextProjects

/-!
# Updating twice

An update surveys a project and writes its documents. What a second update makes of them when
nothing else has changed.

* `update`: the survey and the documents.
* `StandApart`: the documents are files of their own, which nothing that a survey reads leads to.
* `update_of_root`: a project without directories is updated if its two documents can be written.
* `update_again_iff`: a second update then succeeds, and leaves the documents as they are exactly
  if each of them is settled.
-/

namespace CodeSurvey

open FileTree (Varies IsWritable)
open CodeSurvey.Path (spellBelow)

/-- Surveys a project and writes its documents, if all of that can be done. -/
def update (tree : FileTree) (config : Config) : Option (ProjectModel × Written) :=
  (scanOnce tree config).bind fun model =>
    let written := writeDocuments tree config.targetDirectory model config.output
      (projectDocument model config.output)
    if written.succeeded then some (model, written) else none

/-- The documents of directories that an update writes, with their paths. -/
def contextDocuments (config : Config) (model : ProjectModel) : List (String × String) :=
  (directoryDocuments model config.output).map fun (directory, generated) =>
    (contextPath config.targetDirectory directory, generated)

/-- Documents that are files of their own: each has a place that no other has, and no other name
that a survey looks into leads there. -/
structure StandApart (tree : FileTree) (config : Config) (paths : List String) : Prop where
  distinct : (paths.map fun path => tree.placeFor (.ofText path)).Nodup
  unread   : ∀ directory name q entry, name ≠ projectDocumentName → name ≠ contextDocumentName →
    config.Reads name → tree.follow true 40 directory [.name name] = .ok (q, entry) →
      ∀ path ∈ paths, tree.placeFor (.ofText path) ≠ some q

/-- The places that documents are written to. -/
def documentPlaces (tree : FileTree) (paths : List String) : List Place :=
  paths.filterMap fun path => tree.placeFor (.ofText path)

variable {s t : FileTree} {config : Config} {model : ProjectModel}

theorem mem_documentPlaces {paths : List String} {path : String} {q : Place} (there : path ∈ paths)
    (place : s.placeFor (.ofText path) = some q) : q ∈ documentPlaces s paths :=
  List.mem_filterMap.2 ⟨path, there, place⟩

/-- A survey reads no documents, unless their extension is one of its own. -/
theorem not_reads_document (llm : "llm" ∉ config.fileExtensions) {name : String}
    (reads : config.Reads name) : name ≠ projectDocumentName ∧ name ≠ contextDocumentName := by
  constructor
  · rintro rfl
    rcases reads with eq | eq | ⟨extension, eq, listed⟩
    · exact absurd eq (by decide)
    · exact absurd eq (by decide)
    · cases eq
      exact llm listed
  · rintro rfl
    rcases reads with eq | eq | ⟨extension, eq, listed⟩
    · exact absurd eq (by decide)
    · exact absurd eq (by decide)
    · cases eq
      exact llm listed

/-- So documents that stand apart are apart from what it reads. -/
theorem StandApart.apart {paths : List String} (h : StandApart s config paths)
    (llm : "llm" ∉ config.fileExtensions) : Apart s config (documentPlaces s paths) := by
  intro directory name q entry reads leads there
  obtain ⟨path, listed, place⟩ := List.mem_filterMap.1 there
  obtain ⟨notProject, notContext⟩ := not_reads_document llm reads
  exact h.unread directory name q entry notProject notContext reads leads path listed place

theorem varies_documentPlaces (sound : s.Sound) (paths : List String) :
    Varies (documentPlaces s paths) s s :=
  .refl sound.distinct fun q there => by
    obtain ⟨path, -, place⟩ := List.mem_filterMap.1 there
    exact FileTree.isWritable_of_placeFor sound place

/-! ### Texts at places of their own -/

section

variable {root : String} {q : Place}

theorem isSome_textAfter (documents : List (Path × String)) (text : Option String) :
    (textAfter s root q text documents).isSome = text.isSome := by
  induction documents generalizing text with
  | nil => rfl
  | cons document later ih =>
      rw [textAfter, List.foldl_cons, ← textAfter, ih, mergeAt]
      split
      · rw [Option.isSome_map]
      · rfl

/-- Documents at other places do not change a text. -/
theorem textAfter_other (documents : List (Path × String)) (text : Option String)
    (other : ∀ d ∈ documents, s.placeFor (.ofText (contextPath root d.1)) ≠ some q) :
    textAfter s root q text documents = text := by
  induction documents with
  | nil => rfl
  | cons document later ih =>
      rw [textAfter, List.foldl_cons, mergeAt, if_neg (other _ List.mem_cons_self)]
      exact ih fun d hd => other d (.tail _ hd)

/-- A document at a place of its own is merged with the text there. -/
theorem textAfter_own {directory : Path} {generated : String}
    (place : s.placeFor (.ofText (contextPath root directory)) = some q)
    (documents : List (Path × String)) (text : Option String)
    (distinct : (documents.map fun d => s.placeFor (.ofText (contextPath root d.1))).Nodup)
    (there : (directory, generated) ∈ documents) :
    textAfter s root q text documents = text.map (mergeDocument · generated) := by
  induction documents with
  | nil => cases there
  | cons document later ih =>
      obtain ⟨first, distinct⟩ := List.nodup_cons.1 distinct
      rw [textAfter, List.foldl_cons, ← textAfter, mergeAt]
      rcases List.mem_cons.1 there with rfl | there
      · rw [if_pos place]
        refine textAfter_other later _ fun d hd same => ?_
        exact first (List.mem_map.2 ⟨d, hd, same.trans place.symm⟩)
      · rw [if_neg fun same => first (List.mem_map.2 ⟨_, there, place.trans same.symm⟩)]
        exact ih distinct there

end

/-! ### One update -/

/-- An update succeeds exactly if its survey gives a model and the documents are written. -/
theorem update_eq_some_iff {w : Written} : update s config = some (model, w) ↔
    scanOnce s config = some model ∧
      writeDocuments s config.targetDirectory model config.output
        (projectDocument model config.output) = w ∧ w.succeeded := by
  rw [update, Option.bind_eq_some_iff]
  constructor
  · rintro ⟨found, surveyed, h⟩
    obtain ⟨succeeded, eq⟩ := Option.ite_none_right_eq_some.1 h
    obtain ⟨rfl, rfl⟩ := Prod.mk.inj (Option.some.inj eq)
    exact ⟨surveyed, rfl, succeeded⟩
  · rintro ⟨surveyed, rfl, succeeded⟩
    exact ⟨model, surveyed, if_pos succeeded⟩

/-- The paths of the documents that an update writes. -/
def documentPaths (config : Config) (model : ProjectModel) : List String :=
  projectPath config.targetDirectory ::
    (directoryDocuments model config.output).map fun d => contextPath config.targetDirectory d.1

/-- The document of the project lies in a directory. -/
theorem root_of_placeFor (sound : s.Sound) {root : String} {p : Place}
    (place : s.placeFor (.ofText (projectPath root)) = some p) :
    ∃ directory, s.locate (.ofText root) = .ok (directory, some .directory) := by
  obtain ⟨entry, leads, -, -⟩ := FileTree.placeFor_eq_some_iff.1 place
  have parts := Path.parts_below_name root (show IsName projectDocumentName by decide)
  have through : s.locate ⟨(Path.ofText root).parts ++ [.name projectDocumentName]⟩ =
      .ok (p, entry) := by
    rw [← parts]
    exact leads
  have whole := FileTree.leads_of_append sound through (Path.ofText root).parts.length
  rwa [List.take_length] at whole

/-- **Every document has a place that it can be written to.** -/
theorem allExpected_documents (sound : s.Sound) {directory : Place}
    (root : s.locate (.ofText config.targetDirectory) = .ok (directory, some .directory))
    (surveyed : scanOnce s config = some model) :
    AllExpected s config.targetDirectory (documentPlaces s (documentPaths config model))
      (directoryDocuments model config.output) where
  project q place := mem_documentPlaces List.mem_cons_self place
  contexts d hd := by
    obtain ⟨⟨file, there, eq⟩, -⟩ := directory_of_document hd
    obtain ⟨rest, name, -, -, r, leads⟩ := names_of_document sound root surveyed there
    rw [← eq] at leads
    refine ⟨FileTree.leads_of_append sound leads, fun q place => ?_⟩
    exact mem_documentPlaces (.tail _ (List.mem_map_of_mem hd)) place

section

variable {places : List Place} {q : Place}

theorem locate_of_placeFor (h : Varies places s t) {path : Path}
    (place : s.placeFor path = some q) : t.locate path = .ok (q, t.entryAt q) := by
  obtain ⟨entry, leads, -, -⟩ := FileTree.placeFor_eq_some_iff.1 place
  exact ((h.locate path true).of_ok leads).2

/-- The text at the place of a document is what is read there. -/
theorem readText_of_textAt (h : Varies places s t) (there : q ∈ places) {path : String}
    (file : FileTree.demandsDirectory path = false)
    (place : s.placeFor (.ofText path) = some q) {text : String} (has : t.textAt q = some text) :
    (t.readText path).getD "" = text := by
  rw [FileTree.readText, FileTree.statText, FileTree.stat, locate_of_placeFor h place]
  rw [FileTree.textAt] at has
  rcases h.after q there with eq | ⟨content, modified, eq⟩
  · rw [eq] at has ⊢
    exact Option.some.inj has
  · rw [eq] at has ⊢
    dsimp only at has ⊢
    rw [file, if_neg (by simp)]
    dsimp only
    rw [has]
    rfl

/-- A document reads as its text. -/
theorem read_of_hasText (h : Varies places s t) {path : Path} (place : s.placeFor path = some q)
    (has : HasText t q) : ∃ text, t.textAt q = some text ∧ t.read path = .ok text.toUTF8 := by
  obtain ⟨text, modified, there⟩ := has
  refine ⟨text, ?_, ?_⟩
  · rw [FileTree.textAt, there]
    dsimp only
    rw [FileTree.decode_toUTF8]
    rfl
  · rw [FileTree.read, FileTree.stat, locate_of_placeFor h place, there]

end

/-- Surveys that differ in their diagnostics give the same documents. -/
theorem documents_of_undiagnosed {model' : ProjectModel}
    (same : model'.undiagnosed = model.undiagnosed) (output : OutputConfig) :
    projectDocument model' output = projectDocument model output ∧
      directoryDocuments model' output = directoryDocuments model output := by
  have project : ∀ m : ProjectModel,
      projectDocument m.undiagnosed output = projectDocument m output :=
    fun _ => rfl
  have directories : ∀ m : ProjectModel,
      directoryDocuments m.undiagnosed output = directoryDocuments m output := fun _ => rfl
  rw [← project model', ← directories model', same]
  exact ⟨rfl, rfl⟩

/-! ### Two updates -/

/-- What an update leaves in a tree that differs from the first in nothing but its documents. -/
def Updates (s t : FileTree) (config : Config) (model : ProjectModel) (p : Place) (w : Written) :
    Prop :=
  Writes s t config.targetDirectory (documentPlaces s (documentPaths config model))
    (projectDocument model config.output).text (directoryDocuments model config.output) p w

/-- A first update, and what it says about the project. -/
theorem updates_of_update (sound : s.Sound) {first : Written}
    (updated : update s config = some (model, first)) :
    scanOnce s config = some model ∧
      (∃ directory, s.locate (.ofText config.targetDirectory) = .ok (directory, some .directory)) ∧
      AllExpected s config.targetDirectory (documentPlaces s (documentPaths config model))
        (directoryDocuments model config.output) ∧
      ∃ p, s.placeFor (.ofText (projectPath config.targetDirectory)) = some p ∧
        Updates s s config model p first := by
  obtain ⟨surveyed, rfl, succeeded⟩ := update_eq_some_iff.1 updated
  have varies := varies_documentPlaces sound (documentPaths config model)
  obtain ⟨p, place⟩ : ∃ p, s.placeFor (.ofText (projectPath config.targetDirectory)) = some p := by
    rw [writeDocuments_eq varies] at succeeded
    cases place : s.placeFor (.ofText (projectPath config.targetDirectory)) with
    | none =>
        rw [place] at succeeded
        cases succeeded
    | some p => exact ⟨p, rfl⟩
  obtain ⟨directory, root⟩ := root_of_placeFor sound place
  have expected := allExpected_documents sound root surveyed
  exact ⟨surveyed, ⟨directory, root⟩, expected, writeDocuments_run varies expected succeeded⟩

/-- A second update succeeds. -/
theorem update_again (sound : s.Sound) (llm : "llm" ∉ config.fileExtensions) {first : Written}
    (updated : update s config = some (model, first)) (apart : StandApart s config first.paths)
    (clock : Nat) : ∃ model' again p,
    update { first.tree with clock } config = some (model', again) ∧
      s.placeFor (.ofText (projectPath config.targetDirectory)) = some p ∧
      Updates s s config model p first ∧ Updates s first.tree config model p again := by
  obtain ⟨surveyed, ⟨directory, root⟩, expected, p, place, one⟩ := updates_of_update sound updated
  rw [one.paths] at apart
  have varies := one.varies.clock clock
  -- the second survey gives the same documents
  have same := scanOnce_apart (apart.apart llm) sound varies root
  rw [surveyed] at same
  obtain ⟨model', surveyed', same⟩ := Option.map_eq_some_iff.1 same
  obtain ⟨project, directories⟩ := documents_of_undiagnosed same config.output
  have succeeded : (writeDocuments { first.tree with clock } config.targetDirectory model
      config.output (projectDocument model config.output)).succeeded := by
    refine writeDocuments_succeeds varies expected place fun d hd => ?_
    obtain ⟨q, own, readable⟩ := one.readable d hd
    refine ⟨q, own, ?_⟩
    show (first.tree.textAt q).isSome
    rw [one.texts, isSome_textAfter]
    rcases readable with same | some
    · rw [if_pos same]
      rfl
    · split
      · rfl
      · exact some
  obtain ⟨p', place', two⟩ := writeDocuments_run varies expected succeeded
  obtain rfl : p = p' := Option.some.inj (place.symm.trans place')
  refine ⟨model', _, p, update_eq_some_iff.2 ⟨surveyed', ?_, succeeded⟩, place, one, ?_⟩
  · rw [project, writeDocuments_eq varies, writeDocuments_eq varies, directories]
  · exact ⟨two.varies, two.paths, two.texts, two.hasText, two.readable⟩

section

variable {p : Place} {first again : Written}
  (place : s.placeFor (.ofText (projectPath config.targetDirectory)) = some p)
  (distinct : ((documentPaths config model).map fun path => s.placeFor (.ofText path)).Nodup)

include place distinct

/-- The project document is not changed by the documents of directories. -/
theorem Updates.textAt_project (one : Updates s t config model p first) :
    first.tree.textAt p = some (projectDocument model config.output).text := by
  rw [one.texts, if_pos rfl]
  refine textAfter_other _ _ fun d hd same => ?_
  refine (List.nodup_cons.1 distinct).1 (List.mem_map.2 ⟨_, List.mem_map_of_mem hd, ?_⟩)
  exact same.trans place.symm

/-- The document of a directory is merged with the text at its place. -/
theorem Updates.textAt_context (one : Updates s t config model p first) {directory : Path}
    {generated : String} (there : (directory, generated) ∈ directoryDocuments model config.output)
    {q : Place}
    (own : s.placeFor (.ofText (contextPath config.targetDirectory directory)) = some q) :
    q ≠ p ∧ first.tree.textAt q = (t.textAt q).map (mergeDocument · generated) := by
  obtain ⟨alone, contexts⟩ := List.nodup_cons.1 distinct
  have other : q ≠ p := by
    rintro rfl
    exact alone (List.mem_map.2 ⟨_, List.mem_map_of_mem there, own.trans place.symm⟩)
  simp only [List.map_map, Function.comp_def] at contexts
  refine ⟨other, ?_⟩
  rw [one.texts, if_neg other, textAfter_own own _ _ contexts there]

/-- What two updates make of the document of a directory. -/
theorem Updates.twice (sound : s.Sound) (one : Updates s s config model p first)
    (two : Updates s first.tree config model p again) {directory : Path} {generated : String}
    (there : (directory, generated) ∈ directoryDocuments model config.output) :
    ∃ q, s.placeFor (.ofText (contextPath config.targetDirectory directory)) = some q ∧
      let existing := (s.readText (contextPath config.targetDirectory directory)).getD ""
      first.tree.textAt q = some (mergeDocument existing generated) ∧
        again.tree.textAt q =
          some (mergeDocument (mergeDocument existing generated) generated) := by
  obtain ⟨q, own, readable⟩ := one.readable _ there
  obtain ⟨other, before⟩ := one.textAt_context place distinct there own
  obtain ⟨-, after⟩ := two.textAt_context place distinct there own
  obtain ⟨existing, text⟩ := Option.isSome_iff_exists.1 (readable.resolve_left other)
  have read := readText_of_textAt (varies_documentPlaces sound (documentPaths config model))
    (mem_documentPlaces (.tail _ (List.mem_map_of_mem there)) own)
    (not_demandsDirectory_context _) own text
  rw [text] at before
  rw [before] at after
  refine ⟨q, own, ?_⟩
  rw [show (s.readText (contextPath config.targetDirectory directory)).getD "" = existing from read]
  exact ⟨before, after⟩

end

/-! ### Without links -/

section

variable (sound : s.Sound) (linkless : s.Linkless) {directory : Place}
  (root : s.locate (.ofText config.targetDirectory) = .ok (directory, some .directory))

include sound linkless root

/-- Names below the root lead to the place that they name there. -/
theorem place_below {names : List String} (some : names ≠ []) {path : Path}
    (leads : s.locate path =
      s.locate ⟨(Path.ofText config.targetDirectory).parts ++ names.map .name⟩)
    {q : Place} (place : s.placeFor path = .some q) : q = directory ++ names := by
  obtain ⟨entry, found, -, -⟩ := FileTree.placeFor_eq_some_iff.1 place
  rw [leads, FileTree.locate] at found
  obtain ⟨way, -⟩ := FileTree.follow_eq_ok_iff.1 found
  obtain ⟨m, -, between, front, -, last⟩ := way.through sound (by simpa using some)
    (Path.ofText config.targetDirectory).parts sound.here
  obtain ⟨rfl, -⟩ := Prod.mk.inj (Except.ok.inj (front.follow.symm.trans root))
  exact linkless.leads_names last

/-- Without links the document of the project lies in the root. -/
theorem place_of_project {q : Place}
    (place : s.placeFor (.ofText (projectPath config.targetDirectory)) = some q) :
    q = directory ++ [projectDocumentName] := by
  refine place_below sound linkless root (by simp) ?_ place
  rw [FileTree.locate, projectPath,
    Path.parts_below_name _ (show IsName projectDocumentName by decide)]
  rfl

/-- The document of a directory lies in the directory. -/
theorem place_of_context (surveyed : scanOnce s config = some model) {d : Path × String}
    (there : d ∈ directoryDocuments model config.output) : ∃ rest,
    d.1 = (if rest = [] then ⟨[.here]⟩ else .ofNames rest) ∧
      ∀ q, s.placeFor (.ofText (contextPath config.targetDirectory d.1)) = some q →
        q = directory ++ (rest ++ [contextDocumentName]) := by
  obtain ⟨⟨file, listed, eq⟩, -⟩ := directory_of_document there
  obtain ⟨rest, name, valid, path, -⟩ := names_of_document sound root surveyed listed
  refine ⟨rest, ?_, fun q place => ?_⟩
  · rw [eq, path, directoryOf_ofNames]
  · refine place_below sound linkless root (by simp) ?_ place
    rw [FileTree.locate, contextPath,
      Path.parts_below_name _ (show IsName contextDocumentName by decide), eq, path, List.map_append,
      ← List.append_assoc]
    exact locate_directory s config.targetDirectory valid name contextDocumentName

end

theorem nodup_directoryDocuments (model : ProjectModel) (output : OutputConfig) :
    ((directoryDocuments model output).map Prod.fst).Nodup := by
  rw [directoryDocuments, List.map_map]
  exact (List.map_id _).symm ▸ nodup_sortedSet _

/-- **Without links, documents stand apart.** -/
theorem standApart_of_linkless (sound : s.Sound) (linkless : s.Linkless) {first : Written}
    (updated : update s config = some (model, first)) : StandApart s config first.paths := by
  obtain ⟨surveyed, ⟨directory, root⟩, -, p, place, one⟩ := updates_of_update sound updated
  have project := place_of_project sound linkless root place
  have contexts := fun d => place_of_context sound linkless root surveyed (d := d)
  rw [one.paths]
  refine ⟨List.nodup_cons.2 ⟨?_, ?_⟩, ?_⟩
  · -- the documents have different names
    intro there
    obtain ⟨path, listed, same⟩ := List.mem_map.1 there
    obtain ⟨d, hd, rfl⟩ := List.mem_map.1 listed
    obtain ⟨rest, -, own⟩ := contexts d hd
    have eq := (own p (same.trans place)).symm.trans project
    rw [← List.append_assoc] at eq
    exact absurd (List.append_inj_right' eq rfl) (by decide)
  · -- the directories do
    rw [List.map_map, List.Nodup, List.pairwise_map]
    refine (List.pairwise_map.1 (nodup_directoryDocuments model config.output)).imp_of_mem ?_
    intro d e hd he other same
    dsimp only [Function.comp_apply] at same
    obtain ⟨q, place, -⟩ := one.readable d hd
    obtain ⟨rest, eq, own⟩ := contexts d hd
    obtain ⟨rest', eq', own'⟩ := contexts e he
    have names := (own q place).symm.trans (own' q (same.symm.trans place))
    obtain rfl := List.append_cancel_right (List.append_cancel_left names)
    exact other (eq.trans eq'.symm)
  · -- a name leads only to its own place
    intro folder name q entry notProject notContext _ leads path listed own
    obtain ⟨way, -⟩ := FileTree.follow_eq_ok_iff.1 leads
    have named : q = folder ++ [name] := linkless.leads_names way
    rcases List.mem_cons.1 listed with rfl | listed
    · have eq := named.symm.trans (place_of_project sound linkless root own)
      exact notProject (List.cons.inj (List.append_inj_right' eq rfl)).1
    · obtain ⟨d, hd, rfl⟩ := List.mem_map.1 listed
      obtain ⟨rest, -, place⟩ := contexts d hd
      have eq := named.symm.trans (place q own)
      rw [← List.append_assoc] at eq
      exact notContext (List.cons.inj (List.append_inj_right' eq rfl)).1

/-! ### Projects without directories -/

/-- **A survey of a project without directories is written** if its two documents can be. -/
theorem update_of_root (sound : s.Sound) {place : Place}
    (located : s.locate (.ofText config.targetDirectory) = .ok (place, some .directory))
    (root : ∀ file ∈ (scanInput s config).sources, ∃ name, file.path = .ofNames [name])
    (surveyed : scanOnce s config = some model) {p q : Place}
    (project : s.placeFor (.ofText (projectPath config.targetDirectory)) = some p)
    (context : s.placeFor (.ofText (contextPath config.targetDirectory ⟨[.here]⟩)) = some q)
    (readable : (s.textAt q).isSome) :
    ∃ first, update s config = some (model, first) := by
  refine ⟨_, update_eq_some_iff.2 ⟨surveyed, rfl, ?_⟩⟩
  refine writeDocuments_succeeds (varies_documentPlaces sound _)
    (allExpected_documents sound located surveyed) project fun d hd => ⟨q, ?_, readable⟩
  obtain ⟨⟨file, there, eq⟩, -⟩ := directory_of_document hd
  obtain ⟨name, path⟩ := root _ (source_of_file surveyed there).1
  rw [eq, FileIndex.path, path]
  exact context

/-! ### A section with a carriage return -/

/-- A section that people wrote, in which a carriage return is left before a line end. -/
def notes : String :=
  "@notes:\na\r\r\nb\n"

/-- A module beside a document with such a section. -/
def notedTree : FileTree :=
  .ofTexts [("CONTEXT.llm", notes), ("a.py", "x = 1\n")]

theorem sound_notedTree : notedTree.Sound :=
  FileTree.sound_ofTexts (by decide) (by decide)

theorem sources_notedTree :
    (scanInput notedTree plainConfig).sources = [textModule "a.py" "x = 1\n"] := by
  rw [notedTree, sources_ofTexts sound_notedTree (by decide) rfl]
  rfl

/-- The section is what the document beside the module holds. -/
theorem text_notedTree : notedTree.textAt ["CONTEXT.llm"] = some notes ∧
    notedTree.readText (contextPath plainConfig.targetDirectory ⟨[.here]⟩) = some notes := by
  have decoded : (Text.decode (String.toUTF8 notes)).toOption = some notes := by
    rw [FileTree.decode_toUTF8]
    rfl
  exact ⟨decoded, decoded⟩

theorem root_notedTree : ∀ file ∈ (scanInput notedTree plainConfig).sources,
    ∃ name, file.path = .ofNames [name] := by
  rw [sources_notedTree]
  exact fun file there => ⟨"a.py", List.mem_singleton.1 there ▸ rfl⟩

/-- The project has a model with the module in it. -/
theorem scanOnce_notedTree : ∃ model, scanOnce notedTree plainConfig = some model ∧
    ∃ index ∈ model.files, index.path = .ofNames ["a.py"] := by
  have read : ∃ index, indexSource (textModule "a.py" "x = 1\n") "x = 1\n" = .ok index ∧
      index.path = .ofNames ["a.py"] ∧
      (([textModule "a.py" "x = 1\n"].filterMap (moduleCandidate (buildGraph [index]))).map
        fun c => c.fileCount + c.inbound).sum ≤ greatestCount ∧
      ∀ index' ∈ [index], ∀ symbol ∈ index'.symbols, isCandidate index'.file symbol →
        (score (.ofSymbol symbol ((buildGraph [index]).usage symbol.id) index'.file.isTest)
          plainConfig.analysis.weights).isSome :=
    ⟨_, rfl, rfl, by decide +kernel⟩
  obtain ⟨index, indexed, path, few, scores⟩ := read
  have outcome : indexOne notedTree none (textModule "a.py" "x = 1\n") = .indexed index := by
    rw [indexOne_of_text "x = 1\n" rfl rfl, indexed]
  have placed : placementIn notedTree plainConfig (textModule "a.py" "x = 1\n") = .fresh index :=
    congrArg Placement.ofOutcome outcome
  have inRange : InRange (scanInput notedTree plainConfig) [index] :=
    inRange_of_root root_notedTree (by rwa [sources_notedTree]) scores
  have some : (assemble (scanInput notedTree plainConfig) .stopped [.fresh index]).isSome :=
    isSome_assemble.2 inRange
  obtain ⟨model, surveyed⟩ := Option.isSome_iff_exists.1 some
  refine ⟨model, ?_, index, (of_assemble surveyed).1 ▸ List.mem_singleton_self index, path⟩
  rw [scanOnce_eq, sources_notedTree, List.map_singleton, placed]
  exact surveyed

/-! ### Main result -/

/-- **A second update of a project leaves its documents as they are** exactly if every document of
a directory is settled: no line of its generated text looks like the header of a hand-written
section, and no hand-written part of the text found there has a carriage return before a line end
once its lines have been read. -/
theorem update_again_iff {tree : FileTree} {config : Config} {model : ProjectModel}
    {first : Written}
    (sound : tree.Sound) (llm : "llm" ∉ config.fileExtensions)
    (updated : update tree config = some (model, first))
    (apart : StandApart tree config first.paths) (clock : Nat) :
    ∃ model' again, update { first.tree with clock } config = some (model', again) ∧
      again.paths = first.paths ∧
      ((∀ path ∈ first.paths,
          again.tree.read (.ofText path) = first.tree.read (.ofText path)) ↔
        ∀ path generated, (path, generated) ∈ contextDocuments config model →
          Settled ((tree.readText path).getD "") generated) := by
  obtain ⟨model', again, p, updated', place, one, two⟩ :=
    update_again sound llm updated apart clock
  have distinct := apart.distinct
  rw [one.paths] at distinct
  refine ⟨model', again, updated', two.paths.trans one.paths.symm, ?_⟩
  rw [one.paths]
  -- a document reads the same exactly if the texts at its place are the same
  have reads : ∀ path ∈ documentPaths config model, ∀ q, tree.placeFor (.ofText path) = some q →
      (again.tree.read (.ofText path) = first.tree.read (.ofText path) ↔
        again.tree.textAt q = first.tree.textAt q) := by
    intro path listed q own
    obtain ⟨text, there, read⟩ := read_of_hasText one.varies own (one.hasText path listed q own)
    obtain ⟨text', there', read'⟩ := read_of_hasText two.varies own (two.hasText path listed q own)
    rw [read, read', there, there', Except.ok.injEq, Option.some.injEq,
      String.toUTF8_eq_toByteArray, String.toUTF8_eq_toByteArray, String.toByteArray_inj]
  constructor
  · intro same path generated listed
    obtain ⟨⟨directory, _⟩, there, eq⟩ := List.mem_map.1 listed
    obtain ⟨rfl, rfl⟩ := Prod.mk.inj eq
    obtain ⟨q, own, before, after⟩ := one.twice place distinct sound two there
    have member := List.mem_cons_of_mem (projectPath config.targetDirectory)
      (List.mem_map_of_mem (f := fun d => contextPath config.targetDirectory d.1) there)
    have texts := (reads _ member q own).1 (same _ member)
    rw [before, after] at texts
    exact (mergeDocument_fixed_iff (directory_of_document there).2).1 (Option.some.inj texts)
  · intro settled path listed
    rcases List.mem_cons.1 listed with rfl | context
    · rw [reads _ listed p place, one.textAt_project place distinct,
        two.textAt_project place distinct]
    · obtain ⟨⟨directory, generated⟩, there, rfl⟩ := List.mem_map.1 context
      obtain ⟨q, own, before, after⟩ := one.twice place distinct sound two there
      have fixed := (mergeDocument_fixed_iff (directory_of_document there).2).2
        (settled _ generated (List.mem_map.2 ⟨_, there, rfl⟩))
      rw [reads _ listed q own, before, after, fixed]

/-- A carriage return is left in a section that people wrote, and the second update of the project
does not leave its documents as they are. -/
theorem update_again_iff_notes : ∃ model first model' again,
    update notedTree plainConfig = some (model, first) ∧
      update { first.tree with clock := 1 } plainConfig = some (model', again) ∧
      again.paths = first.paths ∧
      ¬∀ path ∈ first.paths,
        again.tree.read (.ofText path) = first.tree.read (.ofText path) := by
  obtain ⟨model, surveyed, index, there, path⟩ := scanOnce_notedTree
  obtain ⟨first, updated⟩ := update_of_root sound_notedTree rfl root_notedTree surveyed
    (p := ["PROJECT.llm"]) (q := ["CONTEXT.llm"]) rfl rfl
    (by rw [text_notedTree.1]; rfl)
  obtain ⟨model', again, updated', paths, same⟩ :=
    update_again_iff sound_notedTree (by decide) updated
      (standApart_of_linkless sound_notedTree FileTree.linkless_ofTexts updated) 1
  refine ⟨model, first, model', again, updated, updated', paths, fun unchanged => ?_⟩
  -- the document of the root is not settled
  obtain ⟨generated, listed⟩ := exists_document plainConfig.output there
  rw [path] at listed
  have settled := same.1 unchanged _ generated (List.mem_map_of_mem listed)
  rw [show directoryOf (.ofNames ["a.py"]) = ⟨[.here]⟩ from rfl, text_notedTree.2] at settled
  exact settled.returns "@notes:\na\r\nb" (by decide +kernel) ⟨"@notes:\na".toList, "b".toList, rfl⟩

end CodeSurvey
