import CodeSurvey.Document.Write
import CodeSurvey.Proofs.Document.Merge
import CodeSurvey.Proofs.FileTree.Writing
import CodeSurvey.Proofs.Survey.Apart

/-!
# Writing the documents of a project

Which texts are written to which places, and what is there afterwards. A survey that read the
modules of a directory found the directory there, so writing its document makes none.

* `directory_of_document`: a document is that of a directory with modules, and begins with one.
* `writeContext_eq`: writing it merges it with the text at its place.
* `writeContexts_run`: so writing one document after another leaves the texts merged.
* `writeDocuments_run`: the same for all documents of a project.
-/

namespace CodeSurvey

open FileTree (Varies IsWritable)
open CodeSurvey.Path (spellBelow)

/-! ### Paths -/

/-- The path of the project document below a root. -/
def projectPath (root : String) : String :=
  spellBelow root [projectDocumentName]

/-- The path of the document of a directory below a root. -/
def contextPath (root : String) (directory : Path) : String :=
  spellBelow (spellBelow root [directory.text]) [contextDocumentName]

theorem not_demandsDirectory_context (directory : String) :
    FileTree.demandsDirectory (spellBelow directory [contextDocumentName]) = false :=
  Path.not_demandsDirectory directory (c := 'm') (by decide) (by decide)

theorem not_demandsDirectory_project (root : String) :
    FileTree.demandsDirectory (projectPath root) = false :=
  Path.not_demandsDirectory root (c := 'm') (by decide) (by decide)

/-! ### Generated texts -/

theorem intercalate_cons (separator first : String) : ∀ later : List String, ∃ more,
    String.intercalate separator (first :: later) = first ++ more
  | [] => ⟨"", by rw [String.intercalate_singleton, String.append_empty]⟩
  | next :: later => ⟨separator ++ String.intercalate separator (next :: later), by
      rw [String.intercalate_cons_cons, String.append_assoc]⟩

/-- The document of a module starts with its name. -/
theorem header_of_module (model : ProjectModel) (output : OutputConfig) (index : FileIndex) :
    ∃ rest, (moduleDocument model output index).toList = "@module:".toList ++ rest := by
  refine ⟨(moduleDocument model output index).toList.drop 8, ?_⟩
  simp [moduleDocument, moduleHead, Text.unlines, String.toList_append, String.join, toString]

/-- A document is that of a directory with modules, and starts with the section of one. -/
theorem section_of_document {model : ProjectModel} {output : OutputConfig} {directory : Path}
    {generated : String} (h : (directory, generated) ∈ directoryDocuments model output) :
    (∃ file ∈ model.files, directory = directoryOf file.path) ∧ StartsWithSection generated := by
  obtain ⟨d, listed, eq⟩ := List.mem_map.1 h
  obtain ⟨rfl, rfl⟩ := Prod.mk.inj eq
  obtain ⟨pair, there, rfl⟩ := List.mem_map.1 (mem_sortedSet.1 listed)
  obtain ⟨file, hf, rfl⟩ := List.mem_map.1 there
  refine ⟨⟨file, hf, rfl⟩, ?_⟩
  -- the sections of the directory are not none, and the first is that of a module
  have own : (directoryOf file.path, moduleDocument model output file) ∈
      (model.files.map fun f => (directoryOf f.path, moduleDocument model output f)).filter
        fun section' => section'.1 = directoryOf file.path :=
    List.mem_filter.2 ⟨there, decide_eq_true rfl⟩
  obtain ⟨first, later, sections⟩ := List.exists_cons_of_ne_nil (List.ne_nil_of_mem own)
  have member : first ∈ model.files.map fun f =>
      (directoryOf f.path, moduleDocument model output f) :=
    (List.mem_filter.1 (sections ▸ List.mem_cons_self)).1
  obtain ⟨index, -, rfl⟩ := List.mem_map.1 member
  obtain ⟨rest, header⟩ := header_of_module model output index
  obtain ⟨more, begins⟩ := intercalate_cons "\n" (moduleDocument model output index)
    (later.map Prod.snd)
  have text : (moduleDocument model output index ++ more).toList =
      "@module:".toList ++ (rest ++ more.toList) := by
    rw [String.toList_append, header, List.append_assoc]
  rw [sections, List.map_cons, begins]
  exact startsWithSection_header text

/-- Every document is that of a directory with modules, and starts with a section. -/
theorem directory_of_document {model : ProjectModel} {output : OutputConfig} {directory : Path}
    {generated : String} (h : (directory, generated) ∈ directoryDocuments model output) :
    (∃ file ∈ model.files, directory = directoryOf file.path) ∧
      (splitSections (Text.lines generated)).1 = [] :=
  ⟨(section_of_document h).1, (section_of_document h).2.splitSections⟩

/-- The directory of every module has a document. -/
theorem exists_document {model : ProjectModel} (output : OutputConfig) {file : FileIndex}
    (there : file ∈ model.files) :
    ∃ generated, (directoryOf file.path, generated) ∈ directoryDocuments model output := by
  refine ⟨_, List.mem_map.2 ⟨directoryOf file.path, mem_sortedSet.2 ?_, rfl⟩⟩
  rw [List.map_map]
  exact List.mem_map.2 ⟨file, there, rfl⟩

/-! ### Directories with modules -/

section

variable {s t : FileTree} {places : List Place} {config : Config} {model : ProjectModel}

/-- The file of an index has been read. -/
theorem source_of_file (surveyed : scanOnce s config = some model) {index : FileIndex}
    (there : index ∈ model.files) :
    index.file ∈ (scanInput s config).sources ∧ ∃ r, s.locate index.file.location = .ok r := by
  rw [scanOnce_eq] at surveyed
  rw [(of_assemble surveyed).1] at there
  obtain ⟨placement, placed, eq⟩ := List.mem_filterMap.1 there
  obtain ⟨file, source, rfl⟩ := List.mem_map.1 placed
  rw [placementIn, indexOne] at eq
  split at eq
  · cases eq
  · cases answer : indexBytes file ((s.read file.location).mapError OsError.text) with
    | error => rw [answer] at eq; cases eq
    | ok found =>
        rw [answer] at eq
        cases eq
        obtain ⟨rfl, -⟩ := file_of_indexBytes answer
        refine ⟨source, ?_⟩
        cases leads : s.locate index.file.location with
        | ok r => exact ⟨r, rfl⟩
        | error e =>
            rw [FileTree.read, FileTree.stat, leads] at answer
            obtain ⟨failure, fails⟩ := indexBytes_error index.file e.text
            rw [Except.mapError, fails] at answer
            cases answer

/-- The directory of a file is what stands before its name, or else the root. -/
theorem directoryOf_ofNames (rest : List String) (name : String) :
    directoryOf (.ofNames (rest ++ [name])) = if rest = [] then ⟨[.here]⟩ else .ofNames rest := by
  have above : (Path.ofNames (rest ++ [name])).parent = some (.ofNames rest) := by
    simp [Path.parent, Path.ofNames]
  rw [directoryOf, above]
  cases rest with
  | nil => rfl
  | cons => rfl

/-- A spelled directory leads on to a name where its names below the root do. -/
theorem locate_directory (tree : FileTree) (root : String) {rest : List String}
    (valid : ∀ n ∈ rest, IsName n) (name last : String) :
    tree.locate ⟨(Path.ofText (spellBelow root
        [(directoryOf (.ofNames (rest ++ [name]))).text])).parts ++ [.name last]⟩ =
      tree.locate ⟨(Path.ofText root).parts ++ rest.map .name ++ [.name last]⟩ := by
  rw [directoryOf_ofNames]
  by_cases inRoot : rest = []
  · subst inRoot
    have text : Path.text ⟨[.here]⟩ = "." := by decide
    rw [if_pos rfl, text, List.map_nil, List.append_nil]
    by_cases unspelled : root = ""
    · subst unspelled
      rfl
    · rw [Path.parts_below unspelled, Path.laterParts_here, List.append_nil]
  · rw [if_neg inRoot, Path.text_ofNames, Path.spellBelow_intercalate rest root inRoot valid,
      Path.parts_spellBelow rest root valid]

/-- The names below the root that lead to a directory with modules. -/
theorem names_of_document (sound : s.Sound) {place : Place}
    (root : s.locate (.ofText config.targetDirectory) = .ok (place, some .directory))
    (surveyed : scanOnce s config = some model) {index : FileIndex} (there : index ∈ model.files) :
    ∃ rest name, (∀ n ∈ rest, IsName n) ∧ index.path = .ofNames (rest ++ [name]) ∧
      ∃ r, s.locate ⟨(Path.ofText (spellBelow config.targetDirectory
        [(directoryOf index.path).text])).parts ++ [.name name]⟩ = .ok r := by
  obtain ⟨source, r, leads⟩ := source_of_file surveyed there
  obtain ⟨rest, name, valid, location, path, -⟩ := location_of_source sound root source
  have valid : ∀ n ∈ rest, IsName n := fun n hn => valid n (List.mem_append_left _ hn)
  refine ⟨rest, name, valid, path, r, ?_⟩
  rw [show index.path = _ from path, locate_directory s _ valid, ← location]
  exact leads

/-! ### Writing -/

/-- All the way to a spelled directory there are directories. -/
def Opened (tree : FileTree) (directory : String) : Prop :=
  ∀ n, ∃ q, tree.locate ⟨(Path.ofText directory).parts.take n⟩ = .ok (q, some .directory)

theorem mergeDocument_empty (generated : String) : mergeDocument "" generated = generated := rfl

/-- **Writing the document of a directory** merges it with the text at its place. -/
theorem writeContext_eq (h : Varies places s t) {directory : String} (opened : Opened s directory)
    (known : ∀ q, s.placeFor (.ofText (spellBelow directory [contextDocumentName])) = some q →
      q ∈ places) (generated : String) :
    writeContext t directory generated =
      (s.placeFor (.ofText (spellBelow directory [contextDocumentName]))).bind fun q =>
        (t.textAt q).map fun existing =>
          t.put q (.file (mergeDocument existing generated).toUTF8 t.clock) := by
  have made : t.makeDirectories (Path.ofText directory) = .ok t :=
    FileTree.makeDirectories_of_leads fun n => by
      obtain ⟨q, leads⟩ := opened (n + 1)
      exact ⟨q, h.locate_directory leads⟩
  have file := not_demandsDirectory_context directory
  have write := fun text => FileTree.writeText_eq (t := t) file text
  rw [writeContext, made]
  simp only [Except.toOption, Option.bind_some, write, h.placeFor]
  cases place : s.placeFor (.ofText (spellBelow directory [contextDocumentName])) with
  | none => simp
  | some q =>
      have writable := h.after q (known q place)
      obtain ⟨entry, leads, -, -⟩ := FileTree.placeFor_eq_some_iff.1 place
      obtain ⟨-, leads⟩ := (h.locate _ true).of_ok leads
      rcases writable with nothing | ⟨content, modified, some⟩
      · have noFile : t.isFile (.ofText (spellBelow directory [contextDocumentName])) = false := by
          rw [FileTree.isFile, FileTree.stat, leads, nothing]
        rw [noFile, if_neg (by simp)]
        simp [FileTree.textAt, nothing, mergeDocument_empty]
      · have isFile : t.isFile (.ofText (spellBelow directory [contextDocumentName])) = true := by
          rw [FileTree.isFile, FileTree.stat, leads, some]
        have read : t.readText (spellBelow directory [contextDocumentName]) = t.textAt q := by
          rw [FileTree.readText, FileTree.statText, FileTree.stat, leads, some, FileTree.textAt,
            some]
          dsimp only
          rw [file, if_neg (by simp)]
        rw [isFile, if_pos rfl, read, Option.bind_some]
        cases t.textAt q <;> rfl

/-- A document of a directory below a root that can be written to one of some places, if at all. -/
structure Expected (tree : FileTree) (root : String) (places : List Place) (directory : Path) :
    Prop where
  opened : Opened tree (spellBelow root [directory.text])
  known  : ∀ q, tree.placeFor (.ofText (contextPath root directory)) = some q → q ∈ places

/-- There is a file with a text at a place. -/
def HasText (tree : FileTree) (q : Place) : Prop :=
  ∃ text modified, tree.entryAt q = some (.file (String.toUTF8 text) modified)

/-- What is written is text. -/
theorem HasText.put {q p : Place} (ne : q ≠ []) (text : String) (modified : Nat)
    (h : HasText t p ∨ p = q) : HasText (t.put q (.file text.toUTF8 modified)) p := by
  by_cases same : p = q
  · exact ⟨text, modified, by rw [FileTree.entryAt_put ne, if_pos same]⟩
  · obtain ⟨old, time, there⟩ := h.resolve_right same
    exact ⟨old, time, by rw [FileTree.entryAt_put ne, if_neg same, there]⟩

/-- What a step of writing documents does to the tree: one place gets a merged text. -/
theorem writeContext_eq_some_iff (h : Varies places s t) {root : String} {directory : Path}
    (expected : Expected s root places directory) (generated : String) {t' : FileTree} :
    writeContext t (spellBelow root [directory.text]) generated = some t' ↔
      ∃ q existing, s.placeFor (.ofText (contextPath root directory)) = some q ∧
        t.textAt q = some existing ∧
        t.put q (.file (mergeDocument existing generated).toUTF8 t.clock) = t' := by
  rw [writeContext_eq h expected.opened expected.known, Option.bind_eq_some_iff]
  refine exists_congr fun q => ?_
  rw [Option.map_eq_some_iff, contextPath]
  constructor
  · rintro ⟨place, existing, text, put⟩
    exact ⟨existing, place, text, put⟩
  · rintro ⟨existing, place, text, put⟩
    exact ⟨place, existing, text, put⟩

/-- Text that is there can still be read after another has been written. -/
theorem textAt_isSome_put {q : Place} (ne : q ≠ []) {existing : String}
    (there : t.textAt q = some existing) (text : String) (modified : Nat) (p : Place) :
    ((t.put q (.file text.toUTF8 modified)).textAt p).isSome = (t.textAt p).isSome := by
  rw [FileTree.textAt_put ne]
  by_cases same : p = q
  · rw [if_pos same, same, there]
    rfl
  · rw [if_neg same]

/-- The text at a place after the document of a directory has been written. -/
def mergeAt (tree : FileTree) (root : String) (q : Place) (text : Option String)
    (document : Path × String) : Option String :=
  if tree.placeFor (.ofText (contextPath root document.1)) = some q then
    text.map (mergeDocument · document.2)
  else text

/-- The text at a place after documents of directories have been written. -/
def textAfter (tree : FileTree) (root : String) (q : Place) (text : Option String)
    (documents : List (Path × String)) : Option String :=
  documents.foldl (mergeAt tree root q) text

section

variable {root : String}

/-- What writing documents of directories makes of what has been written before: it changes nothing
but the places, and leaves texts at those of the documents, where texts or nothing were. -/
structure Merges (tree : FileTree) (root : String) (places : List Place)
    (documents : List (Path × String)) (before after : Written) : Prop where
  varies   : Varies places tree after.tree
  paths    : after.paths = before.paths ++ documents.map (fun d => contextPath root d.1)
  texts    : ∀ q, after.tree.textAt q = textAfter tree root q (before.tree.textAt q) documents
  hasText  : ∀ q, (HasText before.tree q ∨
    ∃ d ∈ documents, tree.placeFor (.ofText (contextPath root d.1)) = some q) → HasText after.tree q
  readable : ∀ d ∈ documents, ∃ q, tree.placeFor (.ofText (contextPath root d.1)) = some q ∧
    (before.tree.textAt q).isSome

/-- **Writing documents of directories merges them**, one after another, with the texts at their
places, and changes nothing else. -/
theorem writeContexts_run (documents : List (Path × String)) (w : Written)
    (h : Varies places s w.tree) (expected : ∀ d ∈ documents, Expected s root places d.1)
    (succeeded : (writeContexts root w documents).succeeded) :
    Merges s root places documents w (writeContexts root w documents) := by
  induction documents generalizing w with
  | nil =>
      refine ⟨h, (List.append_nil _).symm, fun _ => rfl, fun q has => ?_, by simp⟩
      rcases has with has | ⟨d, there, -⟩
      · exact has
      · cases there
  | cons document later ih =>
      obtain ⟨directory, generated⟩ := document
      have first := expected _ List.mem_cons_self
      rw [writeContexts] at succeeded ⊢
      cases step : writeContext w.tree (spellBelow root [directory.text]) generated with
      | none =>
          rw [step] at succeeded
          cases succeeded
      | some t' =>
          rw [step] at succeeded
          -- the first document is merged at `q`, and the others go on from there
          obtain ⟨q, existing, place, text, rfl⟩ :=
            (writeContext_eq_some_iff h first generated).1 step
          have there := first.known q place
          have ne := (h.after q there).ne_nil
          have rest := ih _ (h.put there _ _) (fun d hd => expected d (.tail _ hd)) succeeded
          have readable := rest.readable
          simp only [textAt_isSome_put ne text] at readable
          refine ⟨rest.varies, ?_, fun p => ?_, fun p hp => rest.hasText p ?_, fun d hd => ?_⟩
          · rw [rest.paths, List.map_cons, List.append_assoc]
            rfl
          · rw [rest.texts, textAfter, textAfter, List.foldl_cons, mergeAt, place,
              FileTree.textAt_put ne]
            by_cases same : p = q
            · rw [if_pos same, if_pos (by rw [same]), same, text]
              rfl
            · rw [if_neg same, if_neg fun e => same (Option.some.inj e).symm]
          · rcases hp with hp | ⟨d, hd, hp⟩
            · exact .inl (.put ne _ _ (.inl hp))
            · rcases List.mem_cons.1 hd with rfl | hd
              · exact .inl (.put ne _ _ (.inr (Option.some.inj (hp.symm.trans place))))
              · exact .inr ⟨d, hd, hp⟩
          · rcases List.mem_cons.1 hd with rfl | hd
            · exact ⟨q, place, by rw [text]; rfl⟩
            · exact readable d hd

/-- **Where there are texts or nothing, documents are written.** -/
theorem writeContexts_succeeds (documents : List (Path × String)) (w : Written)
    (h : Varies places s w.tree) (expected : ∀ d ∈ documents, Expected s root places d.1)
    (succeeded : w.succeeded)
    (readable : ∀ d ∈ documents, ∃ q, s.placeFor (.ofText (contextPath root d.1)) = some q ∧
      (w.tree.textAt q).isSome) : (writeContexts root w documents).succeeded := by
  induction documents generalizing w with
  | nil => exact succeeded
  | cons document later ih =>
      obtain ⟨directory, generated⟩ := document
      have first := expected _ List.mem_cons_self
      obtain ⟨q, place, some⟩ := readable _ List.mem_cons_self
      obtain ⟨existing, text⟩ := Option.isSome_iff_exists.1 some
      have step := (writeContext_eq_some_iff h first generated).2 ⟨q, existing, place, text, rfl⟩
      have there := first.known q place
      rw [writeContexts, step]
      refine ih _ (h.put there _ _) (fun d hd => expected d (.tail _ hd)) succeeded ?_
      simp only [textAt_isSome_put (h.after q there).ne_nil text]
      exact fun d hd => readable d (.tail _ hd)

/-! ### All documents -/

/-- The documents of a project, each of which can be written, if anywhere, to one of some places. -/
structure AllExpected (tree : FileTree) (root : String) (places : List Place)
    (documents : List (Path × String)) : Prop where
  project  : ∀ q, tree.placeFor (.ofText (projectPath root)) = some q → q ∈ places
  contexts : ∀ d ∈ documents, Expected tree root places d.1

/-- Writing starts with the document of the project, and goes on if that could be written. -/
theorem writeDocuments_eq (h : Varies places s t) (root : String) (model : ProjectModel)
    (output : OutputConfig) (project : ProjectDocument) :
    writeDocuments t root model output project =
      match s.placeFor (.ofText (projectPath root)) with
      | none   => ⟨t, [], false⟩
      | some p =>
        writeContexts root ⟨t.put p (.file project.text.toUTF8 t.clock), [projectPath root], true⟩
          (directoryDocuments model output) := by
  have file := not_demandsDirectory_project root
  rw [writeDocuments, ← projectPath, FileTree.writeText_eq file, h.placeFor]
  cases s.placeFor (.ofText (projectPath root)) <;> rfl

variable {output : OutputConfig} {project : ProjectDocument}

/-- What writing the documents of a project leaves in a tree that differs from the first in nothing
but some places: the text of the project at its place, and those of directories merged at theirs. -/
structure Writes (s t : FileTree) (root : String) (places : List Place) (text : String)
    (documents : List (Path × String)) (p : Place) (w : Written) : Prop where
  varies   : Varies places s w.tree
  paths    : w.paths = projectPath root :: documents.map (fun d => contextPath root d.1)
  texts    : ∀ q, w.tree.textAt q =
    textAfter s root q (if q = p then some text else t.textAt q) documents
  hasText  : ∀ path ∈ projectPath root :: documents.map (fun d => contextPath root d.1),
    ∀ q, s.placeFor (.ofText path) = some q → HasText w.tree q
  readable : ∀ d ∈ documents, ∃ q, s.placeFor (.ofText (contextPath root d.1)) = some q ∧
    (q = p ∨ (t.textAt q).isSome)

/-- **Writing the documents of a project** puts the project document at its place, and then merges
the documents of directories with the texts at theirs. -/
theorem writeDocuments_run (h : Varies places s t)
    (expected : AllExpected s root places (directoryDocuments model output))
    (succeeded : (writeDocuments t root model output project).succeeded) :
    ∃ p, s.placeFor (.ofText (projectPath root)) = some p ∧
      Writes s t root places project.text (directoryDocuments model output) p
        (writeDocuments t root model output project) := by
  have eq := writeDocuments_eq h root model output project
  cases place : s.placeFor (.ofText (projectPath root)) with
  | none =>
      rw [place] at eq
      rw [eq] at succeeded
      cases succeeded
  | some p =>
      rw [place] at eq
      rw [eq] at succeeded ⊢
      have there := expected.project p place
      have ne := (h.after p there).ne_nil
      have put := FileTree.textAt_put (t := t) ne project.text t.clock
      obtain ⟨varies, paths, texts, has, readable⟩ := writeContexts_run _ _ (h.put there _ _)
        expected.contexts succeeded
      refine ⟨p, rfl, varies, paths, fun q => ?_, fun path listed q own => has q ?_, fun d hd => ?_⟩
      · rw [texts q, put q]
      · rcases List.mem_cons.1 listed with rfl | listed
        · exact .inl (.put ne _ _ (.inr (Option.some.inj (own.symm.trans place))))
        · obtain ⟨d, hd, rfl⟩ := List.mem_map.1 listed
          exact .inr ⟨d, hd, own⟩
      · obtain ⟨q, own, some⟩ := readable d hd
        refine ⟨q, own, ?_⟩
        by_cases same : q = p
        · exact .inl same
        · rw [put q, if_neg same] at some
          exact .inr some

/-- **All documents are written** if there is a place for each, and text where one is. -/
theorem writeDocuments_succeeds (h : Varies places s t)
    (expected : AllExpected s root places (directoryDocuments model output)) {p : Place}
    (place : s.placeFor (.ofText (projectPath root)) = some p)
    (readable : ∀ d ∈ directoryDocuments model output, ∃ q,
      s.placeFor (.ofText (contextPath root d.1)) = some q ∧ (t.textAt q).isSome) :
    (writeDocuments t root model output project).succeeded := by
  have there := expected.project p place
  have ne := (h.after p there).ne_nil
  rw [writeDocuments_eq h, place]
  refine writeContexts_succeeds _ _ (h.put there _ _) expected.contexts rfl fun d hd => ?_
  obtain ⟨q, own, some⟩ := readable d hd
  refine ⟨q, own, ?_⟩
  rw [FileTree.textAt_put ne]
  split
  · rfl
  · exact some

end

end

end CodeSurvey
