import CodeSurvey.Proofs.FileTree.Expansion
import CodeSurvey.Proofs.Survey.Discovery

/-!
# The files of a project

Which files a project has. The walk looks at a directory once, when it comes to it, and at a file
when it meets it; a file is one of the project's if it and all directories on the way to it pass.

* `Eligible`: what a configuration asks of a path.
* `Surveyed`: a part of the walk gives a file or a diagnostic for the right files, in the order of
  their paths.
* `Surveyed.flatMap`: names in order give paths in order.
* `walkFrom_surveyed`: every walk with enough fuel is of this kind, and `walk_surveyed` that the
  walk of a project has enough.
* `discoveryFor_run`: so discovery finds the eligible files.
-/

namespace CodeSurvey

/-! ### What is asked of a path -/

/-- An exclusion pattern matches a path below the root: by its last name if the pattern has no slash
before its end, else as a whole. -/
def Config.Excludes (config : Config) (names : List String) : Prop :=
  ∃ pattern ∈ config.excludePatterns, ∃ tokens,
    Glob.parse (dropSlashesEnd pattern) = some tokens ∧
      Glob.matchesText false tokens
        (if '/' ∈ (dropSlashesEnd pattern).toList then String.intercalate "/" names
          else names.getLastD "") = true

/-- A path below the root is that of a source file if it has one of the extensions, and if nothing
on the way speaks against it or the directories above it. -/
structure Eligible (tree : FileTree) (config : Config) (names : List String) : Prop where
  extension     : ∃ text, (Path.ofNames names).extension = some text ∧
    Text.lower text ∈ config.fileExtensions
  notExcluded   : ∀ above, above ≠ [] → above <+: names → ¬ config.Excludes above
  notIgnored    : ∀ above, above ≠ [] → above <+: names →
    isIgnored (ignoreRules tree config) (above ≠ names) above.reverse = false
  noEnvironment : ∀ above, above ≠ [] → above <+: names → above ≠ names →
    tree.isFile ((Path.ofText (Path.spellBelow config.targetDirectory above)).child "pyvenv.cfg") =
      false

/-- A file below the root of a project, with its size. -/
def Config.HasFile (config : Config) (tree : FileTree) (names : List String) (size : Nat) : Prop :=
  ∃ place, tree.statText config.targetDirectory = .ok (place, .directory) ∧
    tree.HoldsFile config.followLinks [] place names size

theorem Config.HasFile.ne_nil {config : Config} {tree : FileTree} {names : List String} {size : Nat}
    (h : config.HasFile tree names size) : names ≠ [] := by
  obtain ⟨place, -, held⟩ := h
  exact held.ne_nil

theorem Config.HasFile.unique {config : Config} {tree : FileTree} {names : List String}
    {size size' : Nat} (h : config.HasFile tree names size) (h' : config.HasFile tree names size') :
    size = size' := by
  obtain ⟨place, there, held⟩ := h
  obtain ⟨place', there', held'⟩ := h'
  cases there.symm.trans there'
  exact held.unique held'

namespace Discovery

variable (discovery : Discovery) (tree : FileTree)

/-- The source file of an entry. -/
def sourceAt (names : List String) (size : Nat) : SourceFile :=
  { location := discovery.pathTo names
    path     := .ofNames names
    size
    language := .ofExtension ((Path.ofNames names).extension.map Text.lower)
    isTest   := discovery.isTestPath (.ofNames names) }

/-- The diagnostic of an entry that is too large. -/
def oversized (names : List String) (size : Nat) : Diagnostic :=
  .skipped (String.intercalate "/" names)
    s!"{size} bytes exceeds max_file_size {discovery.config.maxFileSize}"

/-- Whether an entry is taken for a source file, large or not. -/
def takes (names : List String) : Bool :=
  !(discovery.isExcluded (names.getLastD "") (String.intercalate "/" names) ||
    discovery.ignores names false) &&
  ((Path.ofNames names).extension.map Text.lower).any discovery.config.fileExtensions.contains

/-- What comes of a source file. -/
def verdict (names : List String) (size : Nat) : Discovered :=
  if discovery.config.maxFileSize < size then .skipped (discovery.oversized names size)
  else .file (discovery.sourceAt names size)

theorem fileEntry_eq (names : List String) (size : Nat) : discovery.fileEntry names size =
    if discovery.takes names then some (discovery.verdict names size) else none := by
  rw [fileEntry, takes]
  split
  · rename_i out
    rw [out]
    rfl
  · rename_i out
    rw [Bool.not_eq_true] at out
    rw [out]
    rcases Option.eq_none_or_eq_some (Path.ofNames names).extension with none | ⟨text, extension⟩
    · simp only [none]
      rfl
    · simp only [extension, Option.map_some, Option.any_some, Bool.not_false, Bool.true_and]
      cases discovery.config.fileExtensions.contains (Text.lower text) with
      | false => rfl
      | true =>
          rw [if_neg (by simp), if_pos rfl, verdict, apply_ite some, sourceAt, extension]
          rfl

/-- The path below a directory is that of a source file if the walk enters the directories on the
way and takes the file. -/
def Admits (names rest : List String) : Prop :=
  (∀ above, above ≠ [] → above <+: rest → above ≠ rest →
    discovery.isPruned tree (names ++ above) = false) ∧ discovery.takes (names ++ rest) = true

section

variable {discovery tree} {names rest : List String} {name : String}

theorem admits_singleton :
    discovery.Admits tree names [name] ↔ discovery.takes (names ++ [name]) = true := by
  refine and_iff_right ?_
  intro above some here proper
  rcases List.prefix_cons_iff.1 here with rfl | ⟨later, rfl, there⟩
  · exact absurd rfl some
  · rw [List.prefix_nil.1 there] at proper
    exact absurd rfl proper

/-- Behind a name is what the walk enters the directory for. -/
theorem admits_cons (more : rest ≠ []) : discovery.Admits tree names (name :: rest) ↔
    discovery.isPruned tree (names ++ [name]) = false ∧
      discovery.Admits tree (names ++ [name]) rest := by
  have shift : ∀ later, names ++ name :: later = names ++ [name] ++ later := by simp
  rw [Admits, Admits, shift, ← and_assoc]
  refine and_congr_left fun _ => ⟨fun enters => ⟨?_, ?_⟩, ?_⟩
  · exact enters [name] (by simp) (by simp) (by simpa using more.symm)
  · intro above some here proper
    rw [← shift]
    exact enters (name :: above) (by simp) (by simpa using here) (by simpa using proper)
  · rintro ⟨first, enters⟩ above some here proper
    rcases List.prefix_cons_iff.1 here with rfl | ⟨later, rfl, there⟩
    · exact absurd rfl some
    · by_cases last : later = []
      · rw [last]
        exact first
      · rw [shift]
        exact enters later last there (by simpa using proper)

end

/-! ### Parts of the walk -/

/-- What the walk meets is a source file, or one that is too large. -/
def Discovered.isSource : Discovered → Bool
  | .file _    => true
  | .skipped d => d.kind = .skippedFile

@[simp] theorem isSource_verdict (names : List String) (size : Nat) :
    (discovery.verdict names size).isSource = true := by
  rw [verdict]
  split <;> rfl

/-- The walk below a directory, from the files that are there: those that it admits give a file or a
diagnostic, in the order of their paths. -/
structure Surveyed (names : List String) (holds : List String → Nat → Prop)
    (files : List (List String × Nat)) (met : List Discovered) : Prop where
  ordered  : files.Pairwise fun a b => (Path.ofNames a.1).order (.ofNames b.1) = .lt
  complete : ∀ rest size, (rest, size) ∈ files ↔ holds rest size ∧ discovery.Admits tree names rest
  listed   : met.filter Discovered.isSource =
    files.map fun file => discovery.verdict (names ++ file.1) file.2

section

variable {discovery tree} {names : List String} {name : String} {met : List Discovered}
  {holds : List String → Nat → Prop}

theorem Surveyed.nil (no : ∀ rest size, holds rest size → ¬ discovery.Admits tree names rest)
    (none : met.filter Discovered.isSource = []) :
    discovery.Surveyed tree names holds [] met where
  ordered := .nil
  complete rest size := by
    refine iff_of_false List.not_mem_nil ?_
    rintro ⟨there, admitted⟩
    exact no rest size there admitted
  listed := none

/-- A file is the only one at its name. -/
theorem Surveyed.file {size : Nat}
    (only : ∀ rest s, holds rest s ↔ rest = [name] ∧ s = size) :
    ∃ files, discovery.Surveyed tree names holds files
      (discovery.fileEntry (names ++ [name]) size).toList := by
  rw [fileEntry_eq]
  split
  · rename_i taken
    refine ⟨[([name], size)], List.pairwise_singleton .., fun rest s => ?_, ?_⟩
    · rw [List.mem_singleton, Prod.mk.injEq, only]
      refine (and_iff_left_of_imp ?_).symm
      rintro ⟨rfl, -⟩
      exact admits_singleton.2 taken
    · simp
  · rename_i out
    refine ⟨[], .nil ?_ rfl⟩
    intro rest s there admitted
    obtain ⟨rfl, -⟩ := (only rest s).1 there
    exact out (admits_singleton.1 admitted)

theorem order_ofNames_cons (a b : String) (as bs : List String) :
    (Path.ofNames (a :: as)).order (.ofNames (b :: bs)) =
      (compare a b).then ((Path.ofNames as).order (.ofNames bs)) := rfl

/-- What is below a directory that is entered is below its name. -/
theorem Surveyed.enter {inner : List String → Nat → Prop} {files : List (List String × Nat)}
    (entered : discovery.isPruned tree (names ++ [name]) = false)
    (below : discovery.Surveyed tree (names ++ [name]) inner files met)
    (some : ∀ rest size, inner rest size → rest ≠ [])
    (only : ∀ rest size, holds rest size ↔ ∃ later, rest = name :: later ∧ inner later size) :
    discovery.Surveyed tree names holds (files.map fun file => (name :: file.1, file.2)) met where
  ordered := by
    rw [List.pairwise_map]
    refine below.ordered.imp ?_
    intro a b lt
    have same : compare name name = .eq := Std.ReflCmp.compare_self
    rw [order_ofNames_cons, same]
    exact lt
  complete rest size := by
    rw [List.mem_map]
    constructor
    · rintro ⟨⟨later, size⟩, there, eq⟩
      cases eq
      obtain ⟨held, admitted⟩ := (below.complete later size).1 there
      exact ⟨(only _ _).2 ⟨later, rfl, held⟩, (admits_cons (some _ _ held)).2 ⟨entered, admitted⟩⟩
    · rintro ⟨there, admitted⟩
      obtain ⟨later, rfl, held⟩ := (only rest size).1 there
      obtain ⟨-, admitted⟩ := (admits_cons (some _ _ held)).1 admitted
      exact ⟨(later, size), (below.complete later size).2 ⟨held, admitted⟩, rfl⟩
  listed := by
    rw [below.listed, List.map_map]
    simp

/-- **Names in order give paths in order.** -/
theorem Surveyed.flatMap {entries : List String} {f : String → List Discovered}
    (sorted : entries.Pairwise fun a b => compare a b = .lt)
    (first : ∀ rest size, holds rest size → ∃ name ∈ entries, rest.head? = some name)
    (each : ∀ name ∈ entries, ∃ files, discovery.Surveyed tree names
      (fun rest size => rest.head? = some name ∧ holds rest size) files (f name)) :
    ∃ files, discovery.Surveyed tree names holds files (entries.flatMap f) := by
  choose! files each using each
  refine ⟨entries.flatMap files, ?_, fun rest size => ?_, ?_⟩
  · rw [List.pairwise_flatMap]
    refine ⟨fun name there => (each name there).ordered, sorted.imp_of_mem ?_⟩
    rintro a b hereA hereB lt ⟨x, s⟩ inA ⟨y, t⟩ inB
    obtain ⟨⟨headA, -⟩, -⟩ := ((each a hereA).complete x s).1 inA
    obtain ⟨⟨headB, -⟩, -⟩ := ((each b hereB).complete y t).1 inB
    -- the two paths differ in the first name
    obtain ⟨xs, rfl⟩ := List.head?_eq_some_iff.1 headA
    obtain ⟨ys, rfl⟩ := List.head?_eq_some_iff.1 headB
    rw [order_ofNames_cons, lt]
    rfl
  · rw [List.mem_flatMap]
    constructor
    · rintro ⟨name, here, there⟩
      obtain ⟨⟨-, held⟩, admitted⟩ := ((each name here).complete rest size).1 there
      exact ⟨held, admitted⟩
    · rintro ⟨held, admitted⟩
      obtain ⟨name, here, head⟩ := first rest size held
      exact ⟨name, here, ((each name here).complete rest size).2 ⟨⟨head, held⟩, admitted⟩⟩
  · rw [List.filter_flatMap, List.map_flatMap]
    exact List.flatMap_congr fun name here => (each name here).listed

end

/-! ### The walk -/

section

variable {discovery tree} {above : List (Place × List String)} {place : Place}
  {names : List String} {name : String} {enter : Place → List Discovered}

/-- **What the walk meets at a name** is the file or the directory that the name shows, if it shows
one of them, and no source file otherwise. -/
theorem meet_cases (above : List (Place × List String)) (place : Place) (names : List String)
    (name : String) (enter : Place → List Discovered) :
    (∃ target content modified,
      tree.Shows discovery.config.followLinks (above.map Prod.fst) place name target
        (.file content modified) ∧
      discovery.meet tree ((place, names) :: above) place names name enter =
        (discovery.fileEntry (names ++ [name]) content.size).toList) ∨
    (∃ target,
      tree.Shows discovery.config.followLinks (above.map Prod.fst) place name target .directory ∧
      discovery.meet tree ((place, names) :: above) place names name enter = enter target) ∨
    ((∀ target entry, tree.Shows discovery.config.followLinks (above.map Prod.fst) place name target
        entry → ∃ text, entry = .link text) ∧
      (discovery.meet tree ((place, names) :: above) place names name enter).filter
        Discovered.isSource = []) := by
  rw [meet]
  split
  · rename_i nothing
    refine .inr (.inr ⟨?_, rfl⟩)
    intro target entry shown
    cases shown with
    | entry there | link there =>
        rw [nothing] at there
        cases there
  · rename_i there
    exact .inr (.inl ⟨_, .entry there (by simp), rfl⟩)
  · rename_i there
    exact .inl ⟨_, _, _, .entry there (by simp), rfl⟩
  · rename_i text there
    split
    · rename_i off
      refine .inr (.inr ⟨?_, rfl⟩)
      intro target entry shown
      rw [(shown.of_link there).1] at off
      cases off
    · rename_i on
      have on : discovery.config.followLinks = true := by simpa using on
      -- a link shows what following it gives
      split
      · rename_i e leads
        refine .inr (.inr ⟨?_, rfl⟩)
        intro target entry shown
        cases leads.symm.trans (shown.of_link there).2.1
      · rename_i leads
        refine .inr (.inr ⟨?_, rfl⟩)
        intro target entry shown
        cases leads.symm.trans (shown.of_link there).2.1
      · rename_i leads
        exact .inl ⟨_, _, _, .link there on leads (by simp), rfl⟩
      · rename_i leads
        refine .inr (.inr ⟨?_, rfl⟩)
        intro target entry shown
        cases leads.symm.trans (shown.of_link there).2.1
        exact ⟨_, rfl⟩
      · rename_i target leads
        split
        · rename_i ancestor _ found
          refine .inr (.inr ⟨?_, rfl⟩)
          intro target entry shown
          obtain ⟨-, same, leaves⟩ := shown.of_link there
          cases leads.symm.trans same
          have same : ancestor = target := by simpa using List.find?_some found
          have inside := List.mem_map_of_mem (f := Prod.fst) (List.mem_of_find?_eq_some found)
          rw [same] at inside
          exact absurd inside (leaves rfl)
        · rename_i new
          refine .inr (.inl ⟨target, .link there on leads fun _ back => ?_, rfl⟩)
          obtain ⟨ancestor, inside, same⟩ : ∃ ancestor ∈ (place, names) :: above,
            ancestor.1 = target := List.mem_map.1 back
          simpa [same] using List.find?_eq_none.1 new ancestor inside

/-- A name admits what it shows: a file if the walk takes it, what is below a directory if the walk
enters it. -/
theorem meet_surveyed (below : ∀ target,
      tree.Shows discovery.config.followLinks (above.map Prod.fst) place name target .directory →
      ∃ files, discovery.Surveyed tree (names ++ [name])
        (tree.HoldsFile discovery.config.followLinks (place :: above.map Prod.fst) target) files
        (enter target)) :
    ∃ files, discovery.Surveyed tree names (fun rest size => rest.head? = some name ∧
        tree.HoldsFile discovery.config.followLinks (above.map Prod.fst) place rest size) files
      (discovery.meet tree ((place, names) :: above) place names name fun target =>
        if discovery.isPruned tree (names ++ [name]) then [] else enter target) := by
  obtain ⟨target, content, modified, shown, eq⟩ | ⟨target, shown, eq⟩ | ⟨links, eq⟩ :=
    meet_cases above place names name fun target =>
      if discovery.isPruned tree (names ++ [name]) then [] else enter target
  · rw [eq]
    refine Surveyed.file fun rest size => ?_
    rw [List.head?_eq_some_iff]
    constructor
    · rintro ⟨⟨later, rfl⟩, held⟩
      obtain ⟨rfl, rfl⟩ := shown.holdsFile_iff.1 held
      exact ⟨rfl, rfl⟩
    · rintro ⟨rfl, rfl⟩
      exact ⟨⟨[], rfl⟩, .file shown⟩
  · rw [eq]
    by_cases pruned : discovery.isPruned tree (names ++ [name]) = true
    · rw [if_pos pruned]
      refine ⟨[], .nil ?_ rfl⟩
      rintro rest size ⟨head, held⟩ admitted
      obtain ⟨later, rfl⟩ := List.head?_eq_some_iff.1 head
      have inner := shown.holdsFile_cons_iff.1 held
      rw [((admits_cons inner.ne_nil).1 admitted).1] at pruned
      cases pruned
    · rw [if_neg pruned]
      obtain ⟨files, surveyed⟩ := below target shown
      refine ⟨_, surveyed.enter (by simpa using pruned) (fun _ _ held => held.ne_nil) ?_⟩
      intro rest size
      rw [List.head?_eq_some_iff]
      constructor
      · rintro ⟨⟨later, rfl⟩, held⟩
        exact ⟨later, rfl, shown.holdsFile_cons_iff.1 held⟩
      · rintro ⟨later, rfl, held⟩
        exact ⟨⟨later, rfl⟩, .inside shown held⟩
  · refine ⟨[], .nil ?_ eq⟩
    rintro rest size ⟨head, held⟩ -
    obtain ⟨later, rfl⟩ := List.head?_eq_some_iff.1 head
    exact FileTree.not_holdsFile_cons links held

/-- **With enough fuel, the walk below a directory gives what is there.** -/
theorem walkFrom_surveyed (discovery : Discovery) (tree : FileTree) :
    ∀ (fuel : Nat) (above : List (Place × List String)) (place : Place) (names : List String),
      tree.room (above.map Prod.fst) place < fuel → ∃ files, discovery.Surveyed tree names
        (tree.HoldsFile discovery.config.followLinks (above.map Prod.fst) place) files
        (discovery.walkFrom tree fuel above place names)
  | fuel + 1, above, place, names, enough => by
      rw [walkFrom_succ]
      refine Surveyed.flatMap (pairwise_sortedSet _) (fun rest size held => held.head) ?_
      intro name _
      refine meet_surveyed fun target shown => ?_
      refine walkFrom_surveyed discovery tree fuel ((place, names) :: above) target _ ?_
      exact Nat.lt_of_lt_of_le shown.room_lt (Nat.le_of_lt_succ enough)

/-- The depth that the walk is given is enough. -/
theorem room_lt_depthBound (tree : FileTree) (place : Place) :
    tree.room [] place < depthBound tree := by
  have fewer := Nat.mul_le_mul_right (tree.longest + 1) (tree.card_unseen_le [place])
  calc tree.room [] place
      < (tree.directories.length + 1) * (tree.longest + 1) + (tree.longest + 1) := by
        rw [FileTree.room]
        omega
    _ = (tree.directories.length + 2) * (tree.longest + 1) := (Nat.succ_mul ..).symm
    _ ≤ depthBound tree := Nat.mul_le_mul_left _ (Nat.le_succ _)

/-- **The walk of a project gives the files below its root.** -/
theorem walk_surveyed (discovery : Discovery) (tree : FileTree) : ∃ files,
    discovery.Surveyed tree [] (discovery.config.HasFile tree) files (discovery.walk tree) := by
  rw [walk]
  split
  · rename_i e refused
    refine ⟨[], .nil ?_ rfl⟩
    rintro rest size ⟨place, there, -⟩ -
    cases refused.symm.trans there
  · rename_i place there
    obtain ⟨files, surveyed⟩ := discovery.walkFrom_surveyed tree (depthBound tree) []
      place [] (room_lt_depthBound tree place)
    refine ⟨files, surveyed.ordered, fun rest size => ?_, surveyed.listed⟩
    rw [surveyed.complete]
    refine and_congr_left fun _ => ⟨fun held => ⟨place, there, held⟩, ?_⟩
    rintro ⟨place', there', held⟩
    cases there.symm.trans there'
    exact held
  · rename_i found no there
    refine ⟨[], .nil ?_ rfl⟩
    rintro rest size ⟨place, there', -⟩ -
    cases there.symm.trans there'
    exact no place rfl

/-- What is taken out of source files only is taken out of what comes of the files. -/
theorem Surveyed.filterMap {α : Type} {names : List String} {holds : List String → Nat → Prop}
    {files : List (List String × Nat)} {met : List Discovered}
    (h : discovery.Surveyed tree names holds files met) {get : Discovered → Option α}
    (only : ∀ d, d.isSource = false → get d = none) :
    met.filterMap get =
      files.filterMap fun file => get (discovery.verdict (names ++ file.1) file.2) := by
  have kept : met.filterMap get = (met.filter Discovered.isSource).filterMap get := by
    rw [List.filterMap_filter]
    refine List.filterMap_congr fun d _ => ?_
    split
    · rfl
    · rename_i other
      exact only d (by simpa using other)
  rw [kept, h.listed, List.filterMap_map]
  rfl

/-- The files of the walk are those that are not too large. -/
theorem Surveyed.run_fst {files : List (List String × Nat)}
    (h : discovery.Surveyed tree [] (discovery.config.HasFile tree) files (discovery.walk tree)) :
    (discovery.run tree).1 = (files.filter fun file => file.2 ≤ discovery.config.maxFileSize).map
      fun file => discovery.sourceAt file.1 file.2 := by
  have only : ∀ d : Discovered, d.isSource = false → d.source? = none := by
    intro d other
    cases d with
    | file => cases other
    | skipped => rfl
  have found : (discovery.run tree).1 = (discovery.walk tree).filterMap Discovered.source? := rfl
  rw [found, h.filterMap only, ← List.filterMap_eq_map, List.filterMap_filter]
  refine List.filterMap_congr fun file _ => ?_
  rw [verdict, List.nil_append]
  by_cases large : discovery.config.maxFileSize < file.2
  · rw [if_pos large, if_neg (by simpa using large)]
    rfl
  · rw [if_neg large, if_pos (by simpa using large)]
    rfl

/-- The diagnostic of something that is left out for its size. -/
def Discovered.tooLarge? : Discovered → Option Diagnostic
  | .file _    => none
  | .skipped d => if d.kind = .skippedFile then some d else none

/-- The diagnostics of the walk about source files are those of the files that are too large. -/
theorem Surveyed.run_snd {files : List (List String × Nat)}
    (h : discovery.Surveyed tree [] (discovery.config.HasFile tree) files (discovery.walk tree)) :
    (discovery.run tree).2.filter (fun d => d.kind = .skippedFile) =
      (files.filter fun file => discovery.config.maxFileSize < file.2).map
        fun file => discovery.oversized file.1 file.2 := by
  have only : ∀ d : Discovered, d.isSource = false → d.tooLarge? = none := by
    intro d other
    cases d with
    | file => rfl
    | skipped d => exact if_neg (by simpa [Discovered.isSource] using other)
  have found : (discovery.run tree).2.filter (fun d => d.kind = .skippedFile) =
      (discovery.walk tree).filterMap Discovered.tooLarge? := by
    rw [run, List.filter_filterMap]
    refine List.filterMap_congr fun d _ => ?_
    cases d with
    | file => rfl
    | skipped d => simp [Discovered.tooLarge?, Option.filter]
  rw [found, h.filterMap only, ← List.filterMap_eq_map, List.filterMap_filter]
  refine List.filterMap_congr fun file _ => ?_
  rw [verdict, List.nil_append]
  by_cases large : discovery.config.maxFileSize < file.2
  · rw [if_pos large, if_pos (by simpa using large)]
    rfl
  · rw [if_neg large, if_neg (by simpa using large)]
    rfl

end

/-! ### What the configuration says -/

section

variable {tree : FileTree} {config : Config} {names : List String}

theorem matchesAny_readableGlobs {patterns : List String} {text : String} :
    matchesAny (readableGlobs patterns) text = true ↔ ∃ pattern ∈ patterns, ∃ tokens,
      Glob.parse pattern = some tokens ∧ Glob.matchesText false tokens text = true := by
  simp only [matchesAny, readableGlobs, List.any_eq_true, List.mem_filterMap]
  constructor
  · rintro ⟨tokens, ⟨pattern, there, parsed⟩, found⟩
    exact ⟨pattern, there, tokens, parsed, found⟩
  · rintro ⟨pattern, there, tokens, parsed, found⟩
    exact ⟨tokens, ⟨pattern, there, parsed⟩, found⟩

theorem isExcluded_iff {rules : List IgnoreRule} :
    (ofConfig config rules).isExcluded (names.getLastD "") (String.intercalate "/" names) = true ↔
      config.Excludes names := by
  rw [isExcluded, Bool.or_eq_true, ofConfig, matchesAny_readableGlobs, matchesAny_readableGlobs]
  simp only [List.mem_filter, List.mem_map]
  constructor
  · rintro (⟨_, ⟨⟨pattern, there, rfl⟩, plain⟩, tokens, parsed, found⟩ |
      ⟨_, ⟨⟨pattern, there, rfl⟩, slashed⟩, tokens, parsed, found⟩)
    · refine ⟨pattern, there, tokens, parsed, ?_⟩
      rwa [if_neg (by simpa using plain)]
    · refine ⟨pattern, there, tokens, parsed, ?_⟩
      rwa [if_pos (by simpa using slashed)]
  · rintro ⟨pattern, there, tokens, parsed, found⟩
    split at found
    · rename_i slashed
      exact .inr ⟨_, ⟨⟨pattern, there, rfl⟩, by simpa using slashed⟩, tokens, parsed, found⟩
    · rename_i plain
      exact .inl ⟨_, ⟨⟨pattern, there, rfl⟩, by simpa using plain⟩, tokens, parsed, found⟩

theorem isIgnored_nil (isDirectory : Bool) (names : List String) :
    isIgnored [] isDirectory names = false := by
  induction names generalizing isDirectory with
  | nil => rfl
  | cons name above ih => exact ih true

theorem ignores_eq (discovery : Discovery) (names : List String) (isDirectory : Bool) :
    discovery.ignores names isDirectory =
      isIgnored discovery.rules isDirectory names.reverse := by
  rw [ignores]
  cases discovery.rules with
  | nil => rw [isIgnored_nil, Bool.and_false]
  | cons => rfl

/-- When a directory is entered. -/
theorem isPruned_eq_false_iff : (discoveryFor tree config).isPruned tree names = false ↔
    ¬ config.Excludes names ∧
      tree.isFile
        ((Path.ofText (Path.spellBelow config.targetDirectory names)).child "pyvenv.cfg") = false ∧
      isIgnored (ignoreRules tree config) true names.reverse = false := by
  rw [isPruned, Bool.or_eq_false_iff, Bool.or_eq_false_iff, ignores_eq, ← Bool.not_eq_true,
    discoveryFor, isExcluded_iff, and_assoc]
  rfl

/-- When a file is taken. -/
theorem takes_iff : (discoveryFor tree config).takes names = true ↔
    ¬ config.Excludes names ∧ isIgnored (ignoreRules tree config) false names.reverse = false ∧
      ∃ text, (Path.ofNames names).extension = some text ∧
        Text.lower text ∈ config.fileExtensions := by
  rw [takes, Bool.and_eq_true, Bool.not_eq_true', Bool.or_eq_false_iff, ignores_eq,
    ← Bool.not_eq_true, discoveryFor, isExcluded_iff, and_assoc]
  simp [ofConfig, Option.any_eq_true]

/-- **The walk admits the eligible paths.** -/
theorem admits_iff (some : names ≠ []) :
    (discoveryFor tree config).Admits tree [] names ↔ Eligible tree config names := by
  rw [Admits, List.nil_append, takes_iff]
  simp only [List.nil_append, isPruned_eq_false_iff]
  constructor
  · rintro ⟨enters, notExcluded, notIgnored, extension⟩
    refine ⟨extension, ?_, ?_, ?_⟩
    · intro above nonempty here
      by_cases last : above = names
      · rw [last]
        exact notExcluded
      · exact (enters above nonempty here last).1
    · intro above nonempty here
      by_cases last : above = names
      · simpa [last] using notIgnored
      · simpa [last] using (enters above nonempty here last).2.2
    · intro above nonempty here proper
      exact (enters above nonempty here proper).2.1
  · intro eligible
    refine ⟨?_, eligible.notExcluded names some List.prefix_rfl, ?_, eligible.extension⟩
    · intro above nonempty here proper
      refine ⟨eligible.notExcluded above nonempty here,
        eligible.noEnvironment above nonempty here proper, ?_⟩
      simpa [proper] using eligible.notIgnored above nonempty here
    · simpa using eligible.notIgnored names some List.prefix_rfl

end

end Discovery

/-- **Discovery finds the eligible files**, in the order of their paths. Those that are too large
give a diagnostic each and no file. -/
theorem discoveryFor_run (tree : FileTree) (config : Config) :
    let discovery := discoveryFor tree config
    let found := discovery.run tree
    (found.1.Pairwise fun a b => a.path.order b.path = .lt) ∧
    (∀ source, source ∈ found.1 ↔ ∃ names size, config.HasFile tree names size ∧
      Eligible tree config names ∧ size ≤ config.maxFileSize ∧
      source = discovery.sourceAt names size) ∧
    ∃ large : List (List String × Nat),
      (large.Pairwise fun a b => (Path.ofNames a.1).order (.ofNames b.1) = .lt) ∧
      (∀ names size, (names, size) ∈ large ↔ config.HasFile tree names size ∧
        Eligible tree config names ∧ config.maxFileSize < size) ∧
      (found.2.filter fun d => d.kind = .skippedFile) =
        large.map (fun file => discovery.oversized file.1 file.2) ∧
      ∀ file ∈ large, ∀ source ∈ found.1, source.path ≠ .ofNames file.1 := by
  intro discovery found
  obtain ⟨files, surveyed⟩ := discovery.walk_surveyed tree
  have listed : ∀ names size, (names, size) ∈ files ↔
      config.HasFile tree names size ∧ Eligible tree config names := by
    intro names size
    rw [surveyed.complete]
    exact and_congr_right fun there => Discovery.admits_iff there.ne_nil
  have sources : ∀ source, source ∈ found.1 ↔ ∃ names size, config.HasFile tree names size ∧
      Eligible tree config names ∧ size ≤ config.maxFileSize ∧
      source = discovery.sourceAt names size := by
    intro source
    rw [surveyed.run_fst, List.mem_map]
    constructor
    · rintro ⟨⟨names, size⟩, kept, rfl⟩
      obtain ⟨there, small⟩ := List.mem_filter.1 kept
      obtain ⟨held, eligible⟩ := (listed names size).1 there
      exact ⟨names, size, held, eligible, of_decide_eq_true small, rfl⟩
    · rintro ⟨names, size, held, eligible, small, rfl⟩
      have there := (listed names size).2 ⟨held, eligible⟩
      exact ⟨(names, size), List.mem_filter.2 ⟨there, decide_eq_true small⟩, rfl⟩
  have larges : ∀ names size, (names, size) ∈
      (files.filter fun file => config.maxFileSize < file.2) ↔ config.HasFile tree names size ∧
        Eligible tree config names ∧ config.maxFileSize < size := by
    intro names size
    rw [List.mem_filter, listed, and_assoc, decide_eq_true_iff]
  refine ⟨?_, sources, _, surveyed.ordered.filter _, larges, surveyed.run_snd, ?_⟩
  · rw [surveyed.run_fst, List.pairwise_map]
    exact surveyed.ordered.filter _
  · rintro ⟨names, size⟩ isLarge source there same
    obtain ⟨held, -, large⟩ := (larges names size).1 isLarge
    obtain ⟨names', size', held', -, small, rfl⟩ := (sources source).1 there
    have eq : names' = names :=
      List.map_injective_iff.2 (fun _ _ h => Component.name.inj h) (Path.mk.inj same)
    rw [eq] at held'
    rw [held.unique held'] at large
    exact absurd small (Nat.not_le_of_lt large)

end CodeSurvey
