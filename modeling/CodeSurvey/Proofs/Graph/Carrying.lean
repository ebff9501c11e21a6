import CodeSurvey.Proofs.Graph.Links
import CodeSurvey.Proofs.Index.WellFormed
import Mathlib.Data.List.Forall2
import Mathlib.Data.List.Nodup

/-!
# What becomes of references

The graph of a project has the references of its files and the uses that imports of members make,
file by file.

* `Reference.CarriedTo`: a reference stays as it is, or an unknown one is resolved
  (`linkReference_carried`).
* `linkReferences_diff`: without the uses that imports make, the references of the graph are those
  of the files, as linking leaves them.
* `exists_target_of_resolved`: a resolved reference of the graph has a symbol of the project as its
  target.
* `references_carried`: so no reference is dropped, downgraded or left dangling.
-/

namespace CodeSurvey

variable {files : List FileIndex} {i : Nat} {file : FileIndex}

/-- The files of a project: the indexes of sources, with distinct paths. -/
structure IndexedProject (files : List FileIndex) : Prop where
  distinct : (files.map FileIndex.path).Nodup
  indexed  : ∀ index ∈ files, index.Indexed

/-! ### One reference -/

/-- What linking may make of a reference: the same reference, or a resolved one in its place if
nothing was known about its target. -/
structure Reference.CarriedTo (before after : Reference) : Prop where
  name    : after.name = before.name
  access  : after.access = before.access
  file    : after.file = before.file
  line    : after.line = before.line
  outcome : after = before ∨ before.resolution = .unknown ∧ before.target = none ∧
    after.resolution = .resolved ∧ after.target.isSome
  settled : before.resolution = .resolved ∨ before.resolution = .dynamicUncertain → after = before

theorem Reference.CarriedTo.refl (r : Reference) : r.CarriedTo r :=
  ⟨rfl, rfl, rfl, rfl, .inl rfl, fun _ => rfl⟩

/-- Links are found only for references of which nothing is known. -/
theorem unknown_of_linkTarget {r : Reference} {symbol : Symbol} (formed : file.WellFormed)
    (own : r ∈ file.references) (found : linkTarget files i file r = some symbol) :
    r.resolution = .unknown ∧ r.target = none := by
  rw [linkTarget] at found
  split at found
  · rename_i access accesses
    have unknown := (formed.access r own access accesses).1
    exact ⟨unknown, formed.unknown r own unknown⟩
  · split at found
    · assumption
    · cases found

theorem linkReference_carried (files : List FileIndex) (i : Nat) {r : Reference}
    (formed : file.WellFormed) (own : r ∈ file.references) :
    r.CarriedTo (linkReference files i file (wildcardModules files i file) r) := by
  rw [linkReference_eq]
  cases found : linkTarget files i file r with
  | none => exact .refl r
  | some symbol =>
      obtain ⟨unknown, untargeted⟩ := unknown_of_linkTarget formed own found
      refine ⟨rfl, rfl, rfl, rfl, .inr ⟨unknown, untargeted, rfl, rfl⟩, fun settled => ?_⟩
      rw [unknown] at settled
      rcases settled with h | h <;> cases h

/-! ### All references -/

section

variable (files)

/-- The uses that the imports of members make, file by file. -/
def importUses : List Reference :=
  files.zipIdx.flatMap fun (file, i) => memberReferences files i file

/-- The references of the files as linking leaves them, file by file. -/
def carriedReferences : List Reference :=
  files.zipIdx.flatMap fun (file, i) =>
    file.references.map (linkReference files i file (wildcardModules files i file))

theorem importUses_sublist : (importUses files).Sublist (linkReferences files) := by
  rw [importUses, linkReferences]
  induction files.zipIdx with
  | nil => exact .slnil
  | cons p rest ih =>
      rw [List.flatMap_cons, List.flatMap_cons]
      exact (List.sublist_append_left ..).append ih

end

section

variable {α β : Type} [DecidableEq β]

theorem append_diff_self (front back : List β) : (front ++ back).diff front = back := by
  induction front with
  | nil => rfl
  | cons b front ih => rw [List.cons_append, List.diff_cons, List.erase_cons_head, ih]

theorem append_diff_of_disjoint (front back : List β) {removed : List β}
    (apart : ∀ b ∈ removed, b ∉ front) :
    (front ++ back).diff removed = front ++ back.diff removed := by
  induction removed generalizing back with
  | nil => rfl
  | cons b removed ih =>
      rw [List.diff_cons, List.diff_cons, List.erase_append_right back (apart b List.mem_cons_self)]
      exact ih _ fun b' h => apart b' (List.mem_cons_of_mem _ h)

/-- Of blocks with two parts each, the first parts can be removed, if those of later blocks have
nothing in common with the second parts before them. -/
theorem flatMap_diff (first second : α → List β) {blocks : List α}
    (apart : blocks.Pairwise fun x y => ∀ b ∈ first y, b ∉ second x) :
    (blocks.flatMap fun x => first x ++ second x).diff (blocks.flatMap first) =
      blocks.flatMap second := by
  induction apart with
  | nil => rfl
  | @cons x blocks apart _ ih =>
      have later : ∀ b ∈ blocks.flatMap first, b ∉ second x := by
        intro b h
        obtain ⟨y, there, h⟩ := List.mem_flatMap.1 h
        exact apart y there b h
      simp only [List.flatMap_cons]
      rw [List.diff_append, List.append_assoc, append_diff_self, append_diff_of_disjoint _ _ later,
        ih]

end

theorem file_of_memberReferences {r : Reference} (h : r ∈ memberReferences files i file) :
    r.file = file.path := by
  obtain ⟨entry, -, eq⟩ := List.mem_filterMap.1 h
  obtain ⟨-, target, symbol, -, -, rfl⟩ := memberReference_eq_some_iff.1 eq
  rfl

/-- **Without the uses that imports make, the references of the graph are those of the files.** They
can be told apart because the references of a file stand in that file. -/
theorem linkReferences_diff (project : IndexedProject files) :
    (linkReferences files).diff (importUses files) = carriedReferences files := by
  refine flatMap_diff _ _ ?_
  have paths : files.zipIdx.Pairwise fun p q => p.1.path ≠ q.1.path := by
    have distinct := project.distinct
    rw [← List.zipIdx_map_fst 0 files, List.map_map] at distinct
    exact List.pairwise_map.1 distinct
  refine paths.imp_of_mem fun {p q} there _ apart r made own => ?_
  obtain ⟨before, listed, rfl⟩ := List.mem_map.1 own
  have owner : p.1 ∈ files := List.fst_mem_of_mem_zipIdx there
  have formed := (project.indexed p.1 owner).wellFormed
  have site := (linkReference_carried files p.2 formed listed).file
  rw [file_of_memberReferences made,
    (project.indexed p.1 owner).owned.references before listed] at site
  exact apart site.symm

theorem carriedReferences_carried (indexed : ∀ index ∈ files, index.Indexed) :
    List.Forall₂ Reference.CarriedTo (files.flatMap FileIndex.references)
      (carriedReferences files) := by
  have same : files.flatMap FileIndex.references =
      files.zipIdx.flatMap fun p => p.1.references := by
    calc files.flatMap FileIndex.references
        = (files.zipIdx.map Prod.fst).flatMap FileIndex.references := by rw [List.zipIdx_map_fst]
      _ = files.zipIdx.flatMap fun p => p.1.references := List.flatMap_map ..
  rw [same, carriedReferences]
  have itself : List.Forall₂ (fun p q => p = q ∧ p ∈ files.zipIdx) files.zipIdx files.zipIdx :=
    List.forall₂_same.2 fun p h => ⟨rfl, h⟩
  refine List.rel_flatMap itself ?_
  rintro p _ ⟨rfl, there⟩
  have formed := (indexed p.1 (List.fst_mem_of_mem_zipIdx there)).wellFormed
  rw [List.forall₂_map_right_iff, List.forall₂_same]
  intro r own
  exact linkReference_carried files p.2 formed own

/-- **A resolved reference of the graph has a symbol of the project as its target.** -/
theorem exists_target_of_resolved (indexed : ∀ index ∈ files, index.Indexed) {r : Reference}
    (h : r ∈ linkReferences files) (resolved : r.resolution = .resolved) :
    ∃ index ∈ files, ∃ symbol ∈ index.symbols, r.target = some symbol.id := by
  obtain ⟨⟨file, i⟩, there, h⟩ := List.mem_flatMap.1 h
  have listed : file ∈ files := List.fst_mem_of_mem_zipIdx there
  rcases mem_linkFile_iff.1 h with ⟨m, linked⟩ | ⟨own, -⟩
  · obtain ⟨other, symbol, at', mem, target, -⟩ := linked.symbol
    exact ⟨other, List.mem_of_getElem? at', symbol, mem, target⟩
  · obtain ⟨symbol, mem, target⟩ := (indexed file listed).wellFormed.resolved r own resolved
    exact ⟨file, listed, symbol, mem, target⟩

/-- The uncertain references of the graph are those of its files. -/
theorem mem_linkReferences_uncertain_iff (indexed : ∀ index ∈ files, index.Indexed) {r : Reference}
    (uncertain : r.resolution = .dynamicUncertain) :
    r ∈ linkReferences files ↔ ∃ index ∈ files, r ∈ index.references := by
  constructor
  · intro h
    obtain ⟨⟨file, i⟩, there, h⟩ := List.mem_flatMap.1 h
    rcases mem_linkFile_iff.1 h with ⟨m, linked⟩ | ⟨own, -⟩
    · obtain ⟨-, -, -, -, -, resolved⟩ := linked.symbol
      cases uncertain.symm.trans resolved
    · exact ⟨file, List.fst_mem_of_mem_zipIdx there, own⟩
  · rintro ⟨file, listed, own⟩
    obtain ⟨i, there⟩ := List.mem_iff_getElem?.1 listed
    refine mem_linkReferences there (mem_linkFile_iff.2 (.inr ⟨own, ?_⟩))
    cases found : linkTarget files i file r with
    | none => rfl
    | some symbol =>
        have unknown := (unknown_of_linkTarget (indexed file listed).wellFormed own found).1
        cases uncertain.symm.trans unknown

/-- **No reference is dropped, downgraded or left dangling.** The uses that the imports of members
make are among the references of the graph. Without them, the references of the graph are those of
the files, in their order: each is the same, or was unknown and is resolved. And every resolved
reference has a symbol of some file as its target. -/
theorem references_carried (project : IndexedProject files) :
    (importUses files).Sublist (buildGraph files).references ∧
    List.Forall₂ Reference.CarriedTo (files.flatMap FileIndex.references)
      ((buildGraph files).references.diff (importUses files)) ∧
    ∀ r ∈ (buildGraph files).references, r.resolution = .resolved →
      ∃ index ∈ files, ∃ symbol ∈ index.symbols, r.target = some symbol.id := by
  refine ⟨importUses_sublist files, ?_, fun r => exists_target_of_resolved project.indexed⟩
  have kept : (buildGraph files).references.diff (importUses files) = carriedReferences files :=
    linkReferences_diff project
  rw [kept]
  exact carriedReferences_carried project.indexed

/-- A module that imports a member of another one, and reaches it once more through the module. -/
theorem references_carried_pair : ∃ a b,
    indexSource (rootModule "a.py" false) "from b import f\nimport b\nb.f\n" = .ok a ∧
      indexSource (rootModule "b.py" false) "def f(): pass\n" = .ok b ∧ IndexedProject [a, b] ∧
      (importUses [a, b]).length = 1 ∧
      a.references.map Reference.resolution = [.resolved, .unknown] ∧
      ((buildGraph [a, b]).references.diff (importUses [a, b])).map Reference.resolution =
        [.resolved, .resolved] ∧
      List.Forall₂ Reference.CarriedTo ([a, b].flatMap FileIndex.references)
        ((buildGraph [a, b]).references.diff (importUses [a, b])) := by
  have read : ∃ a b,
      indexSource (rootModule "a.py" false) "from b import f\nimport b\nb.f\n" = .ok a ∧
        indexSource (rootModule "b.py" false) "def f(): pass\n" = .ok b ∧
        ([a, b].map FileIndex.path).Nodup ∧ (importUses [a, b]).length = 1 ∧
        a.references.map Reference.resolution = [.resolved, .unknown] ∧
        ((buildGraph [a, b]).references.diff (importUses [a, b])).map Reference.resolution =
          [.resolved, .resolved] :=
    ⟨_, _, rfl, rfl, by decide +kernel⟩
  obtain ⟨a, b, indexedA, indexedB, distinct, uses, before, after⟩ := read
  have project : IndexedProject [a, b] := by
    refine ⟨distinct, fun index h => ?_⟩
    rcases List.mem_cons.1 h with rfl | h
    · exact ⟨_, _, indexedA⟩
    · exact List.mem_singleton.1 h ▸ ⟨_, _, indexedB⟩
  exact ⟨a, b, indexedA, indexedB, project, uses, before, after, (references_carried project).2.1⟩

end CodeSurvey
