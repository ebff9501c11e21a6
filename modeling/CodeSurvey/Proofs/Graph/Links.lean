import CodeSurvey.Graph.Build
import CodeSurvey.Proofs.Index.Ownership
import CodeSurvey.Proofs.Order
import Mathlib.Data.List.Nodup

/-!
# Where links lead

A reference gets its target by way of an import in three ways: the import of a member uses it, an
attribute is reached through an imported name, or a wildcard import brings a name in.

* `Linked` lists these ways, with the place of the file that the link leads to, and
  `mem_linkFile_iff` says that they are all.
* `mem_importEdges_iff`: the import graph has an edge for every import of another file.
* `linked_crosses_iff`: a link counts across files exactly if it does not lead back to the file it
  starts from. Only the import graph leaves out the imports that do.
-/

namespace CodeSurvey

variable {files : List FileIndex} {i : Nat} {file : FileIndex}

/-! ### Symbols that links find -/

theorem mem_of_topLevel {name : String} {symbol : Symbol} (h : file.topLevel name = some symbol) :
    symbol ∈ file.symbols :=
  List.mem_of_find?_eq_some h

theorem mem_of_lookupSymbol {target : ImportTarget} {symbol : Symbol}
    (h : lookupSymbol files target = some symbol) :
    ∃ other, files[target.module]? = some other ∧ symbol ∈ other.symbols := by
  rw [lookupSymbol.eq_def] at h
  split at h
  · cases h
  · rename_i other there
    refine ⟨other, there, ?_⟩
    split at h
    · split at h
      · cases h
        exact List.mem_of_find?_eq_some ‹_›
      · exact mem_of_topLevel h
    · exact mem_of_topLevel h
    · cases h

/-! ### Links -/

/-- The symbol that a reference is linked to. -/
def linkTarget (files : List FileIndex) (i : Nat) (file : FileIndex) (reference : Reference) :
    Option Symbol :=
  match reference.access with
  | some access => accessedSymbol files i file access
  | none        =>
    if reference.resolution = .unknown ∧ reference.target = none then
      wildcardSymbol files (wildcardModules files i file) reference.name
    else none

theorem linkReference_eq (files : List FileIndex) (i : Nat) (file : FileIndex)
    (reference : Reference) :
    linkReference files i file (wildcardModules files i file) reference =
      match linkTarget files i file reference with
      | some symbol => reference.resolvedTo symbol
      | none        => reference := rfl

/-- The references that the file at a place gets by way of an import, each with the place of the
file that it leads to. -/
inductive Linked (files : List FileIndex) (i : Nat) (file : FileIndex) :
    Nat → Reference → Prop where
  /-- The import of a member uses it. -/
  | member {entry : Import} {target : ImportTarget} {symbol : Symbol}
      (listed : entry ∈ file.imports) (named : entry.name.isSome)
      (leads : resolveImport files i entry = some target)
      (found : lookupSymbol files target = some symbol) :
      Linked files i file target.module
        { target := some symbol.id, name := symbol.name, access := none, file := file.path
          line := entry.line, resolution := .resolved }
  /-- An attribute is reached through an imported name. -/
  | access {reference : Reference} {access : ImportAccess} {entry : Import} {target : ImportTarget}
      {symbol : Symbol} (own : reference ∈ file.references)
      (accesses : reference.access = some access)
      (listed : file.imports[access.source]? = some entry)
      (leads : resolveDotted files i entry.level
        (dottedNames entry.boundPath ++ access.attributes) = some target)
      (found : lookupSymbol files target = some symbol) :
      Linked files i file target.module (reference.resolvedTo symbol)
  /-- The first wildcard import that knows an unknown name brings it in. -/
  | wildcard {reference : Reference} {before after : List Nat} {m : Nat} {other : FileIndex}
      {symbol : Symbol} (own : reference ∈ file.references)
      (plain : reference.access = none) (unknown : reference.resolution = .unknown)
      (untargeted : reference.target = none)
      (modules : wildcardModules files i file = before ++ m :: after)
      (first : wildcardSymbol files before reference.name = none)
      (there : files[m]? = some other) (found : other.topLevel reference.name = some symbol) :
      Linked files i file m (reference.resolvedTo symbol)

theorem memberReference_eq_some_iff {entry : Import} {r : Reference} :
    memberReference files i file entry = some r ↔
      entry.name.isSome ∧ ∃ target symbol, resolveImport files i entry = some target ∧
        lookupSymbol files target = some symbol ∧
        r = { target := some symbol.id, name := symbol.name, access := none, file := file.path
              line := entry.line, resolution := .resolved } := by
  rw [memberReference]
  cases entry.name with
  | none => simp
  | some name =>
      simp only [Option.isNone_some, Bool.false_eq_true, if_false, Option.map_eq_some_iff,
        Option.bind_eq_some_iff, Option.isSome_some, true_and]
      constructor
      · rintro ⟨symbol, ⟨target, leads, found⟩, rfl⟩
        exact ⟨target, symbol, leads, found, rfl⟩
      · rintro ⟨target, symbol, leads, found, rfl⟩
        exact ⟨symbol, ⟨target, leads, found⟩, rfl⟩

/-- A name is found in the first of the modules that has it. -/
theorem wildcardSymbol_eq_some {modules : List Nat} {name : String} {symbol : Symbol}
    (h : wildcardSymbol files modules name = some symbol) :
    ∃ before m after other, modules = before ++ m :: after ∧
      wildcardSymbol files before name = none ∧ files[m]? = some other ∧
      other.topLevel name = some symbol := by
  obtain ⟨before, m, after, eq, found, first⟩ := List.findSome?_eq_some_iff.1 h
  obtain ⟨other, there, found⟩ := Option.bind_eq_some_iff.1 found
  exact ⟨before, m, after, other, eq, List.findSome?_eq_none_iff.2 first, there, found⟩

/-- A reference with a link has one of the three kinds. -/
theorem linked_of_linkTarget {reference : Reference} {symbol : Symbol}
    (own : reference ∈ file.references) (h : linkTarget files i file reference = some symbol) :
    ∃ m, Linked files i file m (reference.resolvedTo symbol) := by
  rw [linkTarget] at h
  split at h
  · rename_i access accesses
    rw [accessedSymbol] at h
    split at h
    · cases h
    · rename_i entry listed
      obtain ⟨target, leads, found⟩ := Option.bind_eq_some_iff.1 h
      exact ⟨target.module, .access own accesses listed leads found⟩
  · rename_i plain
    split at h
    · rename_i open'
      obtain ⟨before, m, after, other, modules, first, there, found⟩ := wildcardSymbol_eq_some h
      exact ⟨m, .wildcard own plain open'.1 open'.2 modules first there found⟩
    · cases h

/-- **The references of a file are those that are linked and those that no link is found for.** -/
theorem mem_linkFile_iff {r : Reference} :
    r ∈ linkFile files i file ↔ (∃ m, Linked files i file m r) ∨
      (r ∈ file.references ∧ linkTarget files i file r = none) := by
  constructor
  · intro h
    rcases List.mem_append.1 h with h | h
    · obtain ⟨entry, listed, eq⟩ := List.mem_filterMap.1 h
      obtain ⟨named, target, symbol, leads, found, rfl⟩ := memberReference_eq_some_iff.1 eq
      exact .inl ⟨target.module, .member listed named leads found⟩
    · obtain ⟨reference, own, rfl⟩ := List.mem_map.1 h
      rw [linkReference_eq]
      cases target : linkTarget files i file reference with
      | none => exact .inr ⟨own, target⟩
      | some symbol => exact .inl (linked_of_linkTarget own target)
  · rintro (⟨m, linked⟩ | ⟨own, none⟩)
    · cases linked with
      | member listed named leads found =>
          exact List.mem_append_left _ (List.mem_filterMap.2
            ⟨_, listed, memberReference_eq_some_iff.2 ⟨named, _, _, leads, found, rfl⟩⟩)
      | @access reference access entry target symbol own accesses listed leads found =>
          refine List.mem_append_right _ (List.mem_map.2 ⟨reference, own, ?_⟩)
          have linked : linkTarget files i file reference = some symbol := by
            simp only [linkTarget, accesses, accessedSymbol, listed, leads, Option.bind_some, found]
          rw [linkReference_eq, linked]
      | @wildcard reference before after m other symbol own plain unknown untargeted modules first
          there found =>
          refine List.mem_append_right _ (List.mem_map.2 ⟨reference, own, ?_⟩)
          have linked : linkTarget files i file reference = some symbol := by
            rw [linkTarget, plain]
            simp only [unknown, untargeted, and_self, if_true, modules]
            rw [wildcardSymbol] at first ⊢
            rw [List.findSome?_append, first, List.findSome?_cons, there, Option.bind_some, found]
            rfl
          rw [linkReference_eq, linked]
    · refine List.mem_append_right _ (List.mem_map.2 ⟨r, own, ?_⟩)
      rw [linkReference_eq, none]

theorem mem_linkReferences (there : files[i]? = some file) {r : Reference}
    (h : r ∈ linkFile files i file) : r ∈ linkReferences files :=
  List.mem_flatMap.2 ⟨(file, i), List.mem_zipIdx_iff_getElem?.2 there, h⟩

/-- A link leads to a symbol of the file at its place. -/
theorem Linked.symbol {m : Nat} {r : Reference} (h : Linked files i file m r) :
    ∃ other symbol, files[m]? = some other ∧ symbol ∈ other.symbols ∧ r.target = some symbol.id ∧
      r.resolution = .resolved := by
  cases h with
  | member _ _ _ found =>
      obtain ⟨other, there, mem⟩ := mem_of_lookupSymbol found
      exact ⟨other, _, there, mem, rfl, rfl⟩
  | access _ _ _ _ found =>
      obtain ⟨other, there, mem⟩ := mem_of_lookupSymbol found
      exact ⟨other, _, there, mem, rfl, rfl⟩
  | wildcard _ _ _ _ _ _ there found => exact ⟨_, _, there, mem_of_topLevel found, rfl, rfl⟩

theorem Linked.site (owned : file.Owned) {m : Nat} {r : Reference} (h : Linked files i file m r) :
    r.file = file.path := by
  cases h with
  | member => rfl
  | @access reference _ _ _ _ own => exact owned.references reference own
  | @wildcard reference _ _ _ _ _ own => exact owned.references reference own

/-! ### Edges -/

theorem mem_importedModules {m line : Nat} :
    (m, line) ∈ importedModules files i file ↔ m ≠ i ∧ ∃ entry ∈ file.imports, entry.line = line ∧
      ∃ rest, resolveImport files i entry = some ⟨m, rest⟩ := by
  simp only [importedModules, List.mem_filterMap, Option.bind_eq_some_iff]
  constructor
  · rintro ⟨entry, listed, target, leads, h⟩
    split at h
    · cases h
    · rename_i other
      cases h
      exact ⟨other, entry, listed, rfl, target.remaining, leads⟩
  · rintro ⟨other, entry, listed, rfl, rest, leads⟩
    exact ⟨entry, listed, _, leads, if_neg other⟩

/-- **The import graph has an edge for every import that leads to another file**, and it carries
the line of the import. -/
theorem mem_importEdges_iff (there : files[i]? = some file) {m line : Nat} :
    (∃ edge ∈ importEdges files, edge.source = i ∧ edge.target = m ∧ line ∈ edge.lines) ↔
      m ≠ i ∧ ∃ entry ∈ file.imports, entry.line = line ∧
        ∃ rest, resolveImport files i entry = some ⟨m, rest⟩ := by
  rw [← mem_importedModules]
  constructor
  · rintro ⟨edge, listed, rfl, rfl, carried⟩
    obtain ⟨⟨source, j⟩, at', listed⟩ := List.mem_flatMap.1 listed
    obtain ⟨target, -, rfl⟩ := List.mem_map.1 listed
    have same : source = file :=
      Option.some.inj ((List.mem_zipIdx_iff_getElem?.1 at').symm.trans there)
    subst same
    obtain ⟨⟨m, line'⟩, kept, rfl⟩ := List.mem_map.1 (mem_of_mem_sortedSet carried)
    obtain ⟨found, same⟩ := List.mem_filter.1 kept
    obtain rfl := of_decide_eq_true same
    exact found
  · intro found
    refine ⟨_, List.mem_flatMap.2 ⟨(file, i), List.mem_zipIdx_iff_getElem?.2 there,
      List.mem_map.2 ⟨m, mem_sortedSet.2 (List.mem_map.2 ⟨_, found, rfl⟩), rfl⟩⟩, rfl, rfl, ?_⟩
    exact mem_sortedSet.2 (List.mem_map.2 ⟨_, List.mem_filter.2 ⟨found, by simp⟩, rfl⟩)

/-! ### Links within a file -/

theorem path_eq_iff (distinct : (files.map FileIndex.path).Nodup) {m : Nat} {other : FileIndex}
    (there : files[i]? = some file) (there' : files[m]? = some other) :
    other.path = file.path ↔ m = i := by
  obtain ⟨lt, rfl⟩ := List.getElem?_eq_some_iff.1 there
  obtain ⟨lt', rfl⟩ := List.getElem?_eq_some_iff.1 there'
  have bound : i < (files.map FileIndex.path).length := by simpa using lt
  have bound' : m < (files.map FileIndex.path).length := by simpa using lt'
  have same : (files.map FileIndex.path)[m] = (files.map FileIndex.path)[i] ↔ m = i :=
    distinct.getElem_inj_iff
  rwa [List.getElem_map, List.getElem_map] at same

/-- **A link counts across files exactly if it does not lead back to the file it starts from**, and
otherwise it makes a symbol of the file a use within the file. What an import of a member uses
counts across files exactly if the import graph has an edge for the import. All other references of
a file are its own, with no link. -/
theorem linked_crosses_iff (distinct : (files.map FileIndex.path).Nodup)
    (owned : ∀ index ∈ files, index.Owned) (there : files[i]? = some file) :
    (∀ m r, Linked files i file m r → r ∈ (buildGraph files).references ∧
      ∃ other symbol, files[m]? = some other ∧ symbol ∈ other.symbols ∧
        r.target = some symbol.id ∧
        (r.usesAcross symbol.id ↔ m ≠ i) ∧ (r.usesInside symbol.id ↔ m = i)) ∧
    (∀ entry ∈ file.imports, ∀ r, memberReference files i file entry = some r →
      ∃ m, Linked files i file m r ∧
        (m ≠ i ↔ ∃ edge ∈ (buildGraph files).edges, edge.source = i ∧ edge.target = m ∧
          entry.line ∈ edge.lines)) ∧
    (∀ r ∈ linkFile files i file, (∃ m, Linked files i file m r) ∨
      (r ∈ file.references ∧ linkTarget files i file r = none)) := by
  refine ⟨fun m r linked => ?_, fun entry listed r eq => ?_, fun r => mem_linkFile_iff.1⟩
  · obtain ⟨other, symbol, there', mem, target, resolved⟩ := linked.symbol
    have site : r.file = file.path := linked.site (owned file (List.mem_of_getElem? there))
    have home : symbol.id.file = other.path :=
      (owned other (List.mem_of_getElem? there')).symbols symbol mem
    have same := path_eq_iff distinct there there'
    refine ⟨mem_linkReferences there (mem_linkFile_iff.2 (.inl ⟨m, linked⟩)), other, symbol, there',
      mem, target, ?_, ?_⟩
    · simp [Reference.usesAcross, Reference.uses, target, resolved, site, home, same]
    · simp [Reference.usesInside, Reference.uses, target, resolved, site, home, same]
  · obtain ⟨named, target, symbol, leads, found, rfl⟩ := memberReference_eq_some_iff.1 eq
    refine ⟨target.module, .member listed named leads found, ?_⟩
    constructor
    · intro other
      exact (mem_importEdges_iff there).2 ⟨other, entry, listed, rfl, target.remaining, leads⟩
    · intro edge
      exact ((mem_importEdges_iff there).1 edge).1

/-- The marker of a package. -/
def packageMarker : SourceFile where
  location := .ofNames ["pkg", "__init__.py"]
  path     := .ofNames ["pkg", "__init__.py"]
  size     := 16
  language := .python
  isTest   := false

/-- In the marker of a package, the import of a member that the package does not have leads back to
the marker, where it finds the very name that it binds. -/
theorem linked_crosses_iff_package : ∃ index r,
    indexSource packageMarker "from . import x\n" = .ok index ∧
      ([index].map FileIndex.path).Nodup ∧ (∀ file ∈ [index], file.Owned) ∧
      Linked [index] 0 index 0 r ∧ r ∈ (buildGraph [index]).references ∧
      r.usesInside ⟨packageMarker.path, "x", .imported⟩ := by
  have read : ∃ index entry symbol, indexSource packageMarker "from . import x\n" = .ok index ∧
      index.imports = [entry] ∧ entry.name.isSome ∧
      resolveImport [index] 0 entry = some ⟨0, ["x"]⟩ ∧
      lookupSymbol [index] ⟨0, ["x"]⟩ = some symbol ∧
      symbol.id = ⟨packageMarker.path, "x", .imported⟩ :=
    ⟨_, _, _, rfl, rfl, rfl, by decide +kernel, rfl, rfl⟩
  obtain ⟨index, entry, symbol, indexed, imports, named, leads, found, id⟩ := read
  have distinct : ([index].map FileIndex.path).Nodup := List.nodup_singleton _
  have owned : ∀ file ∈ [index], file.Owned :=
    fun file h => List.mem_singleton.1 h ▸ owned_of_indexSource indexed
  have linked : Linked [index] 0 index 0 _ :=
    .member (imports ▸ List.mem_singleton_self entry) named leads found
  obtain ⟨listed, other, symbol', -, -, target, -, inside⟩ :=
    (linked_crosses_iff distinct owned rfl).1 0 _ linked
  refine ⟨index, _, indexed, distinct, owned, linked, listed, ?_⟩
  have same : symbol'.id = ⟨packageMarker.path, "x", .imported⟩ :=
    (Option.some.inj target).symm.trans id
  exact same ▸ inside.2 rfl

end CodeSurvey
