import CodeSurvey.Graph.Build
import CodeSurvey.Proofs.Entries
import Mathlib

/-!
# One more reference

A file of a project gets one more reference, and the graph is built again.

* `linkFile_bare`: links depend on the symbols and the imports of the files, not on references, so
  all other references stay as they were (`linkReferences_withReference`).
* `usage_withReference`: the uses of every symbol are counted with the one reference more.
* `SymbolUsage.Grows`: so at most one of the counts of a symbol grows, and only for the symbols that
  the reference counts for (`usage_withReference_of_apart`).
-/

namespace CodeSurvey

/-- An index without its references. -/
def FileIndex.bare (index : FileIndex) : FileIndex :=
  { index with references := [] }

/-- An index with one more reference. -/
def FileIndex.withReference (index : FileIndex) (reference : Reference) : FileIndex :=
  { index with references := index.references ++ [reference] }

/-! ### Links depend on no references -/

section

variable (files : List FileIndex) (i : Nat)

/-- Without their references, files have the same module names. -/
theorem moduleNamed_bare (name : String) :
    moduleNamed (files.map .bare) name = moduleNamed files name := by
  rw [moduleNamed, List.findIdx?_map]
  rfl

theorem packageParts_bare : packageParts (files.map .bare) i = packageParts files i := by
  rw [packageParts, packageParts, List.getElem?_map]
  cases files[i]? <;> rfl

theorem moduleEndingIn_bare (candidate : String) :
    moduleEndingIn (files.map .bare) candidate = moduleEndingIn files candidate := by
  rw [moduleEndingIn, List.map_map]
  rfl

/-- So a candidate is found in the same place. -/
theorem findModule_bare (candidate : String) (isAbsolute : Bool) :
    findModule (files.map .bare) candidate i isAbsolute =
      findModule files candidate i isAbsolute := by
  have named : moduleNamed (files.map .bare) = moduleNamed files :=
    funext (moduleNamed_bare files)
  rw [findModule, findModule, named, packageParts_bare, moduleEndingIn_bare]

theorem resolveParts_bare (isAbsolute : Bool) (parts : List String) : ∀ n,
    resolveParts (files.map .bare) i isAbsolute parts n = resolveParts files i isAbsolute parts n
  | 0 => rfl
  | n + 1 => by
      rw [resolveParts, resolveParts, findModule_bare, resolveParts_bare isAbsolute parts n]

/-- Imports are resolved without looking at references. -/
theorem resolveDotted_bare (level : Nat) (parts : List String) :
    resolveDotted (files.map .bare) i level parts = resolveDotted files i level parts := by
  simp only [resolveDotted, relativeBase, packageParts_bare, resolveParts_bare]

/-- So are the symbols that they name. -/
theorem lookupSymbol_bare (target : ImportTarget) :
    lookupSymbol (files.map .bare) target = lookupSymbol files target := by
  rw [lookupSymbol.eq_def, lookupSymbol.eq_def, List.getElem?_map]
  cases files[target.module]? <;> rfl

theorem wildcardSymbol_bare (modules : List Nat) (name : String) :
    wildcardSymbol (files.map .bare) modules name = wildcardSymbol files modules name := by
  simp only [wildcardSymbol, List.getElem?_map, Option.bind_map]
  rfl

/-- **The references of a file are linked by the symbols and imports of the others.** -/
theorem linkFile_bare (file : FileIndex) :
    linkFile (files.map .bare) i file = linkFile files i file := by
  have lookup : lookupSymbol (files.map .bare) = lookupSymbol files :=
    funext (lookupSymbol_bare files)
  have members : memberReference (files.map .bare) i file = memberReference files i file := by
    funext entry
    rw [memberReference, memberReference, resolveImport, resolveImport, resolveDotted_bare, lookup]
  have wildcards : wildcardModules (files.map .bare) i file = wildcardModules files i file := by
    simp only [wildcardModules, resolveImport, resolveDotted_bare]
  have links : ∀ modules, linkReference (files.map .bare) i file modules =
      linkReference files i file modules := by
    intro modules
    funext reference
    simp only [linkReference, accessedSymbol, resolveDotted_bare, lookup, wildcardSymbol_bare]
  rw [linkFile, linkFile, memberReferences, memberReferences, members, wildcards, links]

end

/-- **How a file is linked does not depend on the references of other files.** -/
theorem linkFile_congr {files files' : List FileIndex}
    (same : files'.map FileIndex.bare = files.map FileIndex.bare) :
    linkFile files' = linkFile files := by
  funext i file
  rw [← linkFile_bare, same, linkFile_bare]

/-! ### The references of the graph -/

section

variable (before after : List FileIndex) (file : FileIndex) (reference : Reference)

/-- The reference as the linker leaves it in a project where its file stands between others. -/
def linkedIn : Reference :=
  let files := before ++ file :: after
  linkReference files before.length file (wildcardModules files before.length file) reference

/-- A reference more is linked for itself, behind the others. -/
theorem linkFile_withReference (files : List FileIndex) (i : Nat) :
    linkFile files i (file.withReference reference) = linkFile files i file ++
      [linkReference files i file (wildcardModules files i file) reference] := by
  rw [linkFile, linkFile, FileIndex.withReference, List.map_append, List.append_assoc]
  rfl

/-- **With one more reference, the graph has one more reference**, and the others stay. -/
theorem linkReferences_withReference :
    (linkReferences (before ++ file.withReference reference :: after)).Perm
      (linkedIn before after file reference :: linkReferences (before ++ file :: after)) := by
  have same : (before ++ file.withReference reference :: after).map FileIndex.bare =
      (before ++ file :: after).map FileIndex.bare := by
    simp [FileIndex.withReference, FileIndex.bare]
  have links := linkFile_congr same
  simp only [linkReferences, links, List.zipIdx_append, List.zipIdx_cons, List.flatMap_append,
    List.flatMap_cons, Nat.zero_add, linkFile_withReference, List.append_assoc,
    List.singleton_append]
  -- the new reference is the last of its file, with those of other files on both sides
  rw [← List.append_assoc]
  refine List.perm_middle.trans ?_
  rw [List.append_assoc]
  rfl

/-! ### Uses -/

/-- The order of references does not matter for counts. -/
theorem countUsage_perm {symbols : List Symbol} {isTest : Path → Bool}
    {references references' : List Reference} (perm : references'.Perm references) (id : SymbolId) :
    countUsage symbols isTest references' id = countUsage symbols isTest references id := by
  simp only [countUsage, perm.countP_eq, ← List.sum_eq_foldr, (perm.map _).sum_eq]

/-- **The uses of every symbol are counted with the one reference more.** -/
theorem usage_withReference (id : SymbolId) :
    (buildGraph (before ++ file.withReference reference :: after)).usage id =
      countUsage (buildGraph (before ++ file :: after)).symbols
        (buildGraph (before ++ file :: after)).isTestFile
        (linkedIn before after file reference :: (buildGraph (before ++ file :: after)).references)
        id := by
  have symbols : (buildGraph (before ++ file.withReference reference :: after)).symbols =
      (buildGraph (before ++ file :: after)).symbols := by
    simp [buildGraph, FileIndex.withReference]
  have tests : (buildGraph (before ++ file.withReference reference :: after)).isTestFile =
      (buildGraph (before ++ file :: after)).isTestFile := by
    funext path
    simp [ReferenceGraph.isTestFile, buildGraph, FileIndex.withReference, moduleNode,
      FileIndex.path]
  rw [ReferenceGraph.usage, symbols, tests]
  exact countUsage_perm (linkReferences_withReference before after file reference) id

/-- What one more reference can do to the uses of a symbol. -/
inductive SymbolUsage.Grows (usage : SymbolUsage) : SymbolUsage → Prop where
  | same : Grows usage usage
  | inside : Grows usage { usage with selfFile := usage.selfFile + 1 }
  | across (fromTest : Bool) :
      Grows usage
        { usage with
          crossFile := usage.crossFile + 1
          fromTests := usage.fromTests + fromTest.toNat }
  | dynamic (count : Nat) : Grows usage { usage with dynamic := usage.dynamic + count }

/-- A certain use is one inside its file or across files, and no dynamic one. -/
theorem countUsage_cons_grows (symbols : List Symbol) (isTest : Path → Bool)
    (references : List Reference) (r : Reference) (id : SymbolId) :
    (countUsage symbols isTest references id).Grows
      (countUsage symbols isTest (r :: references) id) := by
  by_cases certain : r.uses id
  · obtain ⟨resolved, target⟩ : r.resolution = .resolved ∧ r.target = some id := by
      simpa [Reference.uses] using certain
    have dynamic : r.dynamicUses symbols id = 0 := by simp [Reference.dynamicUses, resolved]
    -- a use that is certain counts once: inside the symbol's file, or across files
    by_cases home : id.file = r.file
    · convert SymbolUsage.Grows.inside using 1
      simp [countUsage, Reference.usesInside, Reference.usesAcross, certain, home, dynamic]
    · convert SymbolUsage.Grows.across (isTest r.file) using 1
      cases test : isTest r.file <;>
        simp [countUsage, Reference.usesInside, Reference.usesAcross, certain, home, dynamic,
          test]
  · -- any other one counts for the symbols it may mean
    convert SymbolUsage.Grows.dynamic (r.dynamicUses symbols id) using 1
    simp [countUsage, Reference.usesInside, Reference.usesAcross, certain, Nat.add_comm]

/-- **With a reference more, no count of a symbol goes down.** -/
theorem usage_withReference_grows (id : SymbolId) :
    ((buildGraph (before ++ file :: after)).usage id).Grows
      ((buildGraph (before ++ file.withReference reference :: after)).usage id) := by
  rw [usage_withReference]
  exact countUsage_cons_grows ..

/-- **Symbols that the reference does not count for are used as before.** -/
theorem usage_withReference_of_apart {id : SymbolId}
    (target : (linkedIn before after file reference).target ≠ some id)
    (names : (linkedIn before after file reference).resolution = .dynamicUncertain →
      (linkedIn before after file reference).target = none →
        ∀ index ∈ before ++ file :: after, ∀ symbol ∈ index.symbols, symbol.id = id →
          symbol.name ≠ (linkedIn before after file reference).name) :
    (buildGraph (before ++ file.withReference reference :: after)).usage id =
      (buildGraph (before ++ file :: after)).usage id := by
  rw [usage_withReference]
  generalize linkedIn before after file reference = r at target names
  have dynamic : r.dynamicUses (buildGraph (before ++ file :: after)).symbols id = 0 := by
    rw [Reference.dynamicUses]
    split
    · rename_i uncertain
      split
      · rename_i other eq
        rw [if_neg fun same => target (eq.trans (congrArg some same))]
      · rename_i untargeted
        refine List.countP_eq_zero.2 fun symbol there => ?_
        obtain ⟨index, listed, own⟩ := List.mem_flatMap.1 there
        simpa using names uncertain untargeted index listed symbol own
    · rfl
  simp [ReferenceGraph.usage, countUsage, Reference.usesInside, Reference.usesAcross,
    Reference.uses, target, dynamic]

end

end CodeSurvey
