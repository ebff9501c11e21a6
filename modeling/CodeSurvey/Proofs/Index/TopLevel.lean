import CodeSurvey.Proofs.Index.Exports
import CodeSurvey.Proofs.Index.Qualified

/-!
# Finding the names of a module

The search for a module-level name looks for the kind of scope that a symbol was made for, so it
misses a symbol that the module shares with a scope further in.

* `topLevel_iff`: what the search finds is the module-level symbol that the module binds the name
  to.
* `MadeInside` and `madeInside_of_bound`: when the module binds a name to another symbol.
* `topLevel_bound`: so the search finds every symbol that the module binds a name to, but for those.
-/

namespace CodeSurvey

open Python (Node IsWord)

/-! ### Symbols by their places -/

section

variable {t : SymbolTable} {isPackageMarker : Bool} {i : Nat} {symbol : Symbol}

open SymbolTable

theorem getElem?_markedSymbols (t : SymbolTable) (isPackageMarker : Bool) (i : Nat) :
    (t.markedSymbols isPackageMarker)[i]? = t.symbols[i]?.map fun symbol =>
      { symbol with
        isExported := t.listedSymbols.contains i || isReexport isPackageMarker symbol } := by
  rw [markedSymbols, List.getElem?_map, List.getElem?_zipIdx, Option.map_map, Nat.zero_add]
  rfl

theorem exists_marked {old : Symbol} (there : t.symbols[i]? = some old) (isPackageMarker : Bool) :
    ∃ mark, (t.markedSymbols isPackageMarker)[i]? = some { old with isExported := mark } := by
  rw [getElem?_markedSymbols, there]
  exact ⟨_, rfl⟩

theorem exists_of_marked (there : (t.markedSymbols isPackageMarker)[i]? = some symbol) :
    ∃ old mark, t.symbols[i]? = some old ∧ symbol = { old with isExported := mark } := by
  rw [getElem?_markedSymbols] at there
  obtain ⟨old, own, rfl⟩ := Option.map_eq_some_iff.1 there
  exact ⟨old, _, own, rfl⟩

end

/-! ### What the search finds -/

section

variable {file : SourceFile} {nodes : List Node} {lineCount i : Nat} {x : String} {symbol : Symbol}

/-- A module-level symbol is what the module binds its name to. -/
theorem bound_of_isTopLevel
    (own : ((definitionsOf file nodes).markedSymbols file.isPackageMarker)[i]? = some symbol)
    (top : symbol.isTopLevel) :
    ((definitionsOf file nodes).scope 0).find symbol.name = some (.symbol i) := by
  obtain ⟨old, mark, there, rfl⟩ := exists_of_marked own
  exact (anchored_definitionsOf file nodes).bound i old there top

/-- **The search finds the module-level symbol that the module binds the name to.** -/
theorem topLevel_iff : (indexNodes file nodes lineCount).topLevel x = some symbol ↔
    symbol.isTopLevel ∧ symbol.name = x ∧
      ∃ i, (indexNodes file nodes lineCount).symbols[i]? = some symbol ∧
        ((definitionsOf file nodes).scope 0).find x = some (.symbol i) := by
  constructor
  · intro found
    have holds := List.find?_some found
    rw [Bool.and_eq_true, beq_iff_eq] at holds
    obtain ⟨top, rfl⟩ := holds
    obtain ⟨i, own⟩ := List.getElem?_of_mem (List.mem_of_find?_eq_some found)
    exact ⟨top, rfl, i, own, bound_of_isTopLevel own top⟩
  · rintro ⟨top, rfl, i, own, bound⟩
    cases found : (indexNodes file nodes lineCount).topLevel symbol.name with
    | none =>
        have missed := List.find?_eq_none.1 found symbol (List.mem_of_getElem? own)
        simp [top] at missed
    | some other =>
        have holds := List.find?_some found
        rw [Bool.and_eq_true, beq_iff_eq] at holds
        obtain ⟨j, own'⟩ := List.getElem?_of_mem (List.mem_of_find?_eq_some found)
        -- the module binds the name once
        have bound' := bound_of_isTopLevel own' holds.1
        rw [holds.2, bound] at bound'
        cases bound'
        exact own'.symm.trans own

end

/-! ### Symbols that the module shares -/

namespace SymbolTable

variable {t : SymbolTable} {s i : Nat} {x : String} {symbol : Symbol}

/-- The module binds a name to a symbol that was made further in: by an assignment expression in a
lambda or a comprehension, which qualifies names as the module does; or by an import in the body of
a definition, with the module importing a dotted name that spells out the same. -/
inductive MadeInside (x : String) (symbol : Symbol) : Prop where
  | assigned (kind : symbol.id.kind = .assigned)
      (scope : symbol.scope = .lambda ∨ symbol.scope = .comprehension) (name : symbol.name = x)
  | imported {outer : String} (kind : symbol.id.kind = .imported)
      (scope : symbol.scope = .classBody ∨ symbol.scope = .function)
      (dotted : x = s!"{outer}.{symbol.name}")

/-- **When the module binds a name to a symbol that is not at module level.** -/
theorem madeInside_of_bound (wellNamed : t.WellNamed) (housed : t.Housed)
    (bound : (t.scope 0).find x = some (.symbol i)) (there : t.symbols[i]? = some symbol)
    (inner : ¬ symbol.isTopLevel) :
    MadeInside x symbol := by
  obtain ⟨s, kind, own⟩ := housed i symbol there
  have named := wellNamed.names_of_find own there
  have outermost := wellNamed.names_of_find bound there
  have spelled : x = t.qualify s symbol.name := by
    have root := wellNamed.root (lt_of_find bound)
    rw [← named.qualified, outermost.qualified, qualify_of_empty root.2]
  cases wellNamed.situated s (lt_of_find own) with
  | module root module => exact absurd (decide_eq_true (kind.symm.trans module)) inner
  | nameless _ nameless =>
      have assigned := named.assigned nameless
      have word : IsWord x := outermost.word (by rw [assigned]; nofun)
      have empty : (t.scope s).qualifier = "" := by
        by_contra prefixed
        rw [spelled] at word
        exact not_isWord_qualify prefixed word
      refine .assigned assigned ?_ (spelled.trans (qualify_of_empty empty)).symm
      rw [← kind]
      exact ScopeKind.not_isBody_iff.1 nameless
  | body body _ _ _ word qualifier =>
      have prefixed : (t.scope s).qualifier ≠ "" := qualifier ▸ qualify_ne_empty word
      have imported : symbol.id.kind = .imported := by
        by_contra other
        exact not_isWord_qualify prefixed (spelled ▸ outermost.word other)
      exact .imported imported (kind ▸ body) (spelled.trans (qualify_of_ne prefixed))

end SymbolTable

open SymbolTable

section

variable {file : SourceFile} {nodes : List Node} {lineCount i : Nat} {x : String} {symbol : Symbol}

/-- The search finds what the module binds the name to, or nothing. -/
theorem topLevel_of_bound (wellNamed : (definitionsOf file nodes).WellNamed)
    (bound : ((definitionsOf file nodes).scope 0).find x = some (.symbol i))
    (own : (indexNodes file nodes lineCount).symbols[i]? = some symbol) :
    ((indexNodes file nodes lineCount).topLevel x = some symbol ↔ symbol.isTopLevel) ∧
      (¬ symbol.isTopLevel → (indexNodes file nodes lineCount).topLevel x = none) := by
  refine ⟨⟨fun found => (topLevel_iff.1 found).1, fun top => ?_⟩, fun inner => ?_⟩
  · -- the name is that of the symbol, for the module qualifies neither
    obtain ⟨old, mark, there, rfl⟩ := exists_of_marked own
    have empty := (wellNamed.root (lt_of_find bound)).2
    have name : old.name = x := by
      have mine := wellNamed.names_of_find (bound_of_isTopLevel own top) there
      have given := (wellNamed.names_of_find bound there).qualified
      rwa [mine.qualified, qualify_of_empty empty, qualify_of_empty empty] at given
    exact topLevel_iff.2 ⟨top, name, i, own, bound⟩
  · cases found : (indexNodes file nodes lineCount).topLevel x with
    | none => rfl
    | some other =>
        obtain ⟨top, -, j, own', bound'⟩ := topLevel_iff.1 found
        cases bound.symm.trans bound'
        cases own.symm.trans own'
        exact absurd top inner

end

/-- **The search for a module-level name finds what the module binds the name to**, exactly if that
is a symbol at module level. Otherwise it finds nothing, and the symbol was made further in. -/
theorem topLevel_bound {file : SourceFile} {source : String} {index : FileIndex}
    (indexed : indexSource file source = .ok index) :
    ∃ nodes, Python.parse source = .ok nodes ∧
      ∀ x i, ((definitionsOf file nodes).scope 0).find x = some (.symbol i) →
        ∃ symbol, index.symbols[i]? = some symbol ∧ symbol.id.qualified = x ∧
          (index.topLevel x = some symbol ↔ symbol.isTopLevel) ∧
          (¬ symbol.isTopLevel → index.topLevel x = none ∧ MadeInside x symbol) := by
  obtain ⟨nodes, parsed, rfl⟩ := exists_parse_of_indexSource indexed
  refine ⟨nodes, parsed, fun x i bound => ?_⟩
  have wellNamed := (stands_of_parse file parsed).named
  obtain ⟨old, there, named⟩ := wellNamed.names 0 x i bound
  obtain ⟨mark, own⟩ := exists_marked there file.isPackageMarker
  have qualified : old.id.qualified = x :=
    named.qualified.trans (qualify_of_empty (wellNamed.root (lt_of_find bound)).2)
  obtain ⟨found, missed⟩ := topLevel_of_bound wellNamed bound own
  refine ⟨_, own, qualified, found, fun inner => ⟨missed inner, ?_⟩⟩
  obtain ⟨kind, scope, name⟩ | ⟨kind, scope, dotted⟩ :=
    madeInside_of_bound wellNamed (housed_definitionsOf file nodes) bound there inner
  · exact .assigned kind scope name
  · exact .imported kind scope dotted

/-- A lambda assigns a name before the module does. -/
def assignedInside : String :=
  "lambda: (x := 1)\nx = 2\n"

/-- The name is the module's, but the search does not find it. -/
theorem topLevel_bound_assigned : ∃ nodes index symbol,
    Python.parse assignedInside = .ok nodes ∧
      indexSource (rootModule "a.py" false) assignedInside = .ok index ∧
      ((definitionsOf (rootModule "a.py" false) nodes).scope 0).find "x" = some (.symbol 0) ∧
      index.symbols[0]? = some symbol ∧ symbol.scope = .lambda ∧
      index.topLevel "x" = none ∧ MadeInside "x" symbol := by
  have read : ∃ nodes index, Python.parse assignedInside = .ok nodes ∧
      indexSource (rootModule "a.py" false) assignedInside = .ok index ∧
      ((definitionsOf (rootModule "a.py" false) nodes).scope 0).find "x" = some (.symbol 0) ∧
      index.symbols[0]?.map Symbol.scope = some .lambda :=
    ⟨_, _, rfl, rfl, by decide +kernel⟩
  obtain ⟨nodes, index, parsed, indexed, bound, inside⟩ := read
  obtain ⟨same, parsed', search⟩ := topLevel_bound indexed
  cases parsed.symm.trans parsed'
  obtain ⟨symbol, own, -, -, missed⟩ := search "x" 0 bound
  have scope : symbol.scope = .lambda := by
    rw [own] at inside
    exact Option.some.inj inside
  have inner : ¬ symbol.isTopLevel := by simp [Symbol.isTopLevel, scope]
  exact ⟨nodes, index, symbol, parsed, indexed, bound, own, scope, missed inner⟩

end CodeSurvey
