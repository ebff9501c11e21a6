import CodeSurvey.Proofs.Index.Ownership
import Mathlib.Data.List.Nodup

/-!
# Well-formed indexes

The symbols, imports and references of an index fit together, whatever the syntax it is made from.

* `SymbolTable.Coherent`: identities are distinct, names are bound to symbols that are there, and
  the symbols of imports have their imports. Every operation of the first pass keeps this
  (`keeps_coherent`).
* `FileIndex.WellFormed`: what follows for the index.
* `indexSource_wellFormed`: a source that parses has a well-formed index.
-/

namespace CodeSurvey

open Python (Node)

/-- What is found in a list with one more entry was there, or is that entry. -/
theorem getElem?_concat_cases {α : Type} {xs : List α} {x y : α} {i : Nat}
    (h : (xs ++ [x])[i]? = some y) : xs[i]? = some y ∨ i = xs.length ∧ y = x := by
  rcases Nat.lt_or_ge i xs.length with lt | ge
  · rw [List.getElem?_append_left lt] at h
    exact .inl h
  · have last := (List.getElem?_eq_some_iff.1 h).1
    rw [List.length_append, List.length_singleton] at last
    obtain rfl : i = xs.length := by omega
    cases List.getElem?_concat_length.symm.trans h
    exact .inr ⟨rfl, rfl⟩

/-! ### Import symbols -/

/-- A symbol has a source exactly if it is that of an import, and then the import at that place
binds it. -/
structure Symbol.Sourced (imports : List Import) (symbol : Symbol) : Prop where
  imported : symbol.id.kind = .imported ↔ symbol.source.isSome
  entry    : ∀ j, symbol.source = some j → ∃ entry, imports[j]? = some entry ∧
    entry.binding = some symbol.name ∧ entry.line = symbol.line ∧
    entry.isConditional = symbol.isConditional

/-- A symbol that an import brought keeps its import while others are added. -/
theorem Symbol.Sourced.append {imports : List Import} {symbol : Symbol}
    (h : symbol.Sourced imports) (more : List Import) : symbol.Sourced (imports ++ more) where
  imported := h.imported
  entry j eq := by
    obtain ⟨entry, there, agrees⟩ := h.entry j eq
    have lt := (List.getElem?_eq_some_iff.1 there).1
    exact ⟨entry, (List.getElem?_append_left lt).trans there, agrees⟩

/-! ### Coherent tables -/

namespace SymbolTable

variable {t : SymbolTable}

/-- The symbols of a table have distinct identities and agree with its imports, and a name is bound
to no symbol that is not there. -/
structure Coherent (t : SymbolTable) : Prop where
  distinct : (t.symbols.map Symbol.id).Nodup
  bound    : ∀ s x i, (t.scope s).find x = some (.symbol i) → i < t.symbols.length
  sourced  : ∀ symbol ∈ t.symbols, symbol.Sourced t.imports

/-- A symbol that is found is in the table. -/
theorem lt_of_indexOf {id : SymbolId} {i : Nat} (h : t.indexOf id = some i) :
    i < t.symbols.length :=
  (List.findIdx?_eq_some_iff_getElem.1 h).1

/-- One that is not found has an identity of its own. -/
theorem not_mem_of_indexOf {id : SymbolId} (h : t.indexOf id = none) :
    id ∉ t.symbols.map Symbol.id := by
  intro there
  obtain ⟨symbol, listed, eq⟩ := List.mem_map.1 there
  have other := List.findIdx?_eq_none_iff.1 h symbol listed
  simp [eq] at other

namespace Coherent

/-- A name may be bound to any symbol of the table. -/
theorem bind (h : t.Coherent) (s : Nat) (x : String) {b : Binding}
    (there : ∀ i, b = .symbol i → i < t.symbols.length) : (t.bind s x b).Coherent where
  distinct := h.distinct
  bound s' x' i means := by
    rw [find_bind] at means
    split at means
    · exact there i (Option.some.inj means)
    · exact h.bound s' x' i means
  sourced := h.sourced

/-- A new symbol needs an identity that no other has, and an import if it was imported. -/
theorem grow (h : t.Coherent) {symbol : Symbol} (new : t.indexOf symbol.id = none)
    (sourced : symbol.Sourced t.imports) :
    { t with symbols := t.symbols ++ [symbol] }.Coherent where
  distinct := by
    rw [List.map_append, List.map_singleton, List.nodup_append]
    refine ⟨h.distinct, List.nodup_singleton _, fun id old id' added same => ?_⟩
    rw [List.mem_singleton.1 added] at same
    exact not_mem_of_indexOf new (same ▸ old)
  bound s x i means := by
    rw [List.length_append]
    exact Nat.lt_add_right _ (h.bound s x i means)
  sourced other there := by
    rcases List.mem_append.1 there with old | added
    · exact h.sourced other old
    · rwa [List.mem_singleton.1 added]

/-- **A definition keeps a table coherent**, if what it says about its source agrees with the
imports. -/
theorem define (h : t.Coherent) (s : Nat) (d : Definition)
    (sourced : (t.symbolOf (t.bindingScope s d) d).Sourced t.imports) :
    (t.bindSymbol s d).2.Coherent := by
  rcases t.bindSymbol_cases s d with eq | ⟨-, ⟨i, there, eq⟩ | ⟨new, eq⟩⟩
  · rwa [eq]
  · rw [eq]
    refine h.bind _ _ fun j same => ?_
    cases same
    exact lt_of_indexOf there
  · rw [eq]
    refine (h.grow new sourced).bind _ _ fun j same => ?_
    cases same
    rw [List.length_append]
    exact Nat.lt_succ_self _

/-- An import is recorded together with the symbol that it brings. -/
theorem record (h : t.Coherent) (s : Nat) (entry : Import) : (t.addImport s entry).Coherent := by
  have noted : { t with imports := t.imports ++ [entry] }.Coherent :=
    ⟨h.distinct, h.bound, fun symbol there => (h.sourced symbol there).append [entry]⟩
  rw [addImport]
  split
  · exact noted
  · rename_i name binds
    refine noted.define s _ ⟨⟨fun _ => rfl, fun _ => rfl⟩, fun j eq => ?_⟩
    cases eq
    exact ⟨entry, List.getElem?_concat_length, binds, rfl, rfl⟩

end Coherent

/-- **The pass keeps the table coherent.** -/
theorem keeps_coherent : Keeps (fun _ => True) Coherent where
  define t s d _ _ kind source h := by
    refine h.define s d ⟨?_, fun j eq => ?_⟩
    · simp [symbolOf, kind, source]
    · simp [symbolOf, source] at eq
  record t s entry _ _ h := h.record s entry
  hide t s x _ h := h.bind s x nofun
  declare t s names h := by
    refine ⟨h.distinct, fun s' x i means => ?_, h.sourced⟩
    rw [find_declareGlobal] at means
    exact h.bound s' x i means
  enter t site kind parent qualifier _ _ h := by
    refine ⟨h.distinct, fun s' x i means => ?_, h.sourced⟩
    rw [find_push] at means
    exact h.bound s' x i means
  body t bodies h := ⟨h.distinct, h.bound, h.sourced⟩
  listed t exports exportsLine h := ⟨h.distinct, h.bound, h.sourced⟩

end SymbolTable

open SymbolTable

/-- **The first pass makes a coherent table.** -/
theorem coherent_definitionsOf (file : SourceFile) (nodes : List Node) :
    (definitionsOf file nodes).Coherent := by
  refine holds_definitionsOf keeps_coherent file (fun _ _ => trivial)
    ⟨List.nodup_nil, fun s x i means => ?_, nofun⟩
  have none : ((SymbolTable.empty file.path).scope s).find x = none := by
    rcases s with _ | s <;> rfl
  cases none.symm.trans means

/-! ### Uses in a coherent table -/

namespace SymbolTable.Definite

variable {t : SymbolTable} {r : Reference}

/-- A resolved reference has a symbol of the table for its target. -/
theorem exists_target (h : Definite t r) (coherent : t.Coherent)
    (resolved : r.resolution = .resolved) : ∃ symbol ∈ t.symbols, r.target = some symbol.id := by
  cases h with
  | @certain scope i bound means name line =>
      have there := List.getElem?_eq_getElem (coherent.bound scope bound i means)
      refine ⟨_, List.mem_of_getElem? there, ?_⟩
      simp [reference, there]
  | unknown => cases resolved
  | access => cases resolved

theorem target_of_unknown (h : Definite t r) (unknown : r.resolution = .unknown) :
    r.target = none := by
  cases h with
  | certain => cases unknown
  | unknown => rfl
  | access => rfl

theorem of_access (h : Definite t r) (coherent : t.Coherent) {access : ImportAccess}
    (accesses : r.access = some access) :
    r.resolution = .unknown ∧ access.source < t.imports.length ∧ access.attributes ≠ [] := by
  cases h with
  | certain => cases accesses
  | unknown => cases accesses
  | @access symbol source attributes there imported path =>
      cases accesses
      obtain ⟨entry, listed, -⟩ := (coherent.sourced symbol there).entry source imported
      exact ⟨rfl, (List.getElem?_eq_some_iff.1 listed).1, path⟩

end SymbolTable.Definite

/-! ### Symbols with their export marks -/

/-- Marking what is exported leaves the identities of symbols. -/
theorem ids_markedSymbols (t : SymbolTable) (isPackageMarker : Bool) :
    (t.markedSymbols isPackageMarker).map Symbol.id = t.symbols.map Symbol.id := by
  rw [markedSymbols, List.map_map]
  show t.symbols.zipIdx.map (Symbol.id ∘ Prod.fst) = _
  rw [← List.map_map, List.zipIdx_map_fst]

/-- A symbol of the index is one of the table, but for its export mark. -/
theorem mem_markedSymbols {t : SymbolTable} {isPackageMarker : Bool} {symbol : Symbol}
    (h : symbol ∈ t.markedSymbols isPackageMarker) :
    ∃ (i : Nat) (old : Symbol) (mark : Bool), t.symbols[i]? = some old ∧
      symbol = { old with isExported := mark } := by
  obtain ⟨⟨old, i⟩, there, rfl⟩ := List.mem_map.1 h
  exact ⟨i, old, _, List.mem_zipIdx_iff_getElem?.1 there, rfl⟩

/-! ### Well-formed indexes -/

/-- The symbols, imports and references of an index fit together.

* The symbols have distinct identities, all in the file. Those of imports, and no others, have a
  source: the import that binds their name, on their line and as conditional as they are.
* A resolved reference has one of the symbols as its target, and an unknown one has none. An
  attribute that an imported name leads to is unknown, with an import that is there and at least one
  field.
* The symbol of a conditional import is the target of a reference that only run time can confirm. -/
structure FileIndex.WellFormed (index : FileIndex) : Prop where
  distinct    : (index.symbols.map Symbol.id).Nodup
  home        : ∀ symbol ∈ index.symbols, symbol.id.file = index.path
  sourced     : ∀ symbol ∈ index.symbols, symbol.Sourced index.imports
  resolved    : ∀ r ∈ index.references, r.resolution = .resolved →
    ∃ symbol ∈ index.symbols, r.target = some symbol.id
  unknown     : ∀ r ∈ index.references, r.resolution = .unknown → r.target = none
  access      : ∀ r ∈ index.references, ∀ access, r.access = some access →
    r.resolution = .unknown ∧ access.source < index.imports.length ∧ access.attributes ≠ []
  conditional : ∀ symbol ∈ index.symbols, symbol.id.kind = .imported → symbol.isConditional →
    ∃ r ∈ index.references, r.resolution = .dynamicUncertain ∧ r.target = some symbol.id

/-- **The index of any nodes is well formed.** -/
theorem wellFormed_indexNodes (file : SourceFile) (nodes : List Node) (lineCount : Nat) :
    (indexNodes file nodes lineCount).WellFormed := by
  have coherent := coherent_definitionsOf file nodes
  have ids := ids_markedSymbols (definitionsOf file nodes) file.isPackageMarker
  constructor
  case distinct =>
    exact ids ▸ coherent.distinct
  case home => exact (owned_indexNodes file nodes lineCount).symbols
  case sourced =>
    intro symbol h
    obtain ⟨i, old, mark, there, rfl⟩ := mem_markedSymbols h
    have sourced := coherent.sourced old (List.mem_of_getElem? there)
    exact ⟨sourced.imported, sourced.entry⟩
  case resolved =>
    intro r h resolved
    have definite := definite_of_mem_references h (by rw [resolved]; nofun)
    obtain ⟨old, there, target⟩ := definite.exists_target coherent resolved
    have listed : old.id ∈ (indexNodes file nodes lineCount).symbols.map Symbol.id :=
      ids ▸ List.mem_map_of_mem there
    obtain ⟨symbol, own, same⟩ := List.mem_map.1 listed
    exact ⟨symbol, own, same ▸ target⟩
  case unknown =>
    intro r h unknown
    have definite := definite_of_mem_references h (by rw [unknown]; nofun)
    exact definite.target_of_unknown unknown
  case access =>
    intro r h access accesses
    rcases definite_or_uncertainUse h with definite | uncertain
    · exact definite.of_access coherent accesses
    · obtain ⟨target, name, line, rfl⟩ := uncertain.exists_reference
      cases accesses
  case conditional =>
    intro symbol h imported conditional
    obtain ⟨i, old, mark, there, rfl⟩ := mem_markedSymbols h
    obtain ⟨listed, uncertain⟩ :=
      mem_references_uncertain_iff.2 (UncertainUse.conditional there imported conditional)
    refine ⟨_, listed, uncertain, ?_⟩
    simp [reference, there]

/-- The index is what a source gives. -/
def FileIndex.Indexed (index : FileIndex) : Prop :=
  ∃ file source, indexSource file source = .ok index

/-- A source that parses has an index. -/
theorem indexSource_of_parse {file : SourceFile} {source : String} {nodes : List Node}
    (parsed : Python.parse source = .ok nodes) :
    indexSource file source = .ok (indexNodes file nodes (Text.lineCount source)) := by
  rw [indexSource, parsed]

/-- A source that has an index parses. -/
theorem exists_parse_of_indexSource {file : SourceFile} {source : String} {index : FileIndex}
    (indexed : indexSource file source = .ok index) : ∃ nodes, Python.parse source = .ok nodes ∧
      index = indexNodes file nodes (Text.lineCount source) := by
  cases parsed : Python.parse source with
  | error line =>
      rw [indexSource, parsed] at indexed
      cases indexed
  | ok nodes =>
      rw [indexSource_of_parse parsed] at indexed
      cases indexed
      exact ⟨nodes, rfl, rfl⟩

theorem FileIndex.Indexed.exists_parse {index : FileIndex} (h : index.Indexed) :
    ∃ file source nodes, Python.parse source = .ok nodes ∧
      index = indexNodes file nodes (Text.lineCount source) :=
  let ⟨file, source, indexed⟩ := h
  ⟨file, source, exists_parse_of_indexSource indexed⟩

theorem FileIndex.Indexed.wellFormed {index : FileIndex} (h : index.Indexed) :
    index.WellFormed := by
  obtain ⟨file, source, nodes, -, rfl⟩ := h.exists_parse
  exact wellFormed_indexNodes file nodes _

theorem FileIndex.Indexed.owned {index : FileIndex} (h : index.Indexed) : index.Owned := by
  obtain ⟨file, source, indexed⟩ := h
  exact owned_of_indexSource indexed

/-- **A source that parses has an index, and it is well formed.** -/
theorem indexSource_wellFormed (file : SourceFile) {source : String} {nodes : List Node}
    (parsed : Python.parse source = .ok nodes) :
    ∃ index, indexSource file source = .ok index ∧ index.file = file ∧ index.WellFormed :=
  ⟨_, indexSource_of_parse parsed, rfl, wellFormed_indexNodes ..⟩

/-- A module at the root of a project. -/
def rootModule (name : String) (isTest : Bool) : SourceFile where
  location := .ofNames [name]
  path     := .ofNames [name]
  size     := 0
  language := .python
  isTest   := isTest

/-- A module that may have to do without an import, and reaches an attribute through it. -/
theorem indexSource_wellFormed_optional : ∃ index nodes,
    Python.parse "if x:\n    import json\njson.loads\n" = .ok nodes ∧
      indexSource (rootModule "a.py" false) "if x:\n    import json\njson.loads\n" = .ok index ∧
      (∃ symbol ∈ index.symbols, symbol.source = some 0 ∧ symbol.isConditional) ∧
      (∃ r ∈ index.references, r.access = some ⟨0, ["loads"]⟩) ∧ index.WellFormed := by
  have read : ∃ nodes index, Python.parse "if x:\n    import json\njson.loads\n" = .ok nodes ∧
      indexSource (rootModule "a.py" false) "if x:\n    import json\njson.loads\n" = .ok index ∧
      (∃ symbol ∈ index.symbols, symbol.source = some 0 ∧ symbol.isConditional) ∧
      (∃ r ∈ index.references, r.access = some ⟨0, ["loads"]⟩) :=
    ⟨_, _, rfl, rfl, by decide +kernel⟩
  obtain ⟨nodes, index, parsed, indexed, imported, reached⟩ := read
  obtain ⟨same, eq, -, wellFormed⟩ := indexSource_wellFormed (rootModule "a.py" false) parsed
  cases indexed.symm.trans eq
  exact ⟨index, nodes, parsed, indexed, imported, reached, wellFormed⟩

end CodeSurvey
