import CodeSurvey.Document.Exports
import CodeSurvey.Proofs.Index.TopLevel

/-!
# The public surface of a source

A document gives the names that a module offers and their entries, and knows the methods of a class
by their qualified names.

* `FileIndex.entryOf` and `entries_of_names`: the entries are those of the names, one by one.
* `isDirectlyInside_iff`: the qualified name of a function is directly inside that of a module-level
  definition exactly if the function is defined in a body that has the definition's name.
* `exports_agree`: so the methods of a class are what the bodies of its name define, whether of
  classes or of functions, and these are the methods of its own body under exact conditions.
-/

namespace CodeSurvey

open Python (Node IsWord)

/-- Two filters of a list agree exactly if they agree on its items. -/
theorem filter_eq_filter_iff {α : Type} {p q : α → Bool} {items : List α} :
    items.filter p = items.filter q ↔ ∀ x ∈ items, p x = true ↔ q x = true := by
  constructor
  · intro same x there
    have kept : x ∈ items.filter p ↔ x ∈ items.filter q := by rw [same]
    simpa [there] using kept
  · exact fun agree => List.filter_congr fun x there => Bool.eq_iff_iff.2 (agree x there)

/-! ### Names and their entries -/

/-- The entry of a name that a module offers: the name as it is, if `__all__` lists it, or else the
entry of the module-level definition that the search finds. -/
def FileIndex.entryOf (index : FileIndex) (name : String) : Option String :=
  match index.exports with
  | some _ => some s!"- {name}"
  | none   => (index.topLevel name).bind (exportEntry index)

/-- A public symbol has an entry, unless it is an import that is not exported. -/
theorem isSome_exportEntry (index : FileIndex) (symbol : Symbol) :
    (exportEntry index symbol).isSome = (symbol.id.kind ≠ .imported || symbol.isExported) := by
  rw [exportEntry]
  cases kind : symbol.id.kind with
  | imported => cases symbol.isExported <;> rfl
  | function | classDef | assigned => rfl

theorem map_filter_isSome {α β : Type} (f : α → Option β) : ∀ items : List α,
    (items.filter fun x => (f x).isSome).map f = (items.filterMap f).map some
  | [] => rfl
  | x :: rest => by
      cases found : f x with
      | none => simp [found, map_filter_isSome f rest]
      | some y => simp [found, map_filter_isSome f rest]

/-- **The entries of a source are those of its names, one by one.** -/
theorem entries_of_names (file : SourceFile) (nodes : List Node) (lineCount : Nat) :
    (exportNames (indexNodes file nodes lineCount)).map (indexNodes file nodes lineCount).entryOf =
      (exportEntries (indexNodes file nodes lineCount)).map some := by
  generalize eq : indexNodes file nodes lineCount = index
  cases exports : index.exports with
  | some names =>
      simp only [exportNames, exportEntries, exports, List.map_map]
      refine List.map_congr_left fun name _ => ?_
      simp only [FileIndex.entryOf, exports, Function.comp_apply]
  | none =>
      simp only [exportNames, exportEntries, exports, ← map_filter_isSome, List.map_map,
        isSome_exportEntry]
      refine List.map_congr_left fun symbol there => ?_
      obtain ⟨listed, offered⟩ := List.mem_filter.1 (List.mem_filter.1 there).1
      have top := (Bool.and_eq_true_iff.1 offered).1
      subst eq
      obtain ⟨i, own⟩ := List.getElem?_of_mem listed
      have found := topLevel_iff.2 ⟨top, rfl, i, own, bound_of_isTopLevel own top⟩
      simp only [FileIndex.entryOf, exports, Function.comp_apply, found, Option.bind_some]

/-! ### Names that are directly inside others -/

theorem dropStart?_eq_some_iff {start text rest : List Char} :
    Text.dropStart? start text = some rest ↔ text = start ++ rest := by
  induction start generalizing text with
  | nil =>
      rw [Text.dropStart?, List.nil_append]
      exact Option.some_inj
  | cons c start ih =>
      cases text with
      | nil => simp [Text.dropStart?]
      | cons c' text =>
          rw [Text.dropStart?]
          by_cases same : c = c'
          · rw [if_pos same, ih]
            simp [same]
          · simp [same, Ne.symm same]

theorem isDirectlyInside_eq_true {outer qualified : String} :
    isDirectlyInside outer qualified = true ↔
      ∃ rest, qualified.toList = outer.toList ++ '.' :: rest ∧ '.' ∉ rest := by
  rw [isDirectlyInside]
  constructor
  · intro inside
    split at inside
    · rename_i rest found
      rw [dropStart?_eq_some_iff, List.append_assoc] at found
      exact ⟨rest, found, by simpa using inside⟩
    · cases inside
  · rintro ⟨rest, eq, dotless⟩
    have found : Text.dropStart? (outer.toList ++ ['.']) qualified.toList = some rest := by
      rw [dropStart?_eq_some_iff, List.append_assoc]
      exact eq
    simp only [found]
    simpa using dotless

namespace SymbolTable

/-- The scope is the body of a definition of a name at module level. -/
def BodyNamed (t : SymbolTable) (name : String) (s : Nat) : Prop :=
  ((t.scope s).kind = .classBody ∨ (t.scope s).kind = .function) ∧ (t.scope s).parent = some 0 ∧
    (t.scope s).qualifier = name

instance (t : SymbolTable) (name : String) (s : Nat) : Decidable (t.BodyNamed name s) :=
  inferInstanceAs (Decidable ((_ ∨ _) ∧ _ ∧ _))

variable {t : SymbolTable} {s i : Nat} {name : String} {symbol : Symbol}

/-- **Which functions are directly inside a name at module level**: those that are defined in a body
of that name, of whatever kind. -/
theorem isDirectlyInside_iff (wellNamed : t.WellNamed) (there : t.symbols[i]? = some symbol)
    (function : symbol.id.kind = .function) (own : t.Houses s i symbol) (word : IsWord name) :
    isDirectlyInside name symbol.id.qualified = true ↔ t.BodyNamed name s := by
  have named := wellNamed.names_of_find own.2 there
  have short : IsWord symbol.name := named.word (by rw [function]; nofun)
  rw [isDirectlyInside_eq_true]
  constructor
  · rintro ⟨rest, spelled, dotless⟩
    have inner : (t.scope s).qualifier ≠ "" := by
      intro empty
      rw [named.qualified, qualify_of_empty empty] at spelled
      exact short.2 (spelled ▸ List.mem_append_right _ List.mem_cons_self)
    rw [named.qualified, qualify_of_ne inner, toList_dotted] at spelled
    -- neither the word before the last dot nor the one behind it has a dot
    have outer := ((List.append_cons_inj_of_notMem word.2 dotless).1 spelled.symm).1
    have qualifier : (t.scope s).qualifier = name := (String.toList_inj.1 outer).symm
    cases wellNamed.situated s (lt_of_find own.2) with
    | module _ _ empty => exact absurd empty inner
    | nameless _ nameless =>
        rw [named.assigned nameless] at function
        cases function
    | @body p id kind parent inside around wordy qualified =>
        refine ⟨kind, ?_, qualifier⟩
        have first : (t.scope p).qualifier = "" := by
          by_contra deeper
          exact not_isWord_qualify deeper (qualified ▸ qualifier ▸ word)
        cases wellNamed.situated p (inside.trans (lt_of_find own.2)) with
        | module root => exact root ▸ parent
        | nameless _ nameless => exact absurd around nameless
        | body _ _ _ _ wordy qualified => exact absurd (qualified ▸ first) (qualify_ne_empty wordy)
  · rintro ⟨-, -, qualifier⟩
    have inner : (t.scope s).qualifier ≠ "" := qualifier ▸ word.1
    refine ⟨symbol.name.toList, ?_, short.2⟩
    rw [named.qualified, qualify_of_ne inner, toList_dotted, qualifier]

/-! ### Where functions are defined -/

/-- `Houses`, for a symbol that is known by its identity and not by its place. -/
def Defines (t : SymbolTable) (s : Nat) (symbol : Symbol) : Prop :=
  (t.scope s).kind = symbol.scope ∧
    ∃ i ∈ t.indexOf symbol.id, (t.scope s).find symbol.name = some (.symbol i)

instance (t : SymbolTable) (s : Nat) (symbol : Symbol) : Decidable (t.Defines s symbol) :=
  inferInstanceAs (Decidable (_ ∧ ∃ i ∈ t.indexOf symbol.id, _))

theorem Coherent.indexOf_eq (coherent : t.Coherent) (there : t.symbols[i]? = some symbol) :
    t.indexOf symbol.id = some i := by
  cases found : t.indexOf symbol.id with
  | none =>
      exact absurd (List.mem_map_of_mem (List.mem_of_getElem? there)) (not_mem_of_indexOf found)
  | some j =>
      obtain ⟨lt, same, -⟩ := List.findIdx?_eq_some_iff_getElem.1 found
      have ids : (t.symbols.map Symbol.id)[j]? = (t.symbols.map Symbol.id)[i]? := by
        rw [List.getElem?_map, List.getElem?_map, there, List.getElem?_eq_getElem lt]
        exact congrArg some (of_decide_eq_true same)
      have inside : j < (t.symbols.map Symbol.id).length := by simpa using lt
      exact congrArg some ((List.getElem?_inj inside coherent.distinct).1 ids)

theorem Coherent.defines_iff (coherent : t.Coherent) (there : t.symbols[i]? = some symbol) :
    t.Defines s symbol ↔ t.Houses s i symbol := by
  rw [Defines, coherent.indexOf_eq there, Houses]
  simp

end SymbolTable

open SymbolTable

/-- Public functions, which may be methods. -/
def Symbol.isPublicFunction (symbol : Symbol) : Bool :=
  symbol.id.kind = .function && symbol.isPublic

section

variable {file : SourceFile} {nodes : List Node} {lineCount : Nat} {cls symbol : Symbol}

/-- Every symbol is defined in a scope, under its name. -/
theorem exists_defines (own : symbol ∈ (indexNodes file nodes lineCount).symbols) :
    ∃ s < (definitionsOf file nodes).scopes.length,
      (definitionsOf file nodes).Defines s symbol := by
  obtain ⟨i, old, mark, there, rfl⟩ := mem_markedSymbols own
  obtain ⟨s, houses⟩ := housed_definitionsOf file nodes i old there
  exact ⟨s, lt_of_find houses.2, ((coherent_definitionsOf file nodes).defines_iff there).2 houses⟩

/-- A function that a scope defines is directly inside the name of the scope. -/
theorem isDirectlyInside_of_defines (wellNamed : (definitionsOf file nodes).WellNamed)
    (own : symbol ∈ (indexNodes file nodes lineCount).symbols) (candidate : symbol.isPublicFunction)
    {s : Nat} (defines : (definitionsOf file nodes).Defines s symbol) {name : String}
    (word : IsWord name) : isDirectlyInside name symbol.id.qualified = true ↔
      (definitionsOf file nodes).BodyNamed name s := by
  obtain ⟨i, old, mark, there, rfl⟩ := mem_markedSymbols own
  have function := of_decide_eq_true (Bool.and_eq_true_iff.1 candidate).1
  have houses : (definitionsOf file nodes).Houses s i old :=
    ((coherent_definitionsOf file nodes).defines_iff there).1 defines
  have inside := isDirectlyInside_iff wellNamed there function houses word
  exact inside

/-- The qualified name of a class at module level is its name, a word. -/
theorem qualified_of_isTopLevel (wellNamed : (definitionsOf file nodes).WellNamed)
    (own : cls ∈ (indexNodes file nodes lineCount).symbols) (top : cls.isTopLevel)
    (isClass : cls.id.kind = .classDef) : cls.id.qualified = cls.name ∧ IsWord cls.name := by
  obtain ⟨i, own⟩ := List.getElem?_of_mem own
  have bound := bound_of_isTopLevel own top
  obtain ⟨old, mark, there, rfl⟩ := exists_of_marked own
  have named := wellNamed.names_of_find bound there
  refine ⟨?_, named.word (by rw [isClass]; nofun)⟩
  exact named.qualified.trans (qualify_of_empty (wellNamed.root (lt_of_find bound)).2)

/-- **The methods of a class are the public functions that the bodies of its name define.** -/
theorem methodsOf_eq (wellNamed : (definitionsOf file nodes).WellNamed)
    (own : cls ∈ (indexNodes file nodes lineCount).symbols) (top : cls.isTopLevel)
    (isClass : cls.id.kind = .classDef) :
    let t := definitionsOf file nodes
    methodsOf (indexNodes file nodes lineCount) cls =
      (indexNodes file nodes lineCount).symbols.filter fun m => m.isPublicFunction ∧
        ∃ s < t.scopes.length, t.BodyNamed cls.name s ∧ t.Defines s m := by
  intro t
  obtain ⟨qualified, word⟩ := qualified_of_isTopLevel wellNamed own top isClass
  rw [methodsOf, filter_eq_filter_iff, qualified]
  intro m there
  rw [Bool.and_eq_true, decide_eq_true_iff]
  refine and_congr_right fun candidate => ?_
  constructor
  · intro inside
    obtain ⟨s, lt, defines⟩ := exists_defines there
    have named := (isDirectlyInside_of_defines wellNamed there candidate defines word).1 inside
    exact ⟨s, lt, named, defines⟩
  · rintro ⟨s, -, named, defines⟩
    exact (isDirectlyInside_of_defines wellNamed there candidate defines word).2 named

/-- **When the methods of a class are those that a scope defines**: the scope is a body of its name,
unless it defines none, and the other bodies of the name define no more. -/
theorem methodsOf_eq_iff (wellNamed : (definitionsOf file nodes).WellNamed)
    (own : cls ∈ (indexNodes file nodes lineCount).symbols) (top : cls.isTopLevel)
    (isClass : cls.id.kind = .classDef) (body : Nat) :
    let t := definitionsOf file nodes
    methodsOf (indexNodes file nodes lineCount) cls =
        (indexNodes file nodes lineCount).symbols.filter
          (fun m => m.isPublicFunction ∧ t.Defines body m) ↔
      ∀ m ∈ (indexNodes file nodes lineCount).symbols, m.isPublicFunction →
        (t.Defines body m → t.BodyNamed cls.name body) ∧
        ∀ s, t.BodyNamed cls.name s → t.Defines s m → t.Defines body m := by
  intro t
  obtain ⟨qualified, word⟩ := qualified_of_isTopLevel wellNamed own top isClass
  rw [methodsOf, filter_eq_filter_iff, qualified]
  refine forall₂_congr fun m there => ?_
  rw [Bool.and_eq_true, decide_eq_true_iff]
  refine and_congr_right_iff.trans (forall_congr' fun candidate => ?_)
  have inside : ∀ {s}, t.Defines s m →
      (isDirectlyInside cls.name m.id.qualified = true ↔ t.BodyNamed cls.name s) :=
    fun defines => isDirectlyInside_of_defines wellNamed there candidate defines word
  constructor
  · intro same
    exact ⟨fun defines => (inside defines).1 (same.2 defines), fun s named defines =>
      same.1 ((inside defines).2 named)⟩
  · rintro ⟨named, others⟩
    refine ⟨fun found => ?_, fun defines => (inside defines).2 (named defines)⟩
    obtain ⟨s, -, defines⟩ := exists_defines there
    exact others s ((inside defines).1 found) defines

end

/-- **The names and the entries of a public surface agree, and which methods its classes have.** The
methods of a class at module level are the public functions that are defined in the bodies of its
name at module level, in the order of the symbols. These are the ones that its own body defines,
exactly if that is such a body, unless it defines none, and the other such bodies define no more. -/
theorem exports_agree {file : SourceFile} {source : String} {index : FileIndex}
    (indexed : indexSource file source = .ok index) :
    (exportNames index).map index.entryOf = (exportEntries index).map some ∧
    ∃ nodes, Python.parse source = .ok nodes ∧
      let t := definitionsOf file nodes
      ∀ i cls, index.symbols[i]? = some cls → cls.isTopLevel → cls.id.kind = .classDef →
        (methodsOf index cls = index.symbols.filter fun m => m.isPublicFunction ∧
          ∃ s < t.scopes.length, t.BodyNamed cls.name s ∧ t.Defines s m) ∧
        ∃ body, t.classBodies.lookup i = some body ∧ (t.scope body).kind = .classBody ∧
          (methodsOf index cls =
              index.symbols.filter (fun m => m.isPublicFunction ∧ t.Defines body m) ↔
            ∀ m ∈ index.symbols, m.isPublicFunction →
              (t.Defines body m → t.BodyNamed cls.name body) ∧
              ∀ s, t.BodyNamed cls.name s → t.Defines s m → t.Defines body m) := by
  obtain ⟨nodes, parsed, rfl⟩ := exists_parse_of_indexSource indexed
  refine ⟨entries_of_names file nodes _, nodes, parsed, fun i cls own top isClass => ?_⟩
  have stands := stands_of_parse file parsed
  have listed := List.mem_of_getElem? own
  obtain ⟨old, mark, there, rfl⟩ := exists_of_marked own
  obtain ⟨body, -, kept, kind⟩ := stands.bodied i old there isClass
  exact ⟨methodsOf_eq stands.named listed top isClass, body, kept, kind,
    methodsOf_eq_iff stands.named listed top isClass body⟩

/-- A function has the name of a class, and a function inside. -/
def shadowedClass : String :=
  "class A:\n    pass\n\ndef A():\n    def f():\n        pass\n"

/-- The class has no method, and is listed with the function that is inside the other one. -/
theorem exports_agree_shadowed : ∃ nodes index cls,
    Python.parse shadowedClass = .ok nodes ∧
      indexSource (rootModule "a.py" false) shadowedClass = .ok index ∧
      index.symbols[0]? = some cls ∧ cls.isTopLevel ∧ cls.id.kind = .classDef ∧
      exportEntries index = ["- class A\n  - f()"] ∧
      (methodsOf index cls).map Symbol.scope = [.function] ∧
      (definitionsOf (rootModule "a.py" false) nodes).classBodies.lookup 0 = some 1 ∧
      (index.symbols.filter fun m => m.isPublicFunction ∧
        (definitionsOf (rootModule "a.py" false) nodes).Defines 1 m) = [] := by
  have read : ∃ nodes index, Python.parse shadowedClass = .ok nodes ∧
      indexSource (rootModule "a.py" false) shadowedClass = .ok index ∧
      (index.symbols[0]?.any fun cls =>
        cls.isTopLevel && cls.id.kind = .classDef && cls.name = "A") = true ∧
      exportEntries index = ["- class A\n  - f()"] ∧
      ((index.symbols.filter fun m => m.isPublicFunction ∧
        ∃ s < (definitionsOf (rootModule "a.py" false) nodes).scopes.length,
          (definitionsOf (rootModule "a.py" false) nodes).BodyNamed "A" s ∧
            (definitionsOf (rootModule "a.py" false) nodes).Defines s m).map Symbol.scope) =
        [.function] ∧
      (definitionsOf (rootModule "a.py" false) nodes).classBodies.lookup 0 = some 1 ∧
      (index.symbols.filter fun m => m.isPublicFunction ∧
        (definitionsOf (rootModule "a.py" false) nodes).Defines 1 m) = [] :=
    ⟨_, _, rfl, rfl, by decide +kernel⟩
  obtain ⟨nodes, index, parsed, indexed, first, entries, methods, kept, none⟩ := read
  obtain ⟨-, same, parsed', classes⟩ := exports_agree indexed
  cases parsed.symm.trans parsed'
  obtain ⟨cls, own, holds⟩ := (Option.any_eq_true _ _).1 first
  simp only [Bool.and_eq_true, decide_eq_true_iff] at holds
  obtain ⟨⟨top, isClass⟩, name⟩ := holds
  obtain ⟨listed, -⟩ := classes 0 cls own top isClass
  refine ⟨nodes, index, cls, parsed, indexed, own, top, isClass, entries, ?_, kept, none⟩
  rw [listed, name]
  exact methods

end CodeSurvey
