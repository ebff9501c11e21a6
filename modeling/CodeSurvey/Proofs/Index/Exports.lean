import CodeSurvey.Proofs.Index.WellFormed

/-!
# Names that a module exports

A name that `__all__` lists is an uncertain use of what the module binds the name to.

* `Anchored`: a module-level symbol is what the module binds its name to.
* `exists_uncertain_of_listed`: so a module-level symbol that `__all__` lists has an uncertain use.
-/

namespace CodeSurvey

open Python (Node)

/-! ### Module-level symbols -/

namespace SymbolTable

/-- The only module scope is the outermost one, and it binds the name of every symbol that is
defined in it to that symbol. -/
structure Anchored (t : SymbolTable) : Prop where
  outermost : ∀ s < t.scopes.length, (t.scope s).kind = .module → s = 0
  bound     : ∀ i symbol, t.symbols[i]? = some symbol → symbol.isTopLevel →
    (t.scope 0).find symbol.name = some (.symbol i)

namespace Anchored

variable {t : SymbolTable}

/-- A name may be bound where it means no symbol. -/
theorem bind (h : t.Anchored) {s : Nat} {x : String}
    (free : ∀ i, (t.scope s).find x ≠ some (.symbol i)) (b : Binding) :
    (t.bind s x b).Anchored where
  outermost s' lt kind := by
    rw [length_bind] at lt
    rw [kind_bind] at kind
    exact h.outermost s' lt kind
  bound i symbol there top := by
    have old := h.bound i symbol there top
    rw [find_bind, if_neg]
    · exact old
    · rintro ⟨rfl, -, rfl⟩
      exact free i old

/-- **A definition keeps a table anchored.** A new symbol of the module is one that the module scope
binds, as no other scope is of that kind. -/
theorem define (h : t.Anchored) {s : Nat} (inside : s < t.scopes.length) (d : Definition) :
    (t.bindSymbol s d).2.Anchored := by
  rcases t.bindSymbol_cases s d with eq | ⟨free, ⟨i, -, eq⟩ | ⟨-, eq⟩⟩
  · rwa [eq]
  · rw [eq]
    exact h.bind (fun j => by rw [free]; nofun) _
  · have old := h.bind (fun j => by rw [free]; nofun) (.symbol t.symbols.length)
    rw [eq]
    refine ⟨old.outermost, fun i symbol there top => ?_⟩
    change (t.symbols ++ [t.symbolOf (t.bindingScope s d) d])[i]? = some symbol at there
    rcases getElem?_concat_cases there with there | ⟨rfl, rfl⟩
    · exact old.bound i symbol there top
    · have here : t.bindingScope s d < t.scopes.length := by
        rcases t.bindingScope_eq s d with eq | eq <;> omega
      have outermost := h.outermost _ here (of_decide_eq_true top)
      rw [find_bind, outermost, if_pos ⟨rfl, outermost ▸ here, rfl⟩]

end Anchored

theorem keeps_anchored : Keeps (fun _ => True) Anchored where
  define t s d _ inside _ _ h := h.define inside d
  record t s entry _ inside h := by
    have noted : { t with imports := t.imports ++ [entry] }.Anchored := ⟨h.outermost, h.bound⟩
    rw [addImport]
    split
    · exact noted
    · exact noted.define inside _
  hide t s x free h := h.bind (fun i bound => nomatch free _ bound) .hidden
  declare t s names h := by
    refine ⟨fun s' lt kind => ?_, fun i symbol there top => ?_⟩
    · rw [declareGlobal, scope_updateScope] at kind
      refine h.outermost s' (by simpa [declareGlobal] using lt) ?_
      split at kind
      · exact kind
      · exact kind
    · rw [find_declareGlobal]
      exact h.bound i symbol there top
  enter t site kind parent qualifier inside other h := by
    refine ⟨fun s' lt module => ?_, fun i symbol there top => ?_⟩
    · simp only [push, List.length_append, List.length_singleton] at lt
      rcases Nat.lt_succ_iff_lt_or_eq.1 lt with old | rfl
      · rw [scope_push_of_lt t old] at module
        exact h.outermost s' old module
      · rw [scope_push_self] at module
        exact absurd module other
    · rw [find_push]
      exact h.bound i symbol there top
  body t bodies h := ⟨h.outermost, h.bound⟩
  listed t exports exportsLine h := ⟨h.outermost, h.bound⟩

end SymbolTable

open SymbolTable

theorem anchored_definitionsOf (file : SourceFile) (nodes : List Node) :
    (definitionsOf file nodes).Anchored := by
  refine holds_definitionsOf keeps_anchored file (fun _ _ => trivial) ⟨fun s lt _ => ?_, nofun⟩
  simpa [SymbolTable.empty] using lt

/-! ### Names that `__all__` lists -/

/-- **A module-level symbol that `__all__` lists has an uncertain use.** -/
theorem exists_uncertain_of_listed {index : FileIndex} (indexed : index.Indexed)
    {names : List String} (exports : index.exports = some names) {symbol : Symbol}
    (own : symbol ∈ index.symbols) (top : symbol.isTopLevel) (listed : symbol.name ∈ names) :
    ∃ r ∈ index.references, r.resolution = .dynamicUncertain ∧ r.target = some symbol.id := by
  obtain ⟨file, source, nodes, -, rfl⟩ := indexed.exists_parse
  obtain ⟨i, old, mark, there, rfl⟩ := mem_markedSymbols own
  obtain ⟨mem, uncertain⟩ := mem_references_uncertain_iff.2 (UncertainUse.listed exports listed)
  have bound := (anchored_definitionsOf file nodes).bound i old there top
  refine ⟨_, mem, uncertain, ?_⟩
  simp [reference, moduleSymbol, bound, there]

end CodeSurvey
