import CodeSurvey.Index.Definitions
import Mathlib.Logic.Relation
import Mathlib.Order.Nat

/-!
# What the first pass does to its table

The pass changes its table by a few kinds of edit, and `Edit` lists them: a name that is not bound
yet is bound to a symbol, a name is hidden, names are declared global, a scope is opened inside one
that is there, or something is noted that no scope shows.

`Edits P` is a run of edits in which a name is bound to a symbol in a scope only where `P` allows
it.

* `collect_edits`: the pass makes such a run, and binds names to symbols only in the scope it
  stands in, in the module, and in scopes that it opens itself.
* `Edits.grows`: a run keeps every scope with its kind, its parent and its bindings.
* `Edits.nested`: a run keeps every scope inside one with a lower number.
* `Edits.symbolless`: a name that `P` does not allow in a scope is bound to no symbol there.
-/

namespace CodeSurvey

open Python (Node)
open Relation (ReflTransGen)

namespace SymbolTable

/-! ### Scopes after a change -/

@[simp] theorem length_updateScope (t : SymbolTable) (i : Nat) (f : Scope → Scope) :
    (t.updateScope i f).scopes.length = t.scopes.length := by
  simp [updateScope]

/-- An update changes one scope, if that is there. -/
theorem scope_updateScope (t : SymbolTable) (i j : Nat) (f : Scope → Scope) :
    (t.updateScope i f).scope j =
      if i = j ∧ j < t.scopes.length then f (t.scope j) else t.scope j := by
  simp only [scope, updateScope, List.getD_eq_getElem?_getD, List.getElem?_modify]
  by_cases h : j < t.scopes.length
  · by_cases e : i = j <;> simp [h, e]
  · simp [h]

@[simp] theorem length_bind (t : SymbolTable) (i : Nat) (x : String) (b : Binding) :
    (t.bind i x b).scopes.length = t.scopes.length :=
  length_updateScope ..

@[simp] theorem sites_bind (t : SymbolTable) (i : Nat) (x : String) (b : Binding) :
    (t.bind i x b).sites = t.sites := rfl

/-- **A name that is bound is found in its scope**, and nothing else changes. -/
theorem find_bind (t : SymbolTable) (i j : Nat) (x y : String) (b : Binding) :
    ((t.bind i x b).scope j).find y =
      if i = j ∧ j < t.scopes.length ∧ x = y then some b else (t.scope j).find y := by
  rw [bind, scope_updateScope]
  by_cases h : i = j ∧ j < t.scopes.length
  · rw [if_pos h]
    by_cases e : x = y
    · simp [Scope.find, h, e]
    · have e' : (y == x) = false := by simpa using fun f => e f.symm
      simp [Scope.find, List.lookup_cons, e, e']
  · rw [if_neg h, if_neg fun g => h ⟨g.1, g.2.1⟩]

theorem kind_bind (t : SymbolTable) (i j : Nat) (x : String) (b : Binding) :
    ((t.bind i x b).scope j).kind = (t.scope j).kind := by
  rw [bind, scope_updateScope]; split <;> rfl

theorem parent_bind (t : SymbolTable) (i j : Nat) (x : String) (b : Binding) :
    ((t.bind i x b).scope j).parent = (t.scope j).parent := by
  rw [bind, scope_updateScope]; split <;> rfl

/-- A new scope leaves the scopes before it. -/
theorem scope_push_of_lt (t : SymbolTable) {site parent j : Nat} {kind : ScopeKind} {q : String}
    (h : j < t.scopes.length) : (t.push site kind parent q).2.scope j = t.scope j := by
  simp [scope, push, List.getD_eq_getElem?_getD, List.getElem?_append_left h]

/-- It starts without names. -/
theorem scope_push_self (t : SymbolTable) (site parent : Nat) (kind : ScopeKind) (q : String) :
    (t.push site kind parent q).2.scope t.scopes.length = ⟨kind, some parent, q, [], []⟩ := by
  simp [scope, push, List.getD_eq_getElem?_getD]

/-- Declaring names as global binds none of them. -/
@[simp] theorem find_declareGlobal (t : SymbolTable) (i j : Nat) (names : List String)
    (x : String) :
    ((t.declareGlobal i names).scope j).find x = (t.scope j).find x := by
  rw [declareGlobal, scope_updateScope]
  split <;> rfl

theorem scope_congr {t t' : SymbolTable} (h : t'.scopes = t.scopes) (i : Nat) :
    t'.scope i = t.scope i := by
  rw [scope, scope, h]

/-- A number that no scope has stands for an empty one. -/
theorem scope_of_le (t : SymbolTable) {j : Nat} (h : t.scopes.length ≤ j) :
    t.scope j = .module := by
  simp [scope, List.getD_eq_getElem?_getD, List.getElem?_eq_none h]

/-- A scope that is opened binds no name. -/
@[simp] theorem find_push (t : SymbolTable) (site parent j : Nat) (kind : ScopeKind)
    (q x : String) :
    ((t.push site kind parent q).2.scope j).find x = (t.scope j).find x := by
  rcases Nat.lt_trichotomy j t.scopes.length with lt | rfl | gt
  · rw [scope_push_of_lt t lt]
  · rw [scope_push_self, scope_of_le t (Nat.le_refl _)]
    rfl
  · rw [scope_of_le t (Nat.le_of_lt gt), scope_of_le _ (by simp [push]; omega)]

/-! ### Edits -/

/-- One change that the first pass makes. `P` says in which scope a name may be bound to a
symbol. -/
inductive Edit (P : Nat → String → Prop) : SymbolTable → SymbolTable → Prop where
  /-- A name that is not bound is bound to a symbol, in a table that may have grown by it. -/
  | define {t t' : SymbolTable} {scope index : Nat} {name : String}
      (allowed : P scope name) (free : (t.scope scope).find name = none)
      (scopes : t'.scopes = t.scopes) (sites : t'.sites = t.sites) :
      Edit P t (t'.bind scope name (.symbol index))
  /-- A name that is bound to no symbol is hidden. -/
  | hide {t : SymbolTable} {scope : Nat} {name : String}
      (free : ∀ b, (t.scope scope).find name = some b → b = .hidden) :
      Edit P t (t.bind scope name .hidden)
  /-- Names are declared global. -/
  | declare {t : SymbolTable} {scope : Nat} {names : List String} :
      Edit P t (t.declareGlobal scope names)
  /-- A scope is opened. -/
  | enter {t : SymbolTable} {site parent : Nat} {kind : ScopeKind} {qualifier : String}
      (inside : parent < t.scopes.length) :
      Edit P t (t.push site kind parent qualifier).2
  /-- Something is noted that no scope shows. -/
  | note {t t' : SymbolTable} (scopes : t'.scopes = t.scopes) (sites : t'.sites = t.sites) :
      Edit P t t'

/-- A run of edits. -/
abbrev Edits (P : Nat → String → Prop) : SymbolTable → SymbolTable → Prop :=
  ReflTransGen (Edit P)

variable {P Q : Nat → String → Prop} {t t' : SymbolTable}

/-- What an edit may bind, it may bind under weaker conditions. -/
theorem Edit.mono (hPQ : ∀ i x, P i x → Q i x) (h : Edit P t t') : Edit Q t t' := by
  cases h with
  | define allowed free scopes sites => exact .define (hPQ _ _ allowed) free scopes sites
  | hide free => exact .hide free
  | declare => exact .declare
  | enter inside => exact .enter inside
  | note scopes sites => exact .note scopes sites

theorem Edits.mono (hPQ : ∀ i x, P i x → Q i x) (h : Edits P t t') : Edits Q t t' :=
  ReflTransGen.mono (fun _ _ e => Edit.mono hPQ e) _ _ h

/-! ### What a run keeps -/

/-- Every scope of a table is there in a later one, with its kind, its parent, what its names are
bound to and its site. -/
structure Grows (t t' : SymbolTable) : Prop where
  length : t.scopes.length ≤ t'.scopes.length
  kind   : ∀ i < t.scopes.length, (t'.scope i).kind = (t.scope i).kind
  parent : ∀ i < t.scopes.length, (t'.scope i).parent = (t.scope i).parent
  find   : ∀ i < t.scopes.length, ∀ x b, (t.scope i).find x = some b → (t'.scope i).find x = some b
  sites  : ∀ entry ∈ t.sites, entry ∈ t'.sites

namespace Grows

/-- Every table grows from itself. -/
theorem refl (t : SymbolTable) : Grows t t :=
  ⟨le_refl _, fun _ _ => rfl, fun _ _ => rfl, fun _ _ _ _ h => h, fun _ h => h⟩

theorem trans {t₁ t₂ t₃ : SymbolTable} (h₁ : Grows t₁ t₂) (h₂ : Grows t₂ t₃) : Grows t₁ t₃ where
  length := h₁.length.trans h₂.length
  kind i hi := (h₂.kind i (hi.trans_le h₁.length)).trans (h₁.kind i hi)
  parent i hi := (h₂.parent i (hi.trans_le h₁.length)).trans (h₁.parent i hi)
  find i hi x b hb := h₂.find i (hi.trans_le h₁.length) x b (h₁.find i hi x b hb)
  sites entry he := h₂.sites entry (h₁.sites entry he)

/-- A change that no scope shows. -/
theorem of_eq (scopes : t'.scopes = t.scopes) (sites : t'.sites = t.sites) : Grows t t' where
  length := (congrArg List.length scopes).ge
  kind i _ := by rw [scope_congr scopes]
  parent i _ := by rw [scope_congr scopes]
  find i _ x b hb := by rwa [scope_congr scopes]
  sites entry he := by rwa [sites]

/-- A binding that does not change what the name is bound to. -/
theorem bind {scope : Nat} {name : String} {b : Binding}
    (free : ∀ b', (t.scope scope).find name = some b' → b' = b) :
    Grows t (t.bind scope name b) where
  length := by simp
  kind i _ := kind_bind ..
  parent i _ := parent_bind ..
  find i hi x b' hb := by
    rw [find_bind]
    split
    · rename_i h
      obtain ⟨rfl, -, rfl⟩ := h
      rw [free b' hb]
    · exact hb
  sites _ h := h

end Grows

/-- **An edit only adds to a table.** -/
theorem Edit.grows (h : Edit P t t') : Grows t t' := by
  cases h with
  | @define t' scope index name _ free scopes sites =>
      refine (Grows.of_eq scopes sites).trans (.bind fun b' hb => ?_)
      rw [scope_congr scopes, free] at hb
      cases hb
  | hide free => exact .bind free
  | @declare scope names =>
      refine ⟨by simp [declareGlobal], fun i _ => ?_, fun i _ => ?_, fun i _ x b hb => ?_,
        fun _ h => h⟩
      · rw [declareGlobal, scope_updateScope]; split <;> rfl
      · rw [declareGlobal, scope_updateScope]; split <;> rfl
      · rwa [find_declareGlobal]
  | enter _ =>
      refine ⟨by simp [push], fun i hi => ?_, fun i hi => ?_, fun i hi x b hb => ?_,
        fun _ h => List.mem_cons_of_mem _ h⟩
      · rw [scope_push_of_lt t hi]
      · rw [scope_push_of_lt t hi]
      · rwa [find_push]
  | note scopes sites => exact .of_eq scopes sites

/-- **A run keeps every scope.** -/
theorem Edits.grows (h : Edits P t t') : Grows t t' := by
  induction h with
  | refl => exact .refl t
  | tail _ e ih => exact ih.trans e.grows

/-- Every scope lies in one with a lower number. -/
def Nested (t : SymbolTable) : Prop :=
  ∀ i p, (t.scope i).parent = some p → p < i ∧ i < t.scopes.length

/-- A scope still lies inside an earlier one after an edit. -/
theorem Edit.nested (h : Edit P t t') (hn : t.Nested) : t'.Nested := by
  intro i p hp
  -- a scope that was there keeps its parent, and only `enter` makes a new one
  by_cases hi : i < t.scopes.length
  · rw [h.grows.parent i hi] at hp
    exact ⟨(hn i p hp).1, hi.trans_le h.grows.length⟩
  · cases h with
    | define _ _ scopes _ =>
        rw [parent_bind, scope_congr scopes, scope_of_le t (Nat.le_of_not_lt hi)] at hp
        cases hp
    | hide _ =>
        rw [parent_bind, scope_of_le t (Nat.le_of_not_lt hi)] at hp
        cases hp
    | declare =>
        rw [declareGlobal, scope_updateScope, if_neg fun e => hi e.2,
          scope_of_le t (Nat.le_of_not_lt hi)] at hp
        cases hp
    | @enter site parent kind qualifier inside =>
        by_cases e : i = t.scopes.length
        · subst e
          rw [scope_push_self] at hp
          cases hp
          exact ⟨inside, by simp [push]⟩
        · rw [scope_of_le _ (by simp [push]; omega)] at hp
          cases hp
    | note scopes _ =>
        rw [scope_congr scopes, scope_of_le t (Nat.le_of_not_lt hi)] at hp
        cases hp

/-- **A run keeps scopes nested.** -/
theorem Edits.nested (h : Edits P t t') (hn : t.Nested) : t'.Nested := by
  induction h with
  | refl => exact hn
  | tail _ e ih => exact e.nested ih

/-- A name is bound to no symbol in a scope. -/
def Symbolless (t : SymbolTable) (i : Nat) (x : String) : Prop :=
  ∀ k, (t.scope i).find x ≠ some (.symbol k)

/-- A name that an edit may not bind has no symbol after it, if it had none before. -/
theorem Edit.symbolless {i : Nat} {x : String} (h : Edit P t t') (hP : ¬ P i x)
    (hs : t.Symbolless i x) : t'.Symbolless i x := by
  intro k hk
  cases h with
  | define allowed _ scopes _ =>
      rw [find_bind] at hk
      split at hk
      · rename_i e
        obtain ⟨rfl, -, rfl⟩ := e
        exact hP allowed
      · rw [scope_congr scopes] at hk
        exact hs k hk
  | hide _ =>
      rw [find_bind] at hk
      split at hk
      · cases hk
      · exact hs k hk
  | declare =>
      rw [find_declareGlobal] at hk
      exact hs k hk
  | enter _ =>
      rw [find_push] at hk
      exact hs k hk
  | note scopes _ =>
      rw [scope_congr scopes] at hk
      exact hs k hk

/-- **A run binds names to symbols only where it may.** -/
theorem Edits.symbolless {i : Nat} {x : String} (h : Edits P t t') (hP : ¬ P i x)
    (hs : t.Symbolless i x) : t'.Symbolless i x := by
  induction h with
  | refl => exact hs
  | tail _ e ih => exact e.symbolless hP ih

/-! ### The operations of the pass are runs -/

/-- A definition binds in the scope it stands in or in the module. -/
theorem bindingScope_eq (t : SymbolTable) (s : Nat) (d : Definition) :
    t.bindingScope s d = s ∨ t.bindingScope s d = 0 := by
  rw [bindingScope]
  split
  · exact .inr rfl
  · exact .inl rfl

/-- **What a definition does to the table**: nothing, if its name is bound already; it binds the name
to the symbol with its identity; or it binds the name to a new symbol. -/
theorem bindSymbol_cases (t : SymbolTable) (s : Nat) (d : Definition) :
    (t.bindSymbol s d).2 = t ∨
    (t.scope (t.bindingScope s d)).find d.name = none ∧
      ((∃ i, t.indexOf (t.symbolOf (t.bindingScope s d) d).id = some i ∧
        (t.bindSymbol s d).2 = t.bind (t.bindingScope s d) d.name (.symbol i)) ∨
      (t.indexOf (t.symbolOf (t.bindingScope s d) d).id = none ∧
        (t.bindSymbol s d).2 =
          { t with symbols := t.symbols ++ [t.symbolOf (t.bindingScope s d) d] }.bind
            (t.bindingScope s d) d.name (.symbol t.symbols.length))) := by
  simp only [bindSymbol]
  split
  · exact .inl rfl
  · rename_i h
    have free : (t.scope (t.bindingScope s d)).find d.name = none := by
      simpa using fun e => h (Or.inr e)
    split
    · rename_i i there
      exact .inr ⟨free, .inl ⟨i, there, rfl⟩⟩
    · rename_i new
      exact .inr ⟨free, .inr ⟨new, rfl⟩⟩

/-- A definition edits the table in the scope that it binds in. -/
theorem edits_bindSymbol {s : Nat} {d : Definition} (allowed : P (t.bindingScope s d) d.name) :
    Edits P t (t.bindSymbol s d).2 := by
  rcases t.bindSymbol_cases s d with eq | ⟨free, ⟨i, -, eq⟩ | ⟨-, eq⟩⟩
  · rw [eq]
  · rw [eq]
    exact .single (.define allowed free rfl rfl)
  · rw [eq]
    exact .single (.define allowed free rfl rfl)

@[simp] theorem length_bindSymbol (t : SymbolTable) (s : Nat) (d : Definition) :
    (t.bindSymbol s d).2.scopes.length = t.scopes.length := by
  simp only [bindSymbol]
  split
  · rfl
  · split <;> simp

/-- Hiding names edits a table and binds no symbol. -/
theorem edits_hide (s : Nat) : ∀ (names : List String) (t : SymbolTable),
    Edits P t (t.hide s names)
  | [], _ => .refl
  | name :: rest, t => by
      show Edits P t (SymbolTable.hide (if _ then _ else _) s rest)
      refine ReflTransGen.trans ?_ (edits_hide s rest _)
      split
      · exact .refl
      · rename_i h
        refine .single (.hide fun b hb => ?_)
        rw [hb] at h
        exact absurd rfl h

/-- A scope that binds no symbol binds none when one more name is hidden in it. -/
theorem hidden_bind {s : Nat} (name : String)
    (fresh : ∀ x b, (t.scope s).find x = some b → b = .hidden) :
    ∀ x b, ((t.bind s name .hidden).scope s).find x = some b → b = .hidden := by
  intro x b hb
  rw [find_bind] at hb
  split at hb
  · exact (Option.some.inj hb).symm
  · exact fresh x b hb

/-- Parameters are bound in a scope that binds no symbol. -/
theorem edits_bindParams (s : Nat) (names : List String) : ∀ t : SymbolTable,
    (∀ x b, (t.scope s).find x = some b → b = .hidden) →
      Edits P t (names.foldl (fun t name => t.bind s name .hidden) t) := by
  induction names with
  | nil => exact fun _ _ => .refl
  | cons name rest ih =>
      intro t fresh
      exact .head (.hide (fresh name)) (ih _ (hidden_bind name fresh))

/-- So does opening a scope inside another. -/
theorem edits_enter {site kind parent q} (inside : parent < t.scopes.length) :
    Edits P t (t.push site kind parent q).2 :=
  .single (.enter inside)

/-- Nothing is bound in a new scope. -/
theorem fresh_push (t : SymbolTable) (site parent : Nat) (kind : ScopeKind) (q : String) :
    ∀ x b, ((t.push site kind parent q).2.scope t.scopes.length).find x = some b → b = .hidden := by
  intro x b hb
  rw [scope_push_self] at hb
  cases hb

/-- The number of the scope that a function opens. -/
theorem enterFunction_fst (t : SymbolTable) (s line : Nat) (id : String) (site : Nat)
    (params : List Node) (d : Bool) :
    (t.enterFunction s line id site params d).1 = t.scopes.length :=
  length_bindSymbol ..

theorem length_bindParams (s : Nat) (params : List Node) (t : SymbolTable) :
    (t.bindParams s params).scopes.length = t.scopes.length := by
  rw [bindParams]
  induction Node.paramNames params generalizing t with
  | nil => rfl
  | cons name rest ih => exact (ih _).trans (length_bind ..)

theorem length_enterFunction (t : SymbolTable) (s line : Nat) (id : String) (site : Nat)
    (params : List Node) (d : Bool) :
    (t.enterFunction s line id site params d).2.scopes.length = t.scopes.length + 1 := by
  simp only [enterFunction, length_bindParams]
  simp [push]

/-- Entering a function edits the table where its name may be bound. -/
theorem edits_enterFunction {s : Nat} {id : String} (line site : Nat) (params : List Node)
    (d : Bool) (inside : s < t.scopes.length) (allowed : ∀ i, i = s ∨ i = 0 → P i id) :
    Edits P t (t.enterFunction s line id site params d).2 := by
  simp only [enterFunction]
  refine .trans (edits_bindSymbol (allowed _ ?_))
    (.trans (edits_enter (by simpa using inside)) (edits_bindParams _ _ _ (fresh_push _ _ _ _ _)))
  exact bindingScope_eq t s _

/-- The number of the scope that a class opens. -/
theorem enterClass_fst (t : SymbolTable) (s line : Nat) (id : String) (site : Nat) (d : Bool) :
    (t.enterClass s line id site d).1 = t.scopes.length := by
  simp only [enterClass]
  split <;> exact length_bindSymbol ..

theorem length_enterClass (t : SymbolTable) (s line : Nat) (id : String) (site : Nat) (d : Bool) :
    (t.enterClass s line id site d).2.scopes.length = t.scopes.length + 1 := by
  simp only [enterClass]
  split <;> simp [push]

theorem edits_enterClass {s : Nat} {id : String} (line site : Nat) (d : Bool)
    (inside : s < t.scopes.length) (allowed : ∀ i, i = s ∨ i = 0 → P i id) :
    Edits P t (t.enterClass s line id site d).2 := by
  have opened : Edits P t ((t.bindSymbol s ⟨id, .classDef, line, d, false, none⟩).2.push site
      .classBody s ((t.bindSymbol s ⟨id, .classDef, line, d, false, none⟩).2.qualify s id)).2 := by
    refine .trans (edits_bindSymbol (allowed _ ?_)) (edits_enter (by simpa using inside))
    exact bindingScope_eq t s _
  simp only [enterClass]
  split
  · exact opened.tail (.note rfl rfl)
  · exact opened

/-- So do the targets of an assignment. -/
theorem edits_bindTargets {s : Nat} {target : Node}
    (allowed : ∀ i, i = s ∨ i = 0 → ∀ p ∈ target.targets, P i p.2) :
    Edits P t (t.bindTargets s target) := by
  rw [bindTargets]
  generalize target.targets = pairs at allowed
  induction pairs generalizing t with
  | nil => exact .refl
  | cons p rest ih =>
      refine .trans (edits_bindSymbol (allowed _ (bindingScope_eq t s _) p (by simp))) (ih ?_)
      exact fun i hi q hq => allowed i hi q (List.mem_cons_of_mem _ hq)

theorem edits_addImport {s : Nat} {entry : Import}
    (allowed : ∀ i, i = s ∨ i = 0 → ∀ x, entry.binding = some x → P i x) :
    Edits P t (t.addImport s entry) := by
  simp only [addImport]
  have noted : Edit P t { t with imports := t.imports ++ [entry] } := .note rfl rfl
  refine .head noted ?_
  split
  · exact .refl
  · rename_i name h
    exact edits_bindSymbol (allowed _ (bindingScope_eq ..) name h)

/-- So do imports, with the names that they bring. -/
theorem edits_addImports {s line : Nat} {c : Bool} {clause : Python.ImportClause}
    (allowed : ∀ i, i = s ∨ i = 0 → ∀ entry ∈ importsOf clause line c, ∀ x,
      entry.binding = some x → P i x) :
    Edits P t (t.addImports s line c clause) := by
  rw [addImports]
  generalize importsOf clause line c = entries at allowed
  induction entries generalizing t with
  | nil => exact .refl
  | cons entry rest ih =>
      refine .trans (edits_addImport fun i hi => allowed i hi entry (by simp)) (ih ?_)
      exact fun i hi e he => allowed i hi e (List.mem_cons_of_mem _ he)

/-- Exports are no bindings. -/
theorem edits_setExports (t : SymbolTable) (s line : Nat) (target value : Node) :
    Edits P t (t.setExports s line target value) := by
  rw [setExports.eq_def]
  split
  · split
    · exact .single (.note rfl rfl)
    · exact .refl
  · exact .refl

theorem edits_addExports (t : SymbolTable) (s : Nat) (target value : Node) :
    Edits P t (t.addExports s target value) := by
  rw [addExports.eq_def]
  split
  · split
    · exact .single (.note rfl rfl)
    · exact .refl
  · exact .refl

end SymbolTable

/-! ### Names that a node binds to symbols -/

namespace Python

/-- The names that an import statement binds. -/
def ImportClause.bindings (clause : ImportClause) : List String :=
  (SymbolTable.importsOf clause 0 false).filterMap Import.binding

namespace Node

mutual

/-- The names that the first pass may bind to symbols in the scope that the node stands in. -/
def symbolNames : Node → List String
  | .function _ id _ _ _ _      => [id]
  | .classDef _ id _ _ _        => [id]
  | .decorated _ definition     => definition.symbolNames
  | .imports _ clause           => clause.bindings
  | .assign _ target _ value    => target.targets.map Prod.snd ++ value.symbolNames
  | .augment _ value            => value.symbolNames
  | .walrus _ id value          => id :: value.symbolNames
  | .forLoop _ rest             => symbolNamesIn rest
  | .forIn target rest          => target.symbolNames ++ symbolNamesIn rest
  | .branch items               => symbolNamesIn items
  | .string _ holes             => symbolNamesIn holes
  | .attribute object _ _       => object.symbolNames
  | .subscript value indices    => value.symbolNames ++ symbolNamesIn indices
  | .call callee arguments      => callee.symbolNames ++ symbolNamesIn arguments
  | .keyword _ value            => value.symbolNames
  | .bundle _ items             => symbolNamesIn items
  | .group items                => symbolNamesIn items
  | _                           => []

/-- The names that the first pass may bind to symbols in the scope that the nodes stand in. -/
def symbolNamesIn : List Node → List String
  | []           => []
  | node :: rest => node.symbolNames ++ symbolNamesIn rest

end

end Node

end Python

theorem SymbolTable.mem_bindings {clause : Python.ImportClause} {line : Nat} {c : Bool}
    {entry : Import} {x : String} (h : entry ∈ importsOf clause line c)
    (hx : entry.binding = some x) : x ∈ clause.bindings := by
  rw [Python.ImportClause.bindings, List.mem_filterMap]
  cases clause with
  | modules names =>
      obtain ⟨name, hn, rfl⟩ := List.mem_map.1 h
      exact ⟨_, List.mem_map.2 ⟨name, hn, rfl⟩, hx⟩
  | members module level names =>
      obtain ⟨name, hn, rfl⟩ := List.mem_map.1 h
      exact ⟨_, List.mem_map.2 ⟨name, hn, rfl⟩, hx⟩
  | everything module level =>
      cases List.mem_singleton.1 h
      exact ⟨_, List.mem_singleton.2 rfl, hx⟩

/-! ### The pass is a run -/

/-- Where a part of the pass that stands in `scope`, of `count` scopes, may bind names to symbols:
the given names there, and any name in the module or in a scope that it opens. -/
def MayBind (scope count : Nat) (names : List String) (i : Nat) (x : String) : Prop :=
  (i = scope ∧ x ∈ names) ∨ i = 0 ∨ count ≤ i

namespace SymbolTable

variable {t t₁ t₂ : SymbolTable} {s : Nat}

/-- One sequence of edits after another may bind what either may. -/
theorem Edits.append {a b : List String} (h₁ : Edits (MayBind s t.scopes.length a) t t₁)
    (h₂ : Edits (MayBind s t₁.scopes.length b) t₁ t₂) :
    Edits (MayBind s t.scopes.length (a ++ b)) t t₂ := by
  refine .trans (h₁.mono ?_) (h₂.mono ?_)
  · rintro i x (⟨rfl, hx⟩ | rest)
    · exact .inl ⟨rfl, List.mem_append_left _ hx⟩
    · exact .inr rest
  · rintro i x (⟨rfl, hx⟩ | rfl | hi)
    · exact .inl ⟨rfl, List.mem_append_right _ hx⟩
    · exact .inr (.inl rfl)
    · exact .inr (.inr (h₁.grows.length.trans hi))

/-- What happens in a scope that was opened counts for none of the names around it. -/
theorem Edits.inside {a b : List String} {inner : Nat}
    (h₁ : Edits (MayBind s t.scopes.length a) t t₁) (hi : t.scopes.length ≤ inner)
    (h₂ : Edits (MayBind inner t₁.scopes.length b) t₁ t₂) :
    Edits (MayBind s t.scopes.length a) t t₂ := by
  refine .trans h₁ (h₂.mono ?_)
  rintro i x (⟨rfl, -⟩ | rfl | hi')
  · exact .inr (.inr hi)
  · exact .inr (.inl rfl)
  · exact .inr (.inr (h₁.grows.length.trans hi'))

theorem mayBind_of_mem {n i : Nat} {names : List String} {x : String} (hi : i = s ∨ i = 0)
    (hx : x ∈ names) : MayBind s n names i x :=
  hi.imp (fun e => ⟨e, hx⟩) .inl

end SymbolTable

open SymbolTable Python.Node

mutual

/-- **The first pass is a run of edits.** -/
theorem collect_edits (s : Nat) (c d : Bool) : ∀ (node : Node) (t : SymbolTable),
    s < t.scopes.length →
      Edits (MayBind s t.scopes.length node.symbolNames) t (collect s c d node t)
  | .function line id site params returns body, t, h => by
      have opened := edits_enterFunction (P := MayBind s t.scopes.length [id]) line site params d h
        fun i hi => mayBind_of_mem hi (List.mem_singleton.2 rfl)
      have inner := enterFunction_fst t s line id site params d
      refine opened.inside inner.ge (collectAll_edits _ false body _ ?_)
      rw [inner, length_enterFunction]
      exact Nat.lt_succ_self _
  | .classDef line id site bases body, t, h => by
      have opened := edits_enterClass (P := MayBind s t.scopes.length [id]) line site d h
        fun i hi => mayBind_of_mem hi (List.mem_singleton.2 rfl)
      have inner := enterClass_fst t s line id site d
      refine opened.inside inner.ge (collectAll_edits _ false body _ ?_)
      rw [inner, length_enterClass]
      exact Nat.lt_succ_self _
  | .lambda site params body, t, h => by
      have opened : Edits (MayBind s t.scopes.length []) t
          ((t.enterNameless s site .lambda).2.bindParams t.scopes.length params) :=
        .trans (edits_enter h) (edits_bindParams _ _ _ (fresh_push _ _ _ _ _))
      refine opened.inside le_rfl (collect_edits _ c false body _ ?_)
      rw [length_bindParams]
      simp [enterNameless, push]
  | .comprehension site items, t, h => by
      have opened : Edits (MayBind s t.scopes.length []) t
          (t.enterNameless s site .comprehension).2 := edits_enter h
      refine opened.inside le_rfl (collectAll_edits _ c items _ ?_)
      simp [enterNameless, push]
  | .decorated _ definition, t, h => collect_edits s c true definition t h
  | .imports line clause, t, h =>
      edits_addImports fun _ hi _ he _ hx => mayBind_of_mem hi (mem_bindings he hx)
  | .globals names, t, h => .single .declare
  | .assign line target hint value, t, h => by
      have bound : Edits (MayBind s t.scopes.length (target.targets.map Prod.snd)) t
          ((t.bindTargets s target).setExports s line target value) :=
        .trans (edits_bindTargets fun _ hi _ hp => mayBind_of_mem hi (List.mem_map_of_mem hp))
          (edits_setExports ..)
      exact bound.append (collect_edits s c false value _ (h.trans_le bound.grows.length))
  | .augment target value, t, h => by
      have noted : Edits (MayBind s t.scopes.length []) t (t.addExports s target value) :=
        edits_addExports ..
      exact noted.append (collect_edits s c false value _ (h.trans_le noted.grows.length))
  | .walrus line id value, t, h => by
      have bound : Edits (MayBind s t.scopes.length [id]) t
          (t.bindSymbol s { name := id, kind := .assigned, line }).2 :=
        edits_bindSymbol (mayBind_of_mem (bindingScope_eq ..) (List.mem_singleton.2 rfl))
      exact bound.append (collect_edits s c false value _ (h.trans_le bound.grows.length))
  | .forLoop target rest, t, h => by
      have hidden : Edits (MayBind s t.scopes.length []) t (t.hide s target.mentioned) :=
        edits_hide ..
      exact hidden.append (collectAll_edits s c rest _ (h.trans_le hidden.grows.length))
  | .forIn target rest, t, h => by
      have hidden : Edits (MayBind s t.scopes.length []) t (t.hide s target.mentioned) :=
        edits_hide ..
      have left := hidden.append
        (collect_edits s c false target _ (h.trans_le hidden.grows.length))
      exact left.append (collectAll_edits s c rest _ (h.trans_le left.grows.length))
  | .asTarget target, t, h => edits_hide ..
  | .branch items, t, h => collectAll_edits s true items t h
  | .name _ _, t, h => .refl
  | .string _ holes, t, h => collectAll_edits s c holes t h
  | .attribute object _ _, t, h => collect_edits s c false object t h
  | .subscript value indices, t, h => by
      have first := collect_edits s c false value t h
      exact first.append (collectAll_edits s c indices _ (h.trans_le first.grows.length))
  | .call callee arguments, t, h => by
      have first := collect_edits s c false callee t h
      exact first.append (collectAll_edits s c arguments _ (h.trans_le first.grows.length))
  | .keyword _ value, t, h => collect_edits s c false value t h
  | .bundle _ items, t, h => collectAll_edits s c items t h
  | .group items, t, h => collectAll_edits s c items t h
  | .param _ _ _, t, h => .refl

/-- The first pass over several nodes is a run of edits. -/
theorem collectAll_edits (s : Nat) (c : Bool) : ∀ (nodes : List Node) (t : SymbolTable),
    s < t.scopes.length →
      Edits (MayBind s t.scopes.length (symbolNamesIn nodes)) t (collectAll s c nodes t)
  | [], _, _ => .refl
  | node :: rest, t, h => by
      have first := collect_edits s c false node t h
      exact first.append (collectAll_edits s c rest _ (h.trans_le first.grows.length))

end

end CodeSurvey
