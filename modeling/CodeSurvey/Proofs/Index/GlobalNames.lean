import CodeSurvey.Proofs.Index.ScopeAgreement

/-!
# Names that are declared global

A name that is looked up in a scope is settled by the first scope outwards that mentions it: one
that binds it, or one that declares it global, which would make it the module's name.

* `Rooted` and `rooted_definitionsOf`: every scope lies in the module, so the walk outwards ends
  there.
* `FirstOutward`: the first scope on that walk with a property.
* `lookup_of_binds`, `lookup_of_declares` and `lookup_of_unbound`: the lookup finds what the first
  scope binds the name to, and minds a declaration only in the scope it starts from.
* `lookup_mentioned`: so it finds what the first scope that mentions the name says, unless that is a
  scope further out which declares the name global and another one around that scope binds it to
  something else than the module does.
-/

namespace CodeSurvey

open Python (Node)

namespace SymbolTable

/-! ### Scopes lie in the module -/

/-- Tables in which every scope but the module lies in another. -/
structure Rooted (t : SymbolTable) : Prop where
  some   : 0 < t.scopes.length
  module : (t.scope 0).kind = .module
  root   : ∀ i < t.scopes.length, (t.scope i).parent = none → i = 0

section

variable {P : Nat → String → Prop} {t t' : SymbolTable}

theorem Edit.rooted (h : Edit P t t') (hr : t.Rooted) : t'.Rooted where
  some   := hr.some.trans_le h.grows.length
  module := (h.grows.kind 0 hr.some).trans hr.module
  root i lt top := by
    by_cases hi : i < t.scopes.length
    · rw [h.grows.parent i hi] at top
      exact hr.root i hi top
    · -- the scope is new, and only `enter` makes one
      cases h with
      | define _ _ scopes _ => simp [scopes] at lt; omega
      | hide _ => simp at lt; omega
      | declare => simp [declareGlobal] at lt; omega
      | enter _ =>
          obtain rfl : i = t.scopes.length := by simp [push] at lt; omega
          rw [scope_push_self] at top
          cases top
      | note scopes _ => rw [scopes] at lt; omega

/-- **A run keeps every scope in the module.** -/
theorem Edits.rooted (h : Edits P t t') (hr : t.Rooted) : t'.Rooted := by
  induction h with
  | refl => exact hr
  | tail _ e ih => exact e.rooted ih

end

/-! ### Walking outwards -/

/-- The first scope from one outwards that has a property. -/
inductive FirstOutward (t : SymbolTable) (P : Nat → Prop) : Nat → Nat → Prop where
  | here {i : Nat} (found : P i) : FirstOutward t P i i
  | outward {i p j : Nat} (passed : ¬ P i) (parent : (t.scope i).parent = some p)
      (further : FirstOutward t P p j) : FirstOutward t P i j

section

variable {t : SymbolTable} {P Q : Nat → Prop} {i j k : Nat}

theorem FirstOutward.found (h : FirstOutward t P i j) : P j := by
  induction h with
  | here found => exact found
  | outward _ _ _ ih => exact ih

theorem FirstOutward.unique (h : FirstOutward t P i j) (h' : FirstOutward t P i k) : j = k := by
  induction h with
  | here found =>
      cases h' with
      | here => rfl
      | outward passed => exact absurd found passed
  | outward passed parent _ ih =>
      cases h' with
      | here found => exact absurd found passed
      | outward _ parent' further =>
          rw [parent] at parent'
          cases parent'
          exact ih further

theorem FirstOutward.le (nested : t.Nested) (h : FirstOutward t P i j) : j ≤ i := by
  induction h with
  | here => exact Nat.le_refl _
  | outward _ parent _ ih => exact ih.trans (nested _ _ parent).1.le

/-- Where there is a scope with a property, there is a first one with a weaker property. -/
theorem FirstOutward.weaken (weaker : ∀ i, P i → Q i) (h : FirstOutward t P i k) :
    ∃ j, FirstOutward t Q i j := by
  induction h with
  | here found => exact ⟨_, .here (weaker _ found)⟩
  | @outward i p k _ parent _ ih =>
      by_cases found : Q i
      · exact ⟨i, .here found⟩
      · obtain ⟨j, further⟩ := ih
        exact ⟨j, .outward found parent further⟩

/-- To the first scope with a property the walk passes the first with a weaker one. -/
theorem FirstOutward.through (weaker : ∀ i, P i → Q i) (h : FirstOutward t Q i j) :
    FirstOutward t P i k ↔ FirstOutward t P j k := by
  induction h with
  | here => exact Iff.rfl
  | outward passed parent _ ih =>
      refine Iff.trans ⟨fun h => ?_, .outward (fun found => passed (weaker _ found)) parent⟩ ih
      cases h with
      | here found => exact absurd (weaker _ found) passed
      | outward _ parent' further =>
          rw [parent] at parent'
          cases parent'
          exact further

/-- The walk comes to the module. -/
theorem exists_firstOutward (rooted : t.Rooted) (nested : t.Nested) (module : P 0) (i : Nat)
    (inside : i < t.scopes.length) : ∃ j, FirstOutward t P i j := by
  by_cases found : P i
  · exact ⟨i, .here found⟩
  · cases parent : (t.scope i).parent with
    | none =>
        rw [rooted.root i inside parent] at found
        exact absurd module found
    | some p =>
        have lower := (nested i p parent).1
        obtain ⟨j, further⟩ := exists_firstOutward rooted nested module p (lower.trans inside)
        exact ⟨j, .outward found parent further⟩
termination_by i
decreasing_by exact lower

end

/-! ### Looking a name up -/

/-- A scope is seen from another: a class body only from directly inside. -/
def Sees (t : SymbolTable) (s i : Nat) : Prop :=
  i = s ∨ (t.scope i).kind ≠ .classBody

/-- A scope that is seen binds a name. -/
def Binds (t : SymbolTable) (s : Nat) (x : String) (i : Nat) : Prop :=
  t.Sees s i ∧ (t.scope i).find x ≠ none

/-- A scope that is seen binds a name or declares it global. -/
def Mentions (t : SymbolTable) (s : Nat) (x : String) (i : Nat) : Prop :=
  t.Sees s i ∧ ((t.scope i).find x ≠ none ∨ x ∈ (t.scope i).globals)

section

variable {t : SymbolTable} {s j k : Nat} {x : String}

theorem Binds.mentions (h : t.Binds s x j) : t.Mentions s x j :=
  ⟨h.1, .inl h.2⟩

theorem find_of_not_binds (h : ¬ t.Binds s x s) : (t.scope s).find x = none := by
  by_contra bound
  exact h ⟨.inl rfl, bound⟩

/-- What the search around a scope looks for. -/
theorem visible_eq_none_iff {i : Nat} (around : i ≠ s) :
    (if (t.scope i).kind = .classBody then none else (t.scope i).find x) = none ↔
      ¬ t.Binds s x i := by
  simp only [Binds, Sees, around, false_or]
  split
  · rename_i body
    simp [body]
  · rename_i other
    simp [other]

theorem lookupOutward_of_binds (nested : t.Nested) : ∀ {fuel i : Nat}, i < fuel → i < s →
    FirstOutward t (t.Binds s x) i k → t.lookupOutward x fuel (some i) = (t.scope k).find x
  | fuel + 1, i, lt, around, h => by
      rw [lookupOutward]
      cases h with
      | here found =>
          rw [if_neg (found.1.resolve_left around.ne)]
          cases bound : (t.scope k).find x with
          | none => exact absurd bound found.2
          | some b => rfl
      | outward passed parent further =>
          have lower := (nested i _ parent).1
          simp only [(visible_eq_none_iff around.ne).2 passed, parent]
          exact lookupOutward_of_binds nested (by omega) (lower.trans around) further

theorem lookupOutward_of_unbound : ∀ {fuel : Nat} {i : Nat}, t.Nested → i < s →
    (∀ k, ¬ FirstOutward t (t.Binds s x) i k) → t.lookupOutward x fuel (some i) = none
  | 0, _, _, _, _ => rfl
  | fuel + 1, i, nested, around, unbound => by
      have passed : ¬ t.Binds s x i := fun found => unbound i (.here found)
      simp only [lookupOutward, (visible_eq_none_iff around.ne).2 passed]
      cases parent : (t.scope i).parent with
      | none => cases fuel <;> rfl
      | some p =>
          have lower := (nested i p parent).1
          exact lookupOutward_of_unbound nested (lower.trans around) fun k further =>
            unbound k (.outward passed parent further)

/-- **The lookup finds what the first scope binds the name to.** -/
theorem lookup_of_binds (nested : t.Nested) (h : FirstOutward t (t.Binds s x) s k)
    (undeclared : k = s ∨ x ∉ (t.scope s).globals) : t.lookup s x = (t.scope k).find x := by
  rw [lookup]
  cases h with
  | here found =>
      cases bound : (t.scope s).find x with
      | none => exact absurd bound found.2
      | some b => rfl
  | outward passed parent further =>
      obtain ⟨lower, inside⟩ := nested s _ parent
      have ne : k ≠ s := by
        have := further.le nested
        omega
      simp only [find_of_not_binds passed, if_neg (undeclared.resolve_left ne), parent]
      exact lookupOutward_of_binds nested (lower.trans inside) lower further

/-- A name that its scope declares global and does not bind is the module's. -/
theorem lookup_of_declares (free : (t.scope s).find x = none) (declared : x ∈ (t.scope s).globals) :
    t.lookup s x = (t.scope 0).find x := by
  simp only [lookup, free, if_pos declared]

/-- A name that no scope binds is not found. -/
theorem lookup_of_unbound (nested : t.Nested) (unbound : ∀ k, ¬ FirstOutward t (t.Binds s x) s k)
    (undeclared : x ∉ (t.scope s).globals) : t.lookup s x = none := by
  have passed : ¬ t.Binds s x s := fun found => unbound s (.here found)
  simp only [lookup, find_of_not_binds passed, if_neg undeclared]
  cases parent : (t.scope s).parent with
  | none => cases t.scopes.length <;> rfl
  | some p =>
      exact lookupOutward_of_unbound nested (nested s p parent).1 fun k further =>
        unbound k (.outward passed parent further)

end

end SymbolTable

open SymbolTable

theorem rooted_definitionsOf (file : SourceFile) (nodes : List Node) :
    (definitionsOf file nodes).Rooted := by
  refine (collectAll_edits 0 false nodes (.empty file.path) Nat.zero_lt_one).rooted ?_
  exact ⟨Nat.zero_lt_one, rfl, fun i lt _ => Nat.lt_one_iff.1 lt⟩

section

variable {t : SymbolTable} {s j : Nat} {x : String}

/-- A scope that mentions the name is the first to bind it, if it binds it. -/
theorem firstOutward_of_bound {b : Binding} (h : FirstOutward t (t.Mentions s x) s j)
    (bound : (t.scope j).find x = some b) : FirstOutward t (t.Binds s x) s j := by
  have binds : t.Binds s x j := ⟨h.found.1, by rw [bound]; nofun⟩
  exact (h.through fun _ => Binds.mentions).2 (.here binds)

/-- The scope that the lookup starts from does not declare a name that one further out is the first
to mention. -/
theorem undeclared_of_mentions (h : FirstOutward t (t.Mentions s x) s j) (around : j ≠ s) :
    x ∉ (t.scope s).globals := by
  cases h with
  | here => exact absurd rfl around
  | outward passed => exact fun declared => passed ⟨.inl rfl, .inr declared⟩

/-- From a scope further out that only declares a name the lookup goes on. -/
theorem lookup_of_mentions (nested : t.Nested) (h : FirstOutward t (t.Mentions s x) s j)
    (around : j ≠ s) :
    (∃ k, FirstOutward t (t.Binds s x) j k ∧ t.lookup s x = (t.scope k).find x) ∨
      (∀ k, ¬ FirstOutward t (t.Binds s x) j k) ∧ t.lookup s x = none := by
  have undeclared := undeclared_of_mentions h around
  have through : ∀ k, FirstOutward t (t.Binds s x) s k ↔ FirstOutward t (t.Binds s x) j k :=
    fun k => h.through fun _ => Binds.mentions
  by_cases binder : ∃ k, FirstOutward t (t.Binds s x) j k
  · obtain ⟨k, first⟩ := binder
    exact .inl ⟨k, first, lookup_of_binds nested ((through k).2 first) (.inr undeclared)⟩
  · have unbound : ∀ k, ¬ FirstOutward t (t.Binds s x) j k := fun k first => binder ⟨k, first⟩
    refine .inr ⟨unbound, lookup_of_unbound nested (fun k first => ?_) undeclared⟩
    exact unbound k ((through k).1 first)

/-- **The lookup finds the module's name exactly if no scope in between binds it otherwise.** -/
theorem lookup_eq_module_iff (rooted : t.Rooted) (nested : t.Nested)
    (h : FirstOutward t (t.Mentions s x) s j) (free : (t.scope j).find x = none) :
    t.lookup s x = (t.scope 0).find x ↔
      j = s ∨ ∀ k, FirstOutward t (t.Binds s x) j k → (t.scope k).find x = (t.scope 0).find x := by
  by_cases start : j = s
  · subst start
    have declared := h.found.2.resolve_left (absurd free)
    exact iff_of_true (lookup_of_declares free declared) (.inl rfl)
  · rw [or_iff_right start]
    rcases lookup_of_mentions nested h start with ⟨k, first, found⟩ | ⟨unbound, found⟩
    · rw [found]
      refine ⟨fun same k' first' => ?_, fun same => same k first⟩
      rwa [← first.unique first']
    · -- the module would be found, for the walk ends there
      have inside : j < t.scopes.length := by
        cases h with
        | here => exact absurd rfl start
        | outward _ parent further =>
            have := further.le nested
            have := nested s _ parent
            omega
      have module : (t.scope 0).find x = none := by
        by_contra bound
        have binds : t.Binds s x 0 := ⟨.inr (by rw [rooted.module]; nofun), bound⟩
        obtain ⟨k, first⟩ := exists_firstOutward rooted nested binds j inside
        exact unbound k first
      rw [found, module]
      exact iff_of_true rfl fun k first => absurd first (unbound k)

end

/-- **What a name means where scopes declare it global.** The first scope outwards that mentions a
name settles it: if it binds the name, the name means that; if no scope mentions the name, it means
nothing. A scope that only declares the name global makes it the module's where the lookup starts.
Further out the lookup goes on behind it, so that the name is the module's exactly if the first
scope there that binds it, if any, binds it to the same. -/
theorem lookup_mentioned (file : SourceFile) (nodes : List Node) (s : Nat) (x : String) :
    let t := definitionsOf file nodes
    (∀ j b, FirstOutward t (t.Mentions s x) s j → (t.scope j).find x = some b →
      t.lookup s x = some b) ∧
    ((∀ j, ¬ FirstOutward t (t.Mentions s x) s j) → t.lookup s x = none) ∧
    ∀ j, FirstOutward t (t.Mentions s x) s j → (t.scope j).find x = none →
      (t.lookup s x = (t.scope 0).find x ↔
        j = s ∨ ∀ k, FirstOutward t (t.Binds s x) j k →
          (t.scope k).find x = (t.scope 0).find x) ∧
      (j ≠ s → ∀ b, t.lookup s x = some b ↔
        ∃ k, FirstOutward t (t.Binds s x) j k ∧ (t.scope k).find x = some b) := by
  intro t
  have nested : t.Nested := nested_definitionsOf file nodes
  have rooted : t.Rooted := rooted_definitionsOf file nodes
  refine ⟨fun j b first bound => ?_, fun unmentioned => ?_, fun j first free => ⟨?_, ?_⟩⟩
  · rw [lookup_of_binds nested (firstOutward_of_bound first bound) ?_, bound]
    by_cases start : j = s
    · exact .inl start
    · exact .inr (undeclared_of_mentions first start)
  · refine lookup_of_unbound nested (fun k binder => ?_) fun declared => ?_
    · obtain ⟨j, first⟩ := binder.weaken fun _ => Binds.mentions
      exact unmentioned j first
    · exact unmentioned s (.here ⟨.inl rfl, .inr declared⟩)
  · exact lookup_eq_module_iff rooted nested first free
  · intro around b
    rcases lookup_of_mentions nested first around with ⟨k, binder, found⟩ | ⟨unbound, found⟩
    · rw [found]
      refine ⟨fun bound => ⟨k, binder, bound⟩, ?_⟩
      rintro ⟨k', binder', bound⟩
      rwa [binder.unique binder']
    · rw [found]
      refine iff_of_false nofun ?_
      rintro ⟨k, binder, -⟩
      exact unbound k binder

/-- A function that declares a name global stands in one that binds it, and has a lambda inside. -/
def shadowedGlobal : String :=
  "x = 1\ndef f():\n    x = 2\n    def g():\n        global x\n        return lambda: x\n"

/-- In the lambda the name is not the module's, although the function around it declares it
global. -/
theorem lookup_mentioned_shadowed :
    ∃ nodes, Python.parse shadowedGlobal = .ok nodes ∧
      FirstOutward (definitionsOf exampleFile nodes)
        ((definitionsOf exampleFile nodes).Mentions 3 "x") 3 2 ∧
      (definitionsOf exampleFile nodes).lookup 3 "x" = some (.symbol 2) ∧
      ((definitionsOf exampleFile nodes).scope 0).find "x" = some (.symbol 0) := by
  have read : ∃ nodes, Python.parse shadowedGlobal = .ok nodes ∧
      (definitionsOf exampleFile nodes).scopes =
        [⟨.module, none, "", [("f", .symbol 1), ("x", .symbol 0)], []⟩,
          ⟨.function, some 0, "f", [("g", .symbol 3), ("x", .symbol 2)], []⟩,
          ⟨.function, some 1, "f.g", [], ["x"]⟩,
          ⟨.lambda, some 2, "f.g", [], []⟩] := ⟨_, rfl, rfl⟩
  obtain ⟨nodes, parsed, scopes⟩ := read
  have scope : ∀ i, (definitionsOf exampleFile nodes).scope i = _ := fun i =>
    congrArg (·.getD i Scope.module) scopes
  have first : FirstOutward (definitionsOf exampleFile nodes)
      ((definitionsOf exampleFile nodes).Mentions 3 "x") 3 2 := by
    refine .outward (p := 2) ?_ ?_ (.here ?_)
    · rw [Mentions, scope]
      simp [Scope.find]
    · rw [scope]
      rfl
    · rw [Mentions, Sees, scope]
      simp
  have binder : FirstOutward (definitionsOf exampleFile nodes)
      ((definitionsOf exampleFile nodes).Binds 3 "x") 2 1 := by
    refine .outward (p := 1) ?_ ?_ (.here ?_)
    · rw [Binds, scope]
      simp [Scope.find]
    · rw [scope]
      rfl
    · rw [Binds, Sees, scope]
      simp [Scope.find]
  refine ⟨nodes, parsed, first, ?_, by rw [scope]; rfl⟩
  have around : 2 ≠ 3 := by decide
  refine (((lookup_mentioned exampleFile nodes 3 "x").2.2 2 first ?_).2 around _).2 ⟨1, binder, ?_⟩
  · rw [scope]
    rfl
  · rw [scope]
    rfl

end CodeSurvey
