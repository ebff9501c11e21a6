import CodeSurvey.Proofs.Index.WellFormed
import CodeSurvey.Proofs.Python.Shapes

/-!
# Qualified names

A symbol is known by its qualified name, and two scopes that qualify a name alike share its symbol.

* `Houses` and `housed_definitionsOf`: a symbol is defined in a scope of the kind that it has.
* `Situated`: what scopes qualify names with, and how they lie in one another.
* `Names`: what a name that is bound to a symbol says about it.
* `collect_stands`: over syntax of the shape that the grammar makes, the first pass keeps scopes
  situated, names meaning what they say, and every class with a scope for its body.
* `stands_of_parse`: so it is in the table of a source.
-/

namespace CodeSurvey

open Python (Node IsWord)
open Python.Node (Fits FitIn)

/-- Statements may stand in scopes of the kind. -/
@[simp] def ScopeKind.IsBody : ScopeKind → Prop
  | .module | .classBody | .function => True
  | .lambda | .comprehension         => False

/-- The scopes that are no bodies are those of a `lambda` and of a comprehension. -/
theorem ScopeKind.not_isBody_iff {kind : ScopeKind} :
    ¬ kind.IsBody ↔ kind = .lambda ∨ kind = .comprehension := by
  cases kind <;> simp

namespace SymbolTable

variable {t t' : SymbolTable} {s : Nat} {x : String}

/-! ### Where symbols are defined -/

/-- A symbol is defined in a scope: the scope is of the kind that the symbol has, and binds its name
to it. -/
def Houses (t : SymbolTable) (s i : Nat) (symbol : Symbol) : Prop :=
  (t.scope s).kind = symbol.scope ∧ (t.scope s).find symbol.name = some (.symbol i)

/-- Every symbol is defined in a scope. -/
def Housed (t : SymbolTable) : Prop :=
  ∀ i symbol, t.symbols[i]? = some symbol → ∃ s, t.Houses s i symbol

/-- A scope that binds a name is there. -/
theorem lt_of_find {b : Binding} (h : (t.scope s).find x = some b) : s < t.scopes.length := by
  by_contra outside
  rw [scope_of_le t (Nat.le_of_not_lt outside)] at h
  cases h

theorem grows_bindSymbol (t : SymbolTable) (s : Nat) (d : Definition) :
    Grows t (t.bindSymbol s d).2 :=
  (edits_bindSymbol (P := fun _ _ => True) trivial).grows

/-- A scope goes on defining its symbols while the table grows. -/
theorem Houses.grow {i : Nat} {symbol : Symbol} (h : t.Houses s i symbol) (grows : Grows t t') :
    t'.Houses s i symbol :=
  have inside := lt_of_find h.2
  ⟨(grows.kind s inside).trans h.1, grows.find s inside _ _ h.2⟩

/-- A table without new symbols has a place for each of them. -/
theorem Housed.grow (h : t.Housed) (grows : Grows t t') (symbols : t'.symbols = t.symbols) :
    t'.Housed := by
  intro i symbol there
  obtain ⟨s, houses⟩ := h i symbol (symbols ▸ there)
  exact ⟨s, houses.grow grows⟩

/-- A symbol that is defined has its place in the scope that binds it. -/
theorem Housed.define (h : t.Housed) (inside : s < t.scopes.length) (d : Definition) :
    (t.bindSymbol s d).2.Housed := by
  have grows := t.grows_bindSymbol s d
  rcases t.bindSymbol_cases s d with eq | ⟨-, ⟨i, -, eq⟩ | ⟨-, eq⟩⟩
  · exact h.grow grows (by rw [eq])
  · exact h.grow grows (by rw [eq]; rfl)
  · intro i symbol there
    have symbols : (t.symbols ++ [t.symbolOf (t.bindingScope s d) d])[i]? = some symbol := by
      rwa [eq] at there
    rcases getElem?_concat_cases symbols with old | ⟨rfl, rfl⟩
    · obtain ⟨s', houses⟩ := h i symbol old
      exact ⟨s', houses.grow grows⟩
    · -- the symbol is new, and made for the scope that its name is bound in
      have here : t.bindingScope s d < t.scopes.length := by
        rcases t.bindingScope_eq s d with same | root <;> omega
      refine ⟨t.bindingScope s d, ?_, ?_⟩
      · rw [eq, kind_bind]
        rfl
      · rw [eq, find_bind, if_pos ⟨rfl, here, rfl⟩]

/-- So the whole pass keeps a place for every symbol. -/
theorem keeps_housed : Keeps (fun _ => True) Housed where
  define t s d _ inside _ _ h := h.define inside d
  record t s entry _ inside h := by
    have noted : { t with imports := t.imports ++ [entry] }.Housed := h
    rw [addImport]
    split
    · exact noted
    · exact noted.define inside _
  hide t s x free h := h.grow (.bind free) rfl
  declare t s names h := h.grow (Edit.declare (P := fun _ _ => True)).grows rfl
  enter t site kind parent q inside _ h :=
    h.grow (Edit.enter (P := fun _ _ => True) inside).grows rfl
  body _ _ h := h
  listed _ _ _ h := h

end SymbolTable

/-! ### What scopes qualify names with -/

/-- What a scope is, its names aside. -/
def Scope.frame (scope : Scope) : ScopeKind × Option Nat × String :=
  (scope.kind, scope.parent, scope.qualifier)

namespace SymbolTable

variable {t t' : SymbolTable} {s i : Nat} {x : String}

/-- Binding a name leaves the frame of every scope. -/
@[simp] theorem frame_bind (t : SymbolTable) (i j : Nat) (x : String) (b : Binding) :
    ((t.bind i x b).scope j).frame = (t.scope j).frame := by
  rw [bind, scope_updateScope]
  split <;> rfl

@[simp] theorem frame_declareGlobal (t : SymbolTable) (i j : Nat) (names : List String) :
    ((t.declareGlobal i names).scope j).frame = (t.scope j).frame := by
  rw [declareGlobal, scope_updateScope]
  split <;> rfl

theorem kind_of_frame (same : (t'.scope s).frame = (t.scope s).frame) :
    (t'.scope s).kind = (t.scope s).kind :=
  congrArg Prod.fst same

/-- Names are qualified by the frame alone. -/
theorem qualify_of_frame (same : (t'.scope s).frame = (t.scope s).frame) (x : String) :
    t'.qualify s x = t.qualify s x := by
  have qualifier : (t'.scope s).qualifier = (t.scope s).qualifier :=
    congrArg (·.2.2) same
  simp only [qualify, qualifier]

/-- In a module names stay as they are. -/
theorem qualify_of_empty (h : (t.scope s).qualifier = "") : t.qualify s x = x :=
  if_pos h

/-- In a definition they stand behind its qualified name. -/
theorem qualify_of_ne (h : (t.scope s).qualifier ≠ "") :
    t.qualify s x = s!"{(t.scope s).qualifier}.{x}" :=
  if_neg h

theorem toList_dotted (outer x : String) :
    s!"{outer}.{x}".toList = outer.toList ++ '.' :: x.toList := by
  show (outer ++ "." ++ x).toList = _
  simp

/-- A word qualified by anything is no word. -/
theorem not_isWord_qualify (h : (t.scope s).qualifier ≠ "") : ¬ IsWord (t.qualify s x) := by
  rintro ⟨-, dotless⟩
  rw [qualify_of_ne h, toList_dotted] at dotless
  exact dotless (List.mem_append_right _ List.mem_cons_self)

/-- What a word is qualified as is not empty. -/
theorem qualify_ne_empty (word : IsWord x) : t.qualify s x ≠ "" := by
  by_cases empty : (t.scope s).qualifier = ""
  · rw [qualify_of_empty empty]
    exact word.1
  · rw [qualify_of_ne empty]
    intro same
    have chars := toList_dotted (t.scope s).qualifier x
    rw [same] at chars
    exact List.append_ne_nil_of_right_ne_nil _ (List.cons_ne_nil _ _) chars.symm

/-- What a scope is, and what it qualifies names with: the module with nothing, a body with the name
of its definition in the body around it. Lambdas and comprehensions are further in. -/
inductive Situated (t : SymbolTable) (s : Nat) : Prop where
  | module (root : s = 0) (kind : (t.scope s).kind = .module)
      (qualifier : (t.scope s).qualifier = "")
  | body {p : Nat} {id : String}
      (kind : (t.scope s).kind = .classBody ∨ (t.scope s).kind = .function)
      (parent : (t.scope s).parent = some p) (inside : p < s) (around : (t.scope p).kind.IsBody)
      (word : IsWord id) (qualifier : (t.scope s).qualifier = t.qualify p id)
  | nameless (inside : 0 < s) (kind : ¬ (t.scope s).kind.IsBody)

/-- Where a scope is situated is told by the frames around it. -/
theorem Situated.of_frame (h : t.Situated s)
    (same : ∀ j ≤ s, (t'.scope j).frame = (t.scope j).frame) : t'.Situated s := by
  have own := same s (Nat.le_refl s)
  have kind := kind_of_frame own
  have qualifier : (t'.scope s).qualifier = (t.scope s).qualifier := congrArg (·.2.2) own
  cases h with
  | module root module empty => exact .module root (kind.trans module) (qualifier.trans empty)
  | body body parent inside around word qualified =>
      have outer := same _ inside.le
      refine .body (kind ▸ body) ((congrArg (·.2.1) own).trans parent) inside ?_ word ?_
      · rwa [kind_of_frame outer]
      · rw [qualifier, qualified, qualify_of_frame outer]
  | nameless inside other => exact .nameless inside (kind ▸ other)

/-- What a name that is bound to a symbol says about its identity: it is what the scope qualifies
the name as. Only imports bind names that are no words, and only assignments bind names in lambdas
and comprehensions. -/
structure Names (t : SymbolTable) (s : Nat) (x : String) (id : SymbolId) : Prop where
  qualified : id.qualified = t.qualify s x
  word      : id.kind ≠ .imported → IsWord x
  assigned  : ¬ (t.scope s).kind.IsBody → id.kind = .assigned

/-- So is what its names are. -/
theorem Names.of_frame {id : SymbolId} (h : t.Names s x id)
    (same : (t'.scope s).frame = (t.scope s).frame) : t'.Names s x id where
  qualified := h.qualified.trans (qualify_of_frame same x).symm
  word      := h.word
  assigned  := kind_of_frame same ▸ h.assigned

/-- Scopes are situated, and names that are bound to symbols mean what they say. -/
structure WellNamed (t : SymbolTable) : Prop where
  situated : ∀ s < t.scopes.length, t.Situated s
  names    : ∀ s x i, (t.scope s).find x = some (.symbol i) →
    ∃ symbol, t.symbols[i]? = some symbol ∧ t.Names s x symbol.id

namespace WellNamed

/-- **A bound name names the symbol that it is bound to.** -/
theorem names_of_find (h : t.WellNamed) {symbol : Symbol}
    (bound : (t.scope s).find x = some (.symbol i)) (there : t.symbols[i]? = some symbol) :
    t.Names s x symbol.id := by
  obtain ⟨same, there', named⟩ := h.names s x i bound
  cases there.symm.trans there'
  exact named

/-- The first scope is that of the module. -/
theorem root (h : t.WellNamed) (inside : s < t.scopes.length) :
    (t.scope 0).kind = .module ∧ (t.scope 0).qualifier = "" := by
  cases h.situated 0 (Nat.zero_lt_of_lt inside) with
  | module _ kind qualifier => exact ⟨kind, qualifier⟩
  | body _ _ inside => exact absurd inside (Nat.not_lt_zero _)
  | nameless inside => exact absurd inside (Nat.lt_irrefl 0)

/-- What does not change scopes, and leaves the symbols where they are. -/
theorem of_frame (h : t.WellNamed) (length : t'.scopes.length = t.scopes.length)
    (same : ∀ j, (t'.scope j).frame = (t.scope j).frame)
    (names : ∀ s x i, (t'.scope s).find x = some (.symbol i) →
      (t.scope s).find x = some (.symbol i))
    (symbols : ∀ (i : Nat) symbol, t.symbols[i]? = some symbol → t'.symbols[i]? = some symbol) :
    t'.WellNamed where
  situated s inside := (h.situated s (length ▸ inside)).of_frame fun j _ => same j
  names s x i bound := by
    obtain ⟨symbol, there, named⟩ := h.names s x i (names s x i bound)
    exact ⟨symbol, symbols i symbol there, named.of_frame (same s)⟩

/-- Hiding a name leaves the others named as they are. -/
theorem hide (h : t.WellNamed) (s : Nat) (x : String) : (t.bind s x .hidden).WellNamed := by
  refine h.of_frame (length_bind ..) (frame_bind t s · x _) (fun s' x' i bound => ?_) fun _ _ => id
  rw [find_bind] at bound
  split at bound
  · cases bound
  · exact bound

/-- Nor does a declaration as global change a name. -/
theorem declare (h : t.WellNamed) (s : Nat) (names : List String) :
    (t.declareGlobal s names).WellNamed :=
  h.of_frame (length_updateScope ..) (frame_declareGlobal t s · names)
    (fun s' x _ bound => by rwa [find_declareGlobal] at bound) fun _ _ => id

/-- A name is bound to a symbol that it fits. -/
theorem bind (h : t.WellNamed) {symbol : Symbol} (there : t.symbols[i]? = some symbol)
    (named : t.Names s x symbol.id) : (t.bind s x (.symbol i)).WellNamed where
  situated s' inside :=
    (h.situated s' (length_bind t s x _ ▸ inside)).of_frame fun j _ => frame_bind ..
  names s' x' i' bound := by
    rw [find_bind] at bound
    split at bound
    · rename_i same
      obtain ⟨rfl, -, rfl⟩ := same
      cases bound
      exact ⟨symbol, there, named.of_frame (frame_bind ..)⟩
    · obtain ⟨old, there, named⟩ := h.names s' x' i' bound
      exact ⟨old, there, named.of_frame (frame_bind ..)⟩

/-- **A definition binds a name that fits its symbol**, be the symbol new or shared. -/
theorem define (h : t.WellNamed) {d : Definition} (inside : s < t.scopes.length)
    (word : d.kind ≠ .imported → IsWord d.name)
    (body : (t.scope s).kind.IsBody ∨ d.kind = .assigned) : (t.bindSymbol s d).2.WellNamed := by
  have named : t.Names (t.bindingScope s d) d.name (t.symbolOf (t.bindingScope s d) d).id := by
    refine ⟨rfl, word, fun nameless => ?_⟩
    rcases t.bindingScope_eq s d with same | module
    · rw [same] at nameless
      exact body.resolve_left nameless
    · rw [module, (h.root inside).1] at nameless
      exact absurd trivial nameless
  rcases t.bindSymbol_cases s d with eq | ⟨-, ⟨i, shared, eq⟩ | ⟨-, eq⟩⟩
  · rwa [eq]
  · obtain ⟨lt, same, -⟩ := List.findIdx?_eq_some_iff_getElem.1 shared
    rw [eq]
    refine h.bind (List.getElem?_eq_getElem lt) ?_
    rwa [of_decide_eq_true same]
  · have grown : { t with symbols := t.symbols ++ [t.symbolOf (t.bindingScope s d) d] }.WellNamed :=
      h.of_frame rfl (fun _ => rfl) (fun _ _ _ => id) fun i symbol there =>
        (List.getElem?_append_left (List.getElem?_eq_some_iff.1 there).1).trans there
    rw [eq]
    exact grown.bind List.getElem?_concat_length (named.of_frame rfl)

/-- A new scope brings no names with it. -/
theorem push (h : t.WellNamed) {site p : Nat} {kind : ScopeKind} {q : String}
    (new : (t.push site kind p q).2.Situated t.scopes.length) :
    (t.push site kind p q).2.WellNamed where
  situated s inside := by
    have length : (t.push site kind p q).2.scopes.length = t.scopes.length + 1 := by
      simp [SymbolTable.push]
    rcases Nat.lt_succ_iff_lt_or_eq.1 (length ▸ inside) with old | rfl
    · exact (h.situated s old).of_frame fun j le => by rw [scope_push_of_lt t (le.trans_lt old)]
    · exact new
  names s x i bound := by
    rw [find_push] at bound
    obtain ⟨symbol, there, named⟩ := h.names s x i bound
    exact ⟨symbol, there, named.of_frame (by rw [scope_push_of_lt t (lt_of_find bound)])⟩

/-- The body of a definition is opened. -/
theorem pushBody (h : t.WellNamed) {kind : ScopeKind} {id : String} (site : Nat)
    (inside : s < t.scopes.length) (around : (t.scope s).kind.IsBody)
    (body : kind = .classBody ∨ kind = .function) (word : IsWord id) :
    (t.push site kind s (t.qualify s id)).2.WellNamed := by
  have same : ((t.push site kind s (t.qualify s id)).2.scope s).frame = (t.scope s).frame := by
    rw [scope_push_of_lt t inside]
  refine h.push (.body ?_ ?_ inside (by rwa [kind_of_frame same]) word ?_)
  · rwa [scope_push_self]
  · rw [scope_push_self]
  · rw [scope_push_self, qualify_of_frame same]

/-- A lambda or a comprehension is opened. -/
theorem pushNameless (h : t.WellNamed) {kind : ScopeKind} {q : String} (site : Nat)
    (inside : s < t.scopes.length) (nameless : ¬ kind.IsBody) :
    (t.push site kind s q).2.WellNamed := by
  refine h.push (.nameless (Nat.zero_lt_of_lt inside) ?_)
  rwa [scope_push_self]

/-- Only scopes and symbols matter for names. -/
theorem note (h : t.WellNamed) (scopes : t'.scopes = t.scopes) (symbols : t'.symbols = t.symbols) :
    t'.WellNamed :=
  h.of_frame (congrArg List.length scopes) (fun j => by rw [scope_congr scopes])
    (fun s x i bound => by rwa [scope_congr scopes] at bound) fun i symbol there => by rwa [symbols]

end WellNamed

/-! ### Bodies of classes -/

/-- Every class has a scope for its body. -/
def Bodied (t : SymbolTable) : Prop :=
  ∀ (i : Nat) symbol, t.symbols[i]? = some symbol → symbol.id.kind = .classDef →
    ∃ c < t.scopes.length, t.classBodies.lookup i = some c ∧ (t.scope c).kind = .classBody

/-- While the table grows, classes keep their bodies. -/
theorem Bodied.grow (h : t.Bodied) (grows : Grows t t') (bodies : t'.classBodies = t.classBodies)
    (symbols : ∀ (i : Nat) symbol, t'.symbols[i]? = some symbol → symbol.id.kind = .classDef →
      t.symbols[i]? = some symbol) : t'.Bodied := by
  intro i symbol there isClass
  obtain ⟨c, inside, body, kind⟩ := h i symbol (symbols i symbol there isClass) isClass
  exact ⟨c, inside.trans_le grows.length, bodies ▸ body, (grows.kind c inside).trans kind⟩

theorem classBodies_bindSymbol (t : SymbolTable) (s : Nat) (d : Definition) :
    (t.bindSymbol s d).2.classBodies = t.classBodies := by
  rcases t.bindSymbol_cases s d with eq | ⟨-, ⟨i, -, eq⟩ | ⟨-, eq⟩⟩ <;> rw [eq] <;> rfl

/-- What a definition tells of its symbol: nothing, or the place at which it is new. -/
theorem symbols_bindSymbol (t : SymbolTable) (s : Nat) (d : Definition) :
    ((t.bindSymbol s d).1 = none ∧ (t.bindSymbol s d).2.symbols = t.symbols) ∨
      ((t.bindSymbol s d).1 = some t.symbols.length ∧
        (t.bindSymbol s d).2.symbols =
          t.symbols ++ [t.symbolOf (t.bindingScope s d) d]) := by
  simp only [bindSymbol]
  split
  · exact .inl ⟨rfl, rfl⟩
  · split
    · exact .inl ⟨rfl, rfl⟩
    · exact .inr ⟨rfl, rfl⟩

/-- A definition that is no class brings no body. -/
theorem Bodied.define (h : t.Bodied) {d : Definition} (other : d.kind ≠ .classDef) :
    (t.bindSymbol s d).2.Bodied := by
  refine h.grow (t.grows_bindSymbol s d) (t.classBodies_bindSymbol s d)
    fun i symbol there isClass => ?_
  rcases t.symbols_bindSymbol s d with ⟨-, same⟩ | ⟨-, grown⟩
  · rwa [same] at there
  · rw [grown] at there
    rcases getElem?_concat_cases there with old | ⟨-, rfl⟩
    · exact old
    · exact absurd isClass other

/-- What a class tells of its body: nothing, or the scope that is opened for it. -/
theorem classBodies_enterClass (t : SymbolTable) (s line : Nat) (id : String) (site : Nat)
    (d : Bool) :
    ((t.enterClass s line id site d).2.classBodies = t.classBodies ∧
        (t.enterClass s line id site d).2.symbols = t.symbols) ∨
      ((t.enterClass s line id site d).2.classBodies =
          (t.symbols.length, t.scopes.length) :: t.classBodies ∧
        ∃ symbol, (t.enterClass s line id site d).2.symbols = t.symbols ++ [symbol]) := by
  have bodies := t.classBodies_bindSymbol s ⟨id, .classDef, line, d, false, none⟩
  have length := t.length_bindSymbol s ⟨id, .classDef, line, d, false, none⟩
  rcases t.symbols_bindSymbol s ⟨id, .classDef, line, d, false, none⟩ with
    ⟨shared, same⟩ | ⟨new, grown⟩
  · left
    simp only [enterClass, shared]
    exact ⟨bodies, same⟩
  · right
    simp only [enterClass, new]
    exact ⟨by rw [← bodies, ← length]; rfl, _, grown⟩

/-- The scope that a class opens is a class body. -/
theorem kind_enterClass (t : SymbolTable) (s line : Nat) (id : String) (site : Nat) (d : Bool) :
    ((t.enterClass s line id site d).2.scope t.scopes.length).kind = .classBody := by
  have length := t.length_bindSymbol s ⟨id, .classDef, line, d, false, none⟩
  simp only [enterClass]
  split <;> exact length ▸ congrArg Scope.kind (scope_push_self _ site _ _ _)

/-- **A class that is entered has its body**, under the name that it is bound to. -/
theorem Bodied.enterClass (h : t.Bodied) (inside : s < t.scopes.length) (line : Nat) (id : String)
    (site : Nat) (d : Bool) : (t.enterClass s line id site d).2.Bodied := by
  have grows : Grows t (t.enterClass s line id site d).2 :=
    (edits_enterClass (P := fun _ _ => True) line site d inside fun _ _ => trivial).grows
  rcases t.classBodies_enterClass s line id site d with ⟨bodies, symbols⟩ | ⟨bodies, new, symbols⟩
  · exact h.grow grows bodies fun i symbol there _ => by rwa [symbols] at there
  · intro i symbol there isClass
    rw [symbols] at there
    rcases getElem?_concat_cases there with old | ⟨rfl, -⟩
    · obtain ⟨c, opened, body, kind⟩ := h i symbol old isClass
      have lt := (List.getElem?_eq_some_iff.1 old).1
      refine ⟨c, opened.trans_le grows.length, ?_, (grows.kind c opened).trans kind⟩
      have other : (i == t.symbols.length) = false := by simpa using lt.ne
      rw [bodies, List.lookup_cons, other]
      exact body
    · refine ⟨t.scopes.length, ?_, ?_, t.kind_enterClass s line id site d⟩
      · rw [length_enterClass]
        exact Nat.lt_succ_self _
      · rw [bodies, List.lookup_cons, beq_self_eq_true]

/-! ### The operations of the pass -/

/-- The pass stands in a scope of a kind, and its table is as it should be. -/
structure Stands (kind : ScopeKind) (s : Nat) (t : SymbolTable) : Prop where
  inside : s < t.scopes.length
  here   : (t.scope s).kind = kind
  named  : t.WellNamed
  bodied : t.Bodied

namespace Stands

variable {kind inner : ScopeKind}

/-- A scope that the pass stands in stays while the table grows. -/
theorem grow (h : Stands kind s t) (grows : Grows t t') (named : t'.WellNamed)
    (bodied : t'.Bodied) : Stands kind s t' :=
  ⟨h.inside.trans_le grows.length, (grows.kind s h.inside).trans h.here, named, bodied⟩

theorem body (h : Stands kind s t) (body : kind.IsBody) : (t.scope s).kind.IsBody := by
  rwa [h.here]

theorem note (h : Stands kind s t) (scopes : t'.scopes = t.scopes) (sites : t'.sites = t.sites)
    (symbols : t'.symbols = t.symbols) (bodies : t'.classBodies = t.classBodies) :
    Stands kind s t' :=
  have grows : Grows t t' := .of_eq scopes sites
  h.grow grows (h.named.note scopes symbols)
    (h.bodied.grow grows bodies fun _ _ there _ => symbols ▸ there)

/-- A definition in it keeps it standing, unless it is one of a class. -/
theorem define (h : Stands kind s t) {d : Definition} (word : d.kind ≠ .imported → IsWord d.name)
    (body : kind.IsBody ∨ d.kind = .assigned) (other : d.kind ≠ .classDef) :
    Stands kind s (t.bindSymbol s d).2 :=
  h.grow (t.grows_bindSymbol s d)
    (h.named.define h.inside word (h.here ▸ body)) (h.bodied.define other)

/-- So do assignments to names. -/
theorem bindTargets (h : Stands kind s t) (target : Node)
    (words : ∀ p ∈ target.targets, IsWord p.2) : Stands kind s (t.bindTargets s target) :=
  Works.foldl _ (fun _ (_, name) there h =>
    h.define (fun _ => words (_, name) there) (.inr rfl) nofun) h

/-- An import stands only in a body, and binds its name there. -/
theorem addImport (h : Stands kind s t) (body : kind.IsBody) (entry : Import) :
    Stands kind s (t.addImport s entry) := by
  have noted : Stands kind s { t with imports := t.imports ++ [entry] } := h.note rfl rfl rfl rfl
  rw [SymbolTable.addImport]
  split
  · exact noted
  · have other : SymbolKind.imported ≠ .classDef := by decide
    exact noted.define (fun word => absurd rfl word) (.inl body) other

theorem addImports (h : Stands kind s t) (body : kind.IsBody) (line : Nat) (c : Bool)
    (clause : Python.ImportClause) : Stands kind s (t.addImports s line c clause) :=
  Works.foldl _ (fun _ entry _ h => h.addImport body entry) h

/-- Hiding a name does no harm if it is hidden already. -/
theorem hideOne (h : Stands kind s t) (free : ∀ b, (t.scope s).find x = some b → b = .hidden) :
    Stands kind s (t.bind s x .hidden) :=
  have grows : Grows t (t.bind s x .hidden) := .bind free
  h.grow grows (h.named.hide s x) (h.bodied.grow grows rfl fun _ _ there _ => there)

theorem hide (h : Stands kind s t) (names : List String) : Stands kind s (t.hide s names) := by
  refine Works.foldl names (fun t name _ h => ?_) h
  split
  · exact h
  · rename_i free
    refine h.hideOne fun b bound => ?_
    rw [bound] at free
    exact absurd rfl free

/-- Parameters are bound in a scope that binds no symbol. -/
theorem bindParams (h : Stands kind s t) (params : List Node)
    (fresh : ∀ x b, (t.scope s).find x = some b → b = .hidden) :
    Stands kind s (t.bindParams s params) := by
  have all : ∀ t : SymbolTable, ∀ name ∈ Node.paramNames params,
      (Stands kind s t ∧ ∀ x b, (t.scope s).find x = some b → b = .hidden) →
        Stands kind s (t.bind s name .hidden) ∧
          ∀ x b, ((t.bind s name .hidden).scope s).find x = some b → b = .hidden := by
    rintro t name - ⟨h, fresh⟩
    exact ⟨h.hideOne (fresh name), hidden_bind name fresh⟩
  exact (Works.foldl _ all ⟨h, fresh⟩).1

theorem declare (h : Stands kind s t) (names : List String) :
    Stands kind s (t.declareGlobal s names) :=
  have grows : Grows t (t.declareGlobal s names) := (Edit.declare (P := fun _ _ => True)).grows
  h.grow grows (h.named.declare s names) (h.bodied.grow grows rfl fun _ _ there _ => there)

theorem setExports (h : Stands kind s t) (line : Nat) (target value : Node) :
    Stands kind s (t.setExports s line target value) := by
  rw [SymbolTable.setExports.eq_def]
  split
  · split
    · exact h.note rfl rfl rfl rfl
    · exact h
  · exact h

theorem addExports (h : Stands kind s t) (target value : Node) :
    Stands kind s (t.addExports s target value) := by
  rw [SymbolTable.addExports.eq_def]
  split
  · split
    · exact h.note rfl rfl rfl rfl
    · exact h
  · exact h

theorem push (h : Stands kind s t) {site : Nat} {q : String}
    (named : (t.push site inner s q).2.WellNamed) :
    Stands inner t.scopes.length (t.push site inner s q).2 where
  inside := by simp [SymbolTable.push]
  here   := congrArg Scope.kind (scope_push_self ..)
  named  := named
  bodied := h.bodied.grow (Edit.enter (P := fun _ _ => True) h.inside).grows rfl
    fun _ _ there _ => there

/-- **In a function the pass stands in the scope of the function.** -/
theorem enterFunction (h : Stands kind s t) (body : kind.IsBody) {id : String} (word : IsWord id)
    (line site : Nat) (params : List Node) (d : Bool) :
    Stands .function (t.enterFunction s line id site params d).1
      (t.enterFunction s line id site params d).2 := by
  have bound : Stands kind s (t.bindSymbol s ⟨id, .function, line, d, false, none⟩).2 :=
    h.define (fun _ => word) (.inl body) nofun
  have opened := bound.named.pushBody site bound.inside (bound.body body) (.inr rfl) word
  exact (bound.push opened).bindParams params (fresh_push _ _ _ _ _)

/-- **In a class it stands in the body of the class.** -/
theorem enterClass (h : Stands kind s t) (body : kind.IsBody) {id : String} (word : IsWord id)
    (line site : Nat) (d : Bool) :
    Stands .classBody (t.enterClass s line id site d).1 (t.enterClass s line id site d).2 := by
  have grows := t.grows_bindSymbol s ⟨id, .classDef, line, d, false, none⟩
  have bound : (t.bindSymbol s ⟨id, .classDef, line, d, false, none⟩).2.WellNamed :=
    h.named.define h.inside (fun _ => word) (.inl (h.body body))
  have around : ((t.bindSymbol s ⟨id, .classDef, line, d, false, none⟩).2.scope s).kind.IsBody := by
    rw [grows.kind s h.inside]
    exact h.body body
  have opened := bound.pushBody site (h.inside.trans_le grows.length) around (.inl rfl) word
  rw [enterClass_fst]
  refine ⟨?_, t.kind_enterClass s line id site d, ?_, h.bodied.enterClass h.inside line id site d⟩
  · rw [length_enterClass]
    exact Nat.lt_succ_self _
  · simp only [SymbolTable.enterClass]
    split
    · exact opened.note rfl rfl
    · exact opened

/-- A `lambda` or a comprehension has a scope without a name. -/
theorem enterNameless (h : Stands kind s t) (nameless : ¬ inner.IsBody) (site : Nat) :
    Stands inner t.scopes.length (t.enterNameless s site inner).2 :=
  h.push (h.named.pushNameless site h.inside nameless)

end Stands

end SymbolTable

/-! ### The pass -/

namespace Python.Node

mutual

/-- The names that an assignment binds are words. -/
theorem isWord_of_targets : ∀ {node : Node} {b : Bool}, node.Fits b →
    ∀ p ∈ node.targets, IsWord p.2
  | .name .., _, fit, _, there => by
      rw [targets, List.mem_singleton] at there
      exact there ▸ fit
  | .bundle .., _, fit, p, there => isWord_of_targetsOf fit p there
  | .string .., _, _, _, there | .attribute .., _, _, _, there | .subscript .., _, _, _, there
  | .call .., _, _, _, there | .keyword .., _, _, _, there | .group _, _, _, _, there
  | .lambda .., _, _, _, there | .comprehension .., _, _, _, there | .forIn .., _, _, _, there
  | .walrus .., _, _, _, there | .asTarget _, _, _, _, there | .param .., _, _, _, there
  | .assign .., _, _, _, there | .augment .., _, _, _, there | .forLoop .., _, _, _, there
  | .branch _, _, _, _, there | .function .., _, _, _, there | .classDef .., _, _, _, there
  | .decorated .., _, _, _, there | .imports .., _, _, _, there | .globals _, _, _, _, there =>
      nomatch there

/-- So is the target of every node in a list. -/
theorem isWord_of_targetsOf : ∀ {nodes : List Node} {b : Bool}, FitIn b nodes →
    ∀ p ∈ targetsOf nodes, IsWord p.2
  | [], _, _, _, there => nomatch there
  | _ :: _, _, fit, p, there =>
      (List.mem_append.1 there).elim (isWord_of_targets fit.1 p) (isWord_of_targetsOf fit.2 p)

end

end Python.Node

open SymbolTable

mutual

/-- **The first pass keeps its table as it should be**, over syntax of the shape that the grammar
makes. Statements stand in a body. -/
theorem collect_stands (s : Nat) (c d : Bool) : ∀ (node : Node) {b : Bool} {kind : ScopeKind}
    {t : SymbolTable}, node.Fits b → (b = true → kind.IsBody) → Stands kind s t →
      Stands kind s (collect s c d node t)
  | .function line id site params returns body, b, kind, t, fit, isBody, h => by
      obtain ⟨statement, word, -, -, inside⟩ := fit
      have opened := h.enterFunction (isBody statement) word line site params d
      have after : Stands .function _ _ :=
        collectAll_stands _ false body inside (fun _ => trivial) opened
      have grows :=
        (collect_edits s c d (.function line id site params returns body) t h.inside).grows
      exact h.grow grows after.named after.bodied
  | .classDef line id site bases body, b, kind, t, fit, isBody, h => by
      obtain ⟨statement, word, -, inside⟩ := fit
      have opened := h.enterClass (isBody statement) word line site d
      have after : Stands .classBody _ _ :=
        collectAll_stands _ false body inside (fun _ => trivial) opened
      have grows := (collect_edits s c d (.classDef line id site bases body) t h.inside).grows
      exact h.grow grows after.named after.bodied
  | .lambda site params body, b, kind, t, fit, isBody, h => by
      have opened := (h.enterNameless (show ¬ ScopeKind.IsBody .lambda from id) site).bindParams
        params (fresh_push _ _ _ _ _)
      have after := collect_stands _ c false body fit.2 nofun opened
      have grows := (collect_edits s c d (.lambda site params body) t h.inside).grows
      exact h.grow grows after.named after.bodied
  | .comprehension site items, b, kind, t, fit, isBody, h => by
      have opened := h.enterNameless (show ¬ ScopeKind.IsBody .comprehension from id) site
      have after := collectAll_stands _ c items fit nofun opened
      have grows := (collect_edits s c d (.comprehension site items) t h.inside).grows
      exact h.grow grows after.named after.bodied
  | .decorated _ definition, _, _, _, fit, isBody, h =>
      collect_stands s c true definition fit.2.2 (fun _ => isBody fit.1) h
  | .imports line clause, _, _, _, fit, isBody, h => h.addImports (isBody fit) line c clause
  | .globals names, _, _, _, _, _, h => h.declare names
  | .assign line target _ value, _, _, _, fit, isBody, h =>
      have bound := h.bindTargets target (Node.isWord_of_targets fit.2.1)
      collect_stands s c false value fit.2.2.2 (fun _ => isBody fit.1)
        (bound.setExports line target value)
  | .augment target value, _, _, _, fit, isBody, h =>
      collect_stands s c false value fit.2.2 (fun _ => isBody fit.1) (h.addExports target value)
  | .walrus _ _ value, _, _, _, fit, _, h =>
      collect_stands s c false value fit.2 nofun (h.define (fun _ => fit.1) (.inr rfl) nofun)
  | .forLoop target rest, _, _, _, fit, isBody, h =>
      collectAll_stands s c rest fit.2.2 (fun _ => isBody fit.1) (h.hide target.mentioned)
  | .forIn target rest, _, _, _, fit, _, h =>
      collectAll_stands s c rest fit.2 nofun
        (collect_stands s c false target fit.1 nofun (h.hide target.mentioned))
  | .asTarget target, _, _, _, _, _, h => h.hide target.mentioned
  | .branch items, _, _, _, fit, isBody, h =>
      collectAll_stands s true items fit.2 (fun _ => isBody fit.1) h
  | .group items, _, _, _, fit, isBody, h => collectAll_stands s c items fit isBody h
  | .string _ items, _, _, _, fit, _, h | .bundle _ items, _, _, _, fit, _, h =>
      collectAll_stands s c items fit nofun h
  | .attribute object _ _, _, _, _, fit, _, h | .keyword _ object, _, _, _, fit, _, h =>
      collect_stands s c false object fit nofun h
  | .subscript value items, _, _, _, fit, _, h | .call value items, _, _, _, fit, _, h =>
      collectAll_stands s c items fit.2 nofun (collect_stands s c false value fit.1 nofun h)
  | .name .., _, _, _, _, _, h | .param .., _, _, _, _, _, h => h

/-- The first pass over several nodes keeps its table as it should be. -/
theorem collectAll_stands (s : Nat) (c : Bool) : ∀ (nodes : List Node) {b : Bool}
    {kind : ScopeKind} {t : SymbolTable}, FitIn b nodes → (b = true → kind.IsBody) →
      Stands kind s t → Stands kind s (collectAll s c nodes t)
  | [], _, _, _, _, _, h => h
  | node :: rest, _, _, _, fit, isBody, h =>
      collectAll_stands s c rest fit.2 isBody (collect_stands s c false node fit.1 isBody h)

end

/-! ### The table of a source -/

/-- **Every symbol of a source has its place.** -/
theorem housed_definitionsOf (file : SourceFile) (nodes : List Node) :
    (definitionsOf file nodes).Housed :=
  holds_definitionsOf keeps_housed file (fun _ _ => trivial) fun _ _ there =>
    nomatch List.getElem?_nil.symm.trans there

/-- **The table of a source that parses is well named**, and its classes have their bodies. -/
theorem stands_of_parse (file : SourceFile) {source : String} {nodes : List Node}
    (parsed : Python.parse source = .ok nodes) :
    Stands .module 0 (definitionsOf file nodes) := by
  refine collectAll_stands 0 false nodes (Python.parse_fits parsed) (fun _ => trivial) ?_
  refine ⟨Nat.zero_lt_one, rfl, ⟨fun s inside => ?_, fun s x i bound => ?_⟩, fun i _ there _ => ?_⟩
  · obtain rfl := Nat.lt_one_iff.1 inside
    exact .module rfl rfl rfl
  · rcases s with _ | s <;> cases bound
  · cases List.getElem?_nil.symm.trans there

end CodeSurvey
