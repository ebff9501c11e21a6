import CodeSurvey.Index.File
import CodeSurvey.Proofs.Index.Edits

/-!
# Forms that open a scope

A function, a class, a lambda and a comprehension open a scope. The first pass does not come to
every one of them: `Node.forms` are the sites of the forms in a node, and `Node.unread` those among
them that it leaves out, because they stand in a parameter, a hint, a base, a decorator, or the
target of an assignment or a loop.

* `collect_sites`: the first pass opens a scope for every form that is not unread, once, and no
  other.
-/

namespace CodeSurvey

open Python (Node)
open SymbolTable

/-! ### Sites -/

namespace Python.Node

/-- The site of a form that opens a scope. -/
def site? : Node → Option Nat
  | .function _ _ site _ _ _  => some site
  | .classDef _ _ site _ _    => some site
  | .lambda site _ _          => some site
  | .comprehension site _     => some site
  | _                         => none

mutual

/-- The sites of the forms in a node that open a scope. Neither pass enters a target after
`as`. -/
def forms : Node → List Nat
  | .string _ holes           => formsIn holes
  | .attribute object _ _     => object.forms
  | .subscript value indices  => value.forms ++ formsIn indices
  | .call callee arguments    => callee.forms ++ formsIn arguments
  | .keyword _ value          => value.forms
  | .bundle _ items           => formsIn items
  | .group items              => formsIn items
  | .branch items             => formsIn items
  | .lambda site params body  => site :: (formsIn params ++ body.forms)
  | .comprehension site items => site :: formsIn items
  | .forIn target rest        => target.forms ++ formsIn rest
  | .forLoop target rest      => target.forms ++ formsIn rest
  | .walrus _ _ value         => value.forms
  | .assign _ target hint value => target.forms ++ (hint.forms ++ value.forms)
  | .augment target value     => target.forms ++ value.forms
  | .function _ _ site params returns body =>
    site :: (formsIn params ++ (returns.forms ++ formsIn body))
  | .classDef _ _ site bases body => site :: (formsIn bases ++ formsIn body)
  | .decorated decorators definition => formsIn decorators ++ definition.forms
  | .param _ hint fallback    => hint.forms ++ fallback.forms
  | _                         => []

/-- The sites of the forms in some nodes that open a scope. -/
def formsIn : List Node → List Nat
  | []           => []
  | node :: rest => node.forms ++ formsIn rest

end

mutual

/-- The sites of the forms in a node that only the second pass comes to. -/
def unread : Node → List Nat
  | .string _ holes           => unreadIn holes
  | .attribute object _ _     => object.unread
  | .subscript value indices  => value.unread ++ unreadIn indices
  | .call callee arguments    => callee.unread ++ unreadIn arguments
  | .keyword _ value          => value.unread
  | .bundle _ items           => unreadIn items
  | .group items              => unreadIn items
  | .branch items             => unreadIn items
  | .lambda _ params body     => formsIn params ++ body.unread
  | .comprehension _ items    => unreadIn items
  | .forIn target rest        => target.unread ++ unreadIn rest
  | .forLoop target rest      => target.forms ++ unreadIn rest
  | .walrus _ _ value         => value.unread
  | .assign _ target hint value => target.forms ++ (hint.forms ++ value.unread)
  | .augment target value     => target.forms ++ value.unread
  | .function _ _ _ params returns body =>
    formsIn params ++ (returns.forms ++ unreadIn body)
  | .classDef _ _ _ bases body => formsIn bases ++ unreadIn body
  | .decorated decorators definition => formsIn decorators ++ definition.unread
  | .param _ hint fallback    => hint.forms ++ fallback.forms
  | _                         => []

/-- The sites of the forms in some nodes that only the second pass comes to. -/
def unreadIn : List Node → List Nat
  | []           => []
  | node :: rest => node.unread ++ unreadIn rest

end

/-- The sites of a node are among those of a list that it is in. -/
theorem forms_subset_formsIn {node : Node} : ∀ {nodes : List Node}, node ∈ nodes →
    node.forms ⊆ formsIn nodes
  | first :: rest, h => by
      rcases List.mem_cons.1 h with rfl | h
      · exact List.subset_append_left ..
      · exact List.Subset.trans (forms_subset_formsIn h) (List.subset_append_right ..)

/-- So are the sites in it that the first pass does not come to. -/
theorem unread_subset_unreadIn {node : Node} : ∀ {nodes : List Node}, node ∈ nodes →
    node.unread ⊆ unreadIn nodes
  | first :: rest, h => by
      rcases List.mem_cons.1 h with rfl | h
      · exact List.subset_append_left ..
      · exact List.Subset.trans (unread_subset_unreadIn h) (List.subset_append_right ..)

end Python.Node

open Python.Node

/-! ### The sites that the first pass notes -/

namespace SymbolTable

variable (t : SymbolTable)

/-- Binding a name notes no site. -/
@[simp] theorem sites_bindSymbol (s : Nat) (d : Definition) :
    (t.bindSymbol s d).2.sites = t.sites := by
  simp only [bindSymbol]
  split
  · rfl
  · split <;> rfl

@[simp] theorem sites_hide (s : Nat) (names : List String) : (t.hide s names).sites = t.sites := by
  rw [hide]
  induction names generalizing t with
  | nil => rfl
  | cons name rest ih =>
      rw [List.foldl_cons, ih]
      split <;> rfl

@[simp] theorem sites_bindParams (s : Nat) (params : List Node) :
    (t.bindParams s params).sites = t.sites := by
  rw [bindParams]
  induction Node.paramNames params generalizing t with
  | nil => rfl
  | cons name rest ih => rw [List.foldl_cons, ih, sites_bind]

@[simp] theorem sites_bindTargets (s : Nat) (target : Node) :
    (t.bindTargets s target).sites = t.sites := by
  rw [bindTargets]
  induction target.targets generalizing t with
  | nil => rfl
  | cons pair rest ih => rw [List.foldl_cons, ih, sites_bindSymbol]

/-- Imports note none either. -/
@[simp] theorem sites_addImports (s line : Nat) (c : Bool) (clause : Python.ImportClause) :
    (t.addImports s line c clause).sites = t.sites := by
  rw [addImports]
  induction importsOf clause line c generalizing t with
  | nil => rfl
  | cons entry rest ih =>
      rw [List.foldl_cons, ih, addImport]
      split <;> simp

@[simp] theorem sites_setExports (s line : Nat) (target value : Node) :
    (t.setExports s line target value).sites = t.sites := by
  rw [setExports.eq_def]
  split
  · split <;> rfl
  · rfl

@[simp] theorem sites_addExports (s : Nat) (target value : Node) :
    (t.addExports s target value).sites = t.sites := by
  rw [addExports.eq_def]
  split
  · split <;> rfl
  · rfl

/-- **Entering a function notes its site** with the scope that is opened. -/
@[simp] theorem sites_enterFunction (s line : Nat) (id : String) (site : Nat)
    (params : List Node) (d : Bool) :
    (t.enterFunction s line id site params d).2.sites = (site, t.scopes.length) :: t.sites := by
  simp [enterFunction, push]

/-- So does entering a class. -/
@[simp] theorem sites_enterClass (s line : Nat) (id : String) (site : Nat) (d : Bool) :
    (t.enterClass s line id site d).2.sites = (site, t.scopes.length) :: t.sites := by
  simp only [enterClass]
  split <;> simp [push]

end SymbolTable

mutual

/-- **The first pass opens a scope for every form that is not unread, once, and no other.** -/
theorem collect_sites (a s : Nat) (c d : Bool) : ∀ (node : Node) (t : SymbolTable),
    ((collect s c d node t).sites.map Prod.fst).count a + node.unread.count a =
      node.forms.count a + (t.sites.map Prod.fst).count a
  | .function line id site params returns body, t => by
      have ih := collectAll_sites a (t.enterFunction s line id site params d).1 false body
        (t.enterFunction s line id site params d).2
      simp only [sites_enterFunction, List.map_cons, List.count_cons] at ih
      simp only [collect, unread, forms, List.count_append, List.count_cons]
      omega
  | .classDef line id site bases body, t => by
      have ih := collectAll_sites a (t.enterClass s line id site d).1 false body
        (t.enterClass s line id site d).2
      simp only [sites_enterClass, List.map_cons, List.count_cons] at ih
      simp only [collect, unread, forms, List.count_append, List.count_cons]
      omega
  | .lambda site params body, t => by
      have ih := collect_sites a (t.enterNameless s site .lambda).1 c false body
        ((t.enterNameless s site .lambda).2.bindParams (t.enterNameless s site .lambda).1 params)
      simp only [sites_bindParams, enterNameless, push, List.map_cons, List.count_cons] at ih
      simp only [collect, enterNameless, push, unread, forms, List.count_append, List.count_cons]
      omega
  | .comprehension site items, t => by
      have ih := collectAll_sites a (t.enterNameless s site .comprehension).1 c items
        (t.enterNameless s site .comprehension).2
      simp only [enterNameless, push, List.map_cons, List.count_cons] at ih
      simp only [collect, enterNameless, push, unread, forms, List.count_cons]
      omega
  | .decorated decorators definition, t => by
      have ih := collect_sites a s c true definition t
      simp only [collect, unread, forms, List.count_append]
      omega
  | .assign line target hint value, t => by
      have ih := collect_sites a s c false value
        ((t.bindTargets s target).setExports s line target value)
      simp only [sites_setExports, sites_bindTargets] at ih
      simp only [collect, unread, forms, List.count_append]
      omega
  | .augment target value, t => by
      have ih := collect_sites a s c false value (t.addExports s target value)
      rw [sites_addExports] at ih
      simp only [collect, unread, forms, List.count_append]
      omega
  | .walrus line id value, t => by
      have ih := collect_sites a s c false value
        (t.bindSymbol s { name := id, kind := .assigned, line }).2
      rw [sites_bindSymbol] at ih
      exact ih
  | .forLoop target rest, t => by
      have ih := collectAll_sites a s c rest (t.hide s target.mentioned)
      rw [sites_hide] at ih
      simp only [collect, unread, forms, List.count_append]
      omega
  | .forIn target rest, t => by
      have first := collect_sites a s c false target (t.hide s target.mentioned)
      have ih := collectAll_sites a s c rest
        (collect s c false target (t.hide s target.mentioned))
      rw [sites_hide] at first
      simp only [collect, unread, forms, List.count_append]
      omega
  | .subscript value items, t => by
      have first := collect_sites a s c false value t
      have ih := collectAll_sites a s c items (collect s c false value t)
      simp only [collect, unread, forms, List.count_append]
      omega
  | .call value items, t => by
      have first := collect_sites a s c false value t
      have ih := collectAll_sites a s c items (collect s c false value t)
      simp only [collect, unread, forms, List.count_append]
      omega
  | .branch items, t => collectAll_sites a s true items t
  | .string _ items, t | .bundle _ items, t | .group items, t => collectAll_sites a s c items t
  | .attribute object _ _, t => collect_sites a s c false object t
  | .keyword _ value, t => collect_sites a s c false value t
  | .imports line clause, t => by simp [collect, unread, forms]
  | .asTarget target, t => by simp [collect, unread, forms]
  | .globals names, t => by simp [collect, unread, forms, declareGlobal, updateScope]
  | .name _ _, t => by simp [collect, unread, forms]
  | .param _ hint fallback, t => Nat.add_comm ..

/-- The first pass over several nodes opens a scope for every form that is not unread. -/
theorem collectAll_sites (a s : Nat) (c : Bool) : ∀ (nodes : List Node) (t : SymbolTable),
    ((collectAll s c nodes t).sites.map Prod.fst).count a + (unreadIn nodes).count a =
      (formsIn nodes).count a + (t.sites.map Prod.fst).count a
  | [], t => Nat.add_comm ..
  | node :: rest, t => by
      have first := collect_sites a s c false node t
      have ih := collectAll_sites a s c rest (collect s c false node t)
      simp only [collectAll, unreadIn, formsIn, List.count_append]
      omega

end

end CodeSurvey
