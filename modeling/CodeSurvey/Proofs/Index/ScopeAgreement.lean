import CodeSurvey.Proofs.Entries
import CodeSurvey.Proofs.Index.Reading
import CodeSurvey.Proofs.Index.Visits
import CodeSurvey.Proofs.Python.Sites
import Mathlib.Data.List.Nodup

/-!
# The scopes of the two passes

The first pass opens a scope for a form when it comes to it, and the second pass looks that scope
up by the site of the form. It finds one only if the first pass came to the form.

* `Placed.next`: every stop of the second pass stands in the scope that the first pass read its
  node in, or in a part that the first pass did not enter.
* `lookup_inside`: from inside a scope, a name that is bound there means what that scope or one
  inside it binds it to.
* `scopes_agree_iff`: the second pass finds the scope of a form, inside the scope it stands in,
  exactly if the form is not unread, and then the parameters and variables of the form hide the
  names around it.
-/

namespace CodeSurvey

open Python (Node)
open SymbolTable
open Python.Node

/-! ### Scopes found by their sites -/

namespace SymbolTable

/-- The scope of the form at a site is there, and lies in a scope. -/
def FoundIn (t : SymbolTable) (scope site : Nat) : Prop :=
  ∃ inner, t.sites.lookup site = some inner ∧ (t.scope inner).parent = some scope

end SymbolTable

/-- The sites of a file's table are those of the forms that are not unread. -/
theorem count_sites (file : SourceFile) (nodes : List Node) (a : Nat) :
    ((definitionsOf file nodes).sites.map Prod.fst).count a + (unreadIn nodes).count a =
      (formsIn nodes).count a :=
  collectAll_sites a 0 false nodes (.empty file.path)

section Distinct

variable {file : SourceFile} {nodes : List Node} (distinct : (formsIn nodes).Nodup)

include distinct

theorem nodup_sites : ((definitionsOf file nodes).sites.map Prod.fst).Nodup := by
  rw [List.nodup_iff_count_le_one]
  intro a
  have := List.nodup_iff_count_le_one.1 distinct a
  have := count_sites file nodes a
  omega

theorem lookup_unread {a : Nat} (h : a ∈ unreadIn nodes) :
    (definitionsOf file nodes).sites.lookup a = none := by
  apply lookup_of_notMem
  have := List.nodup_iff_count_le_one.1 distinct a
  have := count_sites file nodes a
  have := List.count_pos_iff.2 h
  exact List.count_eq_zero.1 (by omega)

theorem scopeAt_unread {a : Nat} (h : a ∈ unreadIn nodes) (s : Nat) :
    (definitionsOf file nodes).scopeAt a s = s := by
  rw [scopeAt, lookup_unread distinct h]
  rfl

theorem scopeAt_opened {site s inner : Nat} {kind : ScopeKind}
    (h : Opened (definitionsOf file nodes) site s inner kind) :
    (definitionsOf file nodes).scopeAt site s = inner := by
  rw [scopeAt, lookup_of_mem (nodup_sites distinct) h.site]
  rfl

end Distinct

/-! ### Where the second pass stands -/

/-- A stop of the second pass stands in the scope that the first pass read its node in, or in a
part that the first pass did not enter; `sites` are those of the forms in such parts. -/
inductive Placed (table : SymbolTable) (sites : List Nat) (v : Visit) : Prop where
  | read (h : ReadIn table v.scope v.node) (inside : v.node.unread ⊆ sites)
  | skipped (inside : v.node.forms ⊆ sites)

namespace Placed

variable {T : SymbolTable} {U : List Nat} {w : Visit} {s : Nat} {st : Bool} {node : Node}
  {nodes : List Node}

theorem each_read (h : ReadAllIn T s nodes) (sub : unreadIn nodes ⊆ U)
    (hw : w ∈ Visit.each s st nodes) : Placed T U w := by
  obtain ⟨node, hn, rfl⟩ := List.mem_map.1 hw
  exact .read (h.mem hn) (List.Subset.trans (unread_subset_unreadIn hn) sub)

theorem each_skipped (sub : formsIn nodes ⊆ U) (hw : w ∈ Visit.each s st nodes) :
    Placed T U w := by
  obtain ⟨node, hn, rfl⟩ := List.mem_map.1 hw
  exact .skipped (List.Subset.trans (forms_subset_formsIn hn) sub)

end Placed

/-- The second pass comes to no form that is not in the node it starts from. -/
theorem Visit.forms_next {T : SymbolTable} {v w : Visit} (h : w ∈ v.next T) :
    w.node.forms ⊆ v.node.forms := by
  obtain ⟨s, st, node⟩ := v
  have each : ∀ {s st} {nodes : List Node}, w ∈ Visit.each s st nodes →
      w.node.forms ⊆ formsIn nodes := by
    intro s st nodes h
    obtain ⟨node, hn, rfl⟩ := List.mem_map.1 h
    exact forms_subset_formsIn hn
  cases node with
  | «attribute» object line field => rw [next_attribute h]; exact fun _ h => h
  | name | asTarget | imports | globals => simp [next] at h
  | bundle _ items | string _ items | group items | branch items => exact each h
  | comprehension _ items => exact List.Subset.trans (each h) (List.subset_cons_self ..)
  | keyword _ value | walrus _ _ value => rw [List.mem_singleton.1 h]; exact fun _ h => h
  | subscript value items | call value items | forIn value items | forLoop value items =>
      rcases List.mem_cons.1 h with rfl | h
      · exact List.subset_append_left ..
      · exact List.Subset.trans (each h) (List.subset_append_right ..)
  | lambda site params body =>
      refine List.Subset.trans ?_ (List.subset_cons_self ..)
      rcases List.mem_append.1 h with h | h
      · exact List.Subset.trans (each h) (List.subset_append_left ..)
      · rw [List.mem_singleton.1 h]
        exact List.subset_append_right ..
  | decorated decorators definition =>
      rcases List.mem_append.1 h with h | h
      · exact List.Subset.trans (each h) (List.subset_append_left ..)
      · rw [List.mem_singleton.1 h]
        exact List.subset_append_right ..
  | assign line target hint value =>
      simp only [next, List.mem_cons, List.not_mem_nil, or_false] at h
      rcases h with rfl | rfl | rfl
      · exact List.subset_append_left ..
      · exact List.Subset.trans (List.subset_append_left ..) (List.subset_append_right ..)
      · exact List.Subset.trans (List.subset_append_right ..) (List.subset_append_right ..)
  | augment a b | param _ a b =>
      simp only [next, List.mem_cons, List.not_mem_nil, or_false] at h
      rcases h with rfl | rfl
      · exact List.subset_append_left ..
      · exact List.subset_append_right ..
  | function line id site params returns body =>
      refine List.Subset.trans ?_ (List.subset_cons_self ..)
      rcases List.mem_append.1 h with h | h
      · exact List.Subset.trans (each h) (List.subset_append_left ..)
      · refine List.Subset.trans ?_ (List.subset_append_right ..)
        rcases List.mem_cons.1 h with rfl | h
        · exact List.subset_append_left ..
        · exact List.Subset.trans (each h) (List.subset_append_right ..)
  | classDef line id site bases body =>
      refine List.Subset.trans ?_ (List.subset_cons_self ..)
      rcases List.mem_append.1 h with h | h
      · exact List.Subset.trans (each h) (List.subset_append_left ..)
      · exact List.Subset.trans (each h) (List.subset_append_right ..)

section Distinct

variable {file : SourceFile} {nodes : List Node} (distinct : (formsIn nodes).Nodup)

include distinct

/-- **The second pass goes on in the scope that the first pass read the next node in.** -/
theorem Placed.next {v w : Visit} (h : Placed (definitionsOf file nodes) (unreadIn nodes) v)
    (hw : w ∈ v.next (definitionsOf file nodes)) :
    Placed (definitionsOf file nodes) (unreadIn nodes) w := by
  cases h with
  | skipped inside => exact .skipped (List.Subset.trans (Visit.forms_next hw) inside)
  | read h inside =>
      -- the parts that the first pass goes on to are read, and all the others are unread
      obtain ⟨s, st, node⟩ := v
      cases node with
      | «attribute» object line field =>
          rw [Visit.next_attribute hw]
          exact .read h.attribute inside
      | name | asTarget | imports | globals => simp [Visit.next] at hw
      | bundle _ items => exact each_read h.bundle inside hw
      | string _ items => exact each_read h.string inside hw
      | group items => exact each_read h.group inside hw
      | branch items => exact each_read h.branch inside hw
      | keyword _ value =>
          rw [List.mem_singleton.1 hw]
          exact .read h.keyword inside
      | walrus _ _ value =>
          rw [List.mem_singleton.1 hw]
          exact .read h.walrus inside
      | subscript value items =>
          obtain ⟨left, right⟩ := List.append_subset.1 inside
          rcases List.mem_cons.1 hw with rfl | hw
          · exact .read h.subscript.1 left
          · exact each_read h.subscript.2 right hw
      | call value items =>
          obtain ⟨left, right⟩ := List.append_subset.1 inside
          rcases List.mem_cons.1 hw with rfl | hw
          · exact .read h.call.1 left
          · exact each_read h.call.2 right hw
      | forIn target rest =>
          obtain ⟨left, right⟩ := List.append_subset.1 inside
          rcases List.mem_cons.1 hw with rfl | hw
          · exact .read h.forIn.2.1 left
          · exact each_read h.forIn.2.2 right hw
      | forLoop target rest =>
          obtain ⟨left, right⟩ := List.append_subset.1 inside
          rcases List.mem_cons.1 hw with rfl | hw
          · exact .skipped left
          · exact each_read h.forLoop right hw
      | assign line target hint value =>
          obtain ⟨left, rest⟩ := List.append_subset.1 inside
          obtain ⟨middle, right⟩ := List.append_subset.1 rest
          simp only [Visit.next, List.mem_cons, List.not_mem_nil, or_false] at hw
          rcases hw with rfl | rfl | rfl
          · exact .skipped left
          · exact .skipped middle
          · exact .read h.assign right
      | augment target value =>
          obtain ⟨left, right⟩ := List.append_subset.1 inside
          simp only [Visit.next, List.mem_cons, List.not_mem_nil, or_false] at hw
          rcases hw with rfl | rfl
          · exact .skipped left
          · exact .read h.augment right
      | param id hint fallback =>
          obtain ⟨left, right⟩ := List.append_subset.1 inside
          simp only [Visit.next, List.mem_cons, List.not_mem_nil, or_false] at hw
          rcases hw with rfl | rfl
          · exact .skipped left
          · exact .skipped right
      | decorated decorators definition =>
          obtain ⟨left, right⟩ := List.append_subset.1 inside
          rcases List.mem_append.1 hw with hw | hw
          · exact each_skipped left hw
          · rw [List.mem_singleton.1 hw]
            exact .read h.decorated right
      | lambda site params body =>
          obtain ⟨inner, opened, -, body⟩ := h.lambda
          obtain ⟨left, right⟩ := List.append_subset.1 inside
          simp only [Visit.next, scopeAt_opened distinct opened] at hw
          rcases List.mem_append.1 hw with hw | hw
          · exact each_skipped left hw
          · rw [List.mem_singleton.1 hw]
            exact .read body right
      | comprehension site items =>
          obtain ⟨inner, opened, -, items⟩ := h.comprehension
          simp only [Visit.next, scopeAt_opened distinct opened] at hw
          exact each_read items inside hw
      | function line id site params returns body =>
          obtain ⟨inner, opened, -, body⟩ := h.function
          obtain ⟨left, rest⟩ := List.append_subset.1 inside
          obtain ⟨middle, right⟩ := List.append_subset.1 rest
          simp only [Visit.next, scopeAt_opened distinct opened] at hw
          rcases List.mem_append.1 hw with hw | hw
          · exact each_skipped left hw
          · rcases List.mem_cons.1 hw with rfl | hw
            · exact .skipped middle
            · exact each_read body right hw
      | classDef line id site bases body =>
          obtain ⟨inner, opened, body⟩ := h.classDef
          obtain ⟨left, right⟩ := List.append_subset.1 inside
          simp only [Visit.next, scopeAt_opened distinct opened] at hw
          rcases List.mem_append.1 hw with hw | hw
          · exact each_skipped left hw
          · exact each_read body right hw

/-- **Every stop of the second pass stands where the first pass did, or where it never was.** -/
theorem Visited.placed {w : Visit} (h : Visited (definitionsOf file nodes) nodes w) :
    Placed (definitionsOf file nodes) (unreadIn nodes) w := by
  obtain ⟨v, hv, leads⟩ := h
  induction leads with
  | refl =>
      refine Placed.each_read ⟨false, .empty file.path, ?_, .refl _⟩ (fun _ h => h) hv
      exact Nat.zero_lt_one
  | tail _ step ih => exact ih.next distinct step

end Distinct

/-! ### The second pass comes to every form -/

theorem Python.Node.forms_of_chain : ∀ {node : Node} {r : (Nat × String) × List String},
    node.chain = some r → node.forms = []
  | .name _ _, _, _ => rfl
  | .attribute object _ _, _, h => by
      obtain ⟨_, h, -⟩ := Option.map_eq_some_iff.1 h
      rw [forms]
      exact forms_of_chain h

/-- An attribute that is reached through an import holds no form. -/
theorem SymbolTable.forms_of_importReferences {t : SymbolTable} {s line : Nat} {field : String}
    {node : Node} {references : List Reference}
    (h : t.importReferences s line field node = some references) : node.forms = [] := by
  simp only [importReferences, Option.bind_eq_bind, Option.bind_eq_some_iff] at h
  obtain ⟨⟨root, path⟩, h, -⟩ := h
  exact forms_of_chain h

theorem Python.Node.mem_formsIn {a : Nat} : ∀ {nodes : List Node}, a ∈ formsIn nodes →
    ∃ node ∈ nodes, a ∈ node.forms
  | first :: rest, h => by
      rcases List.mem_append.1 h with h | h
      · exact ⟨first, by simp, h⟩
      · obtain ⟨node, hn, h⟩ := mem_formsIn h
        exact ⟨node, by simp [hn], h⟩

/-- A form in a node is the node itself or in one that the pass goes on to. -/
theorem Visit.exists_next_of_mem_forms {T : SymbolTable} {a : Nat} {v : Visit}
    (h : a ∈ v.node.forms) :
    v.node.site? = some a ∨ ∃ w ∈ v.next T, a ∈ w.node.forms := by
  obtain ⟨s, st, node⟩ := v
  have each : ∀ {s st} {nodes : List Node}, a ∈ formsIn nodes →
      ∃ w ∈ Visit.each s st nodes, a ∈ w.node.forms := by
    intro s st nodes h
    obtain ⟨node, hn, h⟩ := mem_formsIn h
    exact ⟨⟨s, st, node⟩, List.mem_map_of_mem hn, h⟩
  cases node with
  | «attribute» object line field =>
      -- the pass stops at an attribute of an import, where there is no form
      refine .inr ⟨⟨s, false, object⟩, ?_, h⟩
      simp only [next]
      split
      · rename_i references found
        rw [forms_of_importReferences found] at h
        cases h
      · cases h
      · simp
  | name | asTarget | imports | globals => cases h
  | bundle _ items | string _ items | group items | branch items => exact .inr (each h)
  | keyword _ value | walrus _ _ value => exact .inr ⟨_, List.mem_singleton.2 rfl, h⟩
  | subscript value items | call value items | forIn value items | forLoop value items =>
      rcases List.mem_append.1 h with h | h
      · exact .inr ⟨_, List.mem_cons_self, h⟩
      · obtain ⟨w, hw, h⟩ := each h
        exact .inr ⟨w, List.mem_cons_of_mem _ hw, h⟩
  | comprehension _ items =>
      rcases List.mem_cons.1 h with rfl | h
      · exact .inl rfl
      · exact .inr (each h)
  | lambda site params body =>
      rcases List.mem_cons.1 h with rfl | h
      · exact .inl rfl
      · rcases List.mem_append.1 h with h | h
        · obtain ⟨w, hw, h⟩ := each h
          exact .inr ⟨w, List.mem_append_left _ hw, h⟩
        · exact .inr ⟨_, List.mem_append_right _ (List.mem_singleton.2 rfl), h⟩
  | decorated decorators definition =>
      rcases List.mem_append.1 h with h | h
      · obtain ⟨w, hw, h⟩ := each h
        exact .inr ⟨w, List.mem_append_left _ hw, h⟩
      · exact .inr ⟨_, List.mem_append_right _ (List.mem_singleton.2 rfl), h⟩
  | assign line target hint value =>
      simp only [forms, List.mem_append] at h
      rcases h with h | h | h
      · exact .inr ⟨⟨s, true, target⟩, by simp [next], h⟩
      · exact .inr ⟨⟨s, false, hint⟩, by simp [next], h⟩
      · exact .inr ⟨⟨s, false, value⟩, by simp [next], h⟩
  | augment a b | param _ a b =>
      rcases List.mem_append.1 h with h | h
      · exact .inr ⟨⟨s, false, a⟩, by simp [next], h⟩
      · exact .inr ⟨⟨s, false, b⟩, by simp [next], h⟩
  | function line id site params returns body =>
      rcases List.mem_cons.1 h with rfl | h
      · exact .inl rfl
      · rcases List.mem_append.1 h with h | h
        · obtain ⟨w, hw, h⟩ := each h
          exact .inr ⟨w, List.mem_append_left _ hw, h⟩
        · rcases List.mem_append.1 h with h | h
          · exact .inr ⟨_, List.mem_append_right _ List.mem_cons_self, h⟩
          · obtain ⟨w, hw, h⟩ := each h
            exact .inr ⟨w, List.mem_append_right _ (List.mem_cons_of_mem _ hw), h⟩
  | classDef line id site bases body =>
      rcases List.mem_cons.1 h with rfl | h
      · exact .inl rfl
      · rcases List.mem_append.1 h with h | h
        · obtain ⟨w, hw, h⟩ := each h
          exact .inr ⟨w, List.mem_append_left _ hw, h⟩
        · obtain ⟨w, hw, h⟩ := each h
          exact .inr ⟨w, List.mem_append_right _ hw, h⟩

theorem Visit.leads_to_form {T : SymbolTable} {a : Nat} (v : Visit) (h : a ∈ v.node.forms) :
    ∃ w, Visit.Leads T v w ∧ w.node.site? = some a := by
  rcases Visit.exists_next_of_mem_forms (T := T) h with here | ⟨w, hw, h⟩
  · exact ⟨v, .refl, here⟩
  · obtain ⟨z, leads, there⟩ := Visit.leads_to_form (T := T) w h
    exact ⟨z, .head hw leads, there⟩
termination_by sizeOf v.node
decreasing_by exact sizeOf_next hw

/-- **The second pass comes to every form of a file.** -/
theorem visited_form (T : SymbolTable) {nodes : List Node} {a : Nat} (h : a ∈ formsIn nodes) :
    ∃ w, Visited T nodes w ∧ w.node.site? = some a := by
  obtain ⟨node, hn, h⟩ := mem_formsIn h
  obtain ⟨w, leads, there⟩ := Visit.leads_to_form (T := T) ⟨0, false, node⟩ h
  exact ⟨w, ⟨_, List.mem_map_of_mem hn, leads⟩, there⟩

/-! ### Names looked up from inside a scope -/

namespace SymbolTable

/-- A scope lies in another, or is it. -/
inductive Inside (t : SymbolTable) (outer : Nat) : Nat → Prop where
  | here : Inside t outer outer
  | deeper {i p : Nat} (parent : (t.scope i).parent = some p) (h : Inside t outer p) :
      Inside t outer i

variable {t : SymbolTable} {inner i : Nat} {x : String} {b : Binding}

theorem Inside.trans {j : Nat} (h₁ : Inside t inner j) (h₂ : Inside t j i) : Inside t inner i := by
  induction h₂ with
  | here => exact h₁
  | deeper parent _ ih => exact .deeper parent ih

/-- From one scope, a name means what a scope between it and another binds it to. -/
def MeansBetween (t : SymbolTable) (inner i : Nat) (x : String) (found : Option Binding) : Prop :=
  ∃ j, Inside t inner j ∧ Inside t j i ∧ ((t.scope j).find x).isSome ∧ found = (t.scope j).find x

/-- From a scope inside another, a name means what the other hides, or what a scope further in binds
it to. -/
def Shields (t : SymbolTable) (inner i : Nat) (x : String) : Prop :=
  t.lookup i x = some .hidden ∨
    ∃ j, j ≠ inner ∧ Inside t inner j ∧ Inside t j i ∧ ((t.scope j).find x).isSome ∧
      t.lookup i x = (t.scope j).find x

theorem MeansBetween.deeper {p : Nat} {found : Option Binding}
    (parent : (t.scope i).parent = some p) :
    MeansBetween t inner p x found → MeansBetween t inner i x found := by
  rintro ⟨j, outer, inside, bound, eq⟩
  exact ⟨j, outer, inside.trans (.deeper parent .here), bound, eq⟩

theorem lookupOutward_inside (nested : t.Nested) (kind : (t.scope inner).kind ≠ .classBody)
    (hx : (t.scope inner).find x = some b) : ∀ (fuel i : Nat), i < fuel → Inside t inner i →
      MeansBetween t inner i x (t.lookupOutward x fuel (some i))
  | fuel + 1, i, lt, h => by
      rw [lookupOutward]
      by_cases found : ∃ b', (if (t.scope i).kind = .classBody then none
          else (t.scope i).find x) = some b'
      · obtain ⟨b', hb⟩ := found
        simp only [hb]
        split at hb
        · cases hb
        · exact ⟨i, h, .here, by simp [hb], hb.symm⟩
      · have none := Option.eq_none_iff_forall_ne_some.2 fun b' hb => found ⟨b', hb⟩
        simp only [none]
        cases h with
        | here =>
            rw [if_neg kind, hx] at none
            cases none
        | @deeper _ p parent h =>
            rw [parent]
            refine .deeper parent (lookupOutward_inside nested kind hx fuel p ?_ h)
            have := (nested i p parent).1
            omega

/-- **From inside a scope, a name that it binds means what that scope or one inside it binds it
to.** -/
theorem lookup_inside (nested : t.Nested) (kind : (t.scope inner).kind ≠ .classBody)
    (hx : (t.scope inner).find x = some b) (h : Inside t inner i)
    (global : x ∉ (t.scope i).globals) : MeansBetween t inner i x (t.lookup i x) := by
  rw [lookup]
  cases found : (t.scope i).find x with
  | some b' => exact ⟨i, h, .here, by simp [found], found.symm⟩
  | none =>
      simp only [if_neg global]
      cases h with
      | here =>
          rw [hx] at found
          cases found
      | @deeper _ p parent h =>
          obtain ⟨lt, bound⟩ := nested i p parent
          rw [parent]
          exact .deeper parent (lookupOutward_inside nested kind hx _ p (lt.trans bound) h)

end SymbolTable

/-! ### What a form hides -/

/-- The names that a form binds in its own scope: the parameters of a function or a lambda, and the
variables of a comprehension that no assignment in it makes a symbol. -/
def Python.Node.ownNames : Node → List String
  | .function _ _ _ params _ _ => paramNames params
  | .lambda _ params _         => paramNames params
  | .comprehension _ items     => (iterated items).filter (· ∉ symbolNamesIn items)
  | _                          => []

/-- The stops at the body of a form, which stand in the scope of the form. -/
def Visit.body (table : SymbolTable) : Visit → List Visit
  | ⟨s, _, .function _ _ site _ _ body⟩ => each (table.scopeAt site s) false body
  | ⟨s, _, .classDef _ _ site _ body⟩   => each (table.scopeAt site s) false body
  | ⟨s, _, .lambda site _ body⟩         => [⟨table.scopeAt site s, false, body⟩]
  | ⟨s, _, .comprehension site items⟩   => each (table.scopeAt site s) false items
  | _                                   => []

theorem Visit.scope_each {w : Visit} {s : Nat} {st : Bool} {nodes : List Node}
    (h : w ∈ Visit.each s st nodes) : w.scope = s := by
  obtain ⟨_, -, rfl⟩ := List.mem_map.1 h
  rfl

theorem Visit.scope_body {T : SymbolTable} {v w : Visit} {site : Nat}
    (hs : v.node.site? = some site) (h : w ∈ v.body T) :
    w.scope = T.scopeAt site v.scope ∧ w ∈ v.next T := by
  obtain ⟨s, st, node⟩ := v
  cases node with
  | function _ _ _ params returns body =>
      cases hs
      exact ⟨scope_each h, List.mem_append_right _ (List.mem_cons_of_mem _ h)⟩
  | classDef _ _ _ bases body =>
      cases hs
      exact ⟨scope_each h, List.mem_append_right _ h⟩
  | lambda _ params body =>
      cases hs
      exact ⟨by rw [List.mem_singleton.1 h], List.mem_append_right _ h⟩
  | comprehension _ items =>
      cases hs
      exact ⟨scope_each h, h⟩
  | _ => cases hs

/-- The pass stays in its scope, unless it enters a form. -/
theorem Visit.scope_next {T : SymbolTable} {v w : Visit} (h : w ∈ v.next T) :
    w.scope = v.scope ∨ ∃ site, v.node.site? = some site ∧ w.scope = T.scopeAt site v.scope := by
  obtain ⟨s, st, node⟩ := v
  cases node with
  | «attribute» object line field => exact .inl (by rw [next_attribute h])
  | name | asTarget | imports | globals => simp [next] at h
  | bundle _ items | string _ items | group items | branch items => exact .inl (scope_each h)
  | keyword _ value | walrus _ _ value => exact .inl (by rw [List.mem_singleton.1 h])
  | subscript value items | call value items | forIn value items | forLoop value items =>
      rcases List.mem_cons.1 h with rfl | h
      · exact .inl rfl
      · exact .inl (scope_each h)
  | assign line target hint value =>
      simp only [next, List.mem_cons, List.not_mem_nil, or_false] at h
      rcases h with rfl | rfl | rfl <;> exact .inl rfl
  | augment a b | param _ a b =>
      simp only [next, List.mem_cons, List.not_mem_nil, or_false] at h
      rcases h with rfl | rfl <;> exact .inl rfl
  | decorated decorators definition =>
      rcases List.mem_append.1 h with h | h
      · exact .inl (scope_each h)
      · exact .inl (by rw [List.mem_singleton.1 h])
  | comprehension site items => exact .inr ⟨site, rfl, scope_each h⟩
  | lambda site params body =>
      rcases List.mem_append.1 h with h | h
      · exact .inl (scope_each h)
      · exact .inr ⟨site, rfl, by rw [List.mem_singleton.1 h]⟩
  | function line id site params returns body =>
      rcases List.mem_append.1 h with h | h
      · exact .inl (scope_each h)
      · rcases List.mem_cons.1 h with rfl | h
        · exact .inl rfl
        · exact .inr ⟨site, rfl, scope_each h⟩
  | classDef line id site bases body =>
      rcases List.mem_append.1 h with h | h
      · exact .inl (scope_each h)
      · exact .inr ⟨site, rfl, scope_each h⟩

/-- A form that the first pass read has a scope, in which its own names are hidden. -/
theorem ReadIn.opened {T : SymbolTable} {s site : Nat} {node : Node} (h : ReadIn T s node)
    (hs : node.site? = some site) :
    ∃ inner kind, Opened T site s inner kind ∧
      ∀ x ∈ node.ownNames, kind ≠ .classBody ∧ (T.scope inner).find x = some .hidden := by
  cases node with
  | function =>
      cases hs
      obtain ⟨inner, opened, hidden, -⟩ := h.function
      exact ⟨inner, _, opened, fun x hx => ⟨nofun, hidden x hx⟩⟩
  | classDef =>
      cases hs
      obtain ⟨inner, opened, -⟩ := h.classDef
      exact ⟨inner, _, opened, nofun⟩
  | lambda =>
      cases hs
      obtain ⟨inner, opened, hidden, -⟩ := h.lambda
      exact ⟨inner, _, opened, fun x hx => ⟨nofun, hidden x hx⟩⟩
  | comprehension =>
      cases hs
      obtain ⟨inner, opened, hidden, -⟩ := h.comprehension
      refine ⟨inner, _, opened, fun x hx => ⟨nofun, ?_⟩⟩
      obtain ⟨hx, plain⟩ := List.mem_filter.1 hx
      exact hidden x hx (by simpa using plain)
  | _ => cases hs

theorem nested_definitionsOf (file : SourceFile) (nodes : List Node) :
    (definitionsOf file nodes).Nested := by
  refine (collectAll_edits 0 false nodes (.empty file.path) Nat.zero_lt_one).nested ?_
  rintro (_ | i) p hp <;> simp [SymbolTable.scope, SymbolTable.empty, Scope.module] at hp

section Distinct

variable {file : SourceFile} {nodes : List Node} (distinct : (formsIn nodes).Nodup)

theorem Placed.opened {v : Visit} {site : Nat}
    (h : Placed (definitionsOf file nodes) (unreadIn nodes) v) (hs : v.node.site? = some site)
    (read : site ∉ unreadIn nodes) :
    ∃ inner kind, Opened (definitionsOf file nodes) site v.scope inner kind ∧
      ∀ x ∈ v.node.ownNames, kind ≠ .classBody ∧
        ((definitionsOf file nodes).scope inner).find x = some .hidden := by
  cases h with
  | read h _ => exact h.opened hs
  | skipped inside =>
      refine absurd (inside ?_) read
      -- the form itself is the first of the forms in it
      cases hv : v.node <;> rw [hv] at hs <;> cases hs <;> exact List.mem_cons_self

include distinct

/-- From a stop the second pass gets only to scopes inside. -/
theorem Placed.inside {v w : Visit} (h : Placed (definitionsOf file nodes) (unreadIn nodes) v)
    (leads : Visit.Leads (definitionsOf file nodes) v w) :
    Inside (definitionsOf file nodes) v.scope w.scope := by
  induction leads using Relation.ReflTransGen.head_induction_on with
  | refl => exact .here
  | @head v u step _ ih =>
      have inside := ih (h.next distinct step)
      rcases Visit.scope_next step with same | ⟨site, hs, entered⟩
      · exact same ▸ inside
      · -- an unread form has no scope of its own, and the others have one inside
        by_cases read : site ∈ unreadIn nodes
        · rw [entered, scopeAt_unread distinct read] at inside
          exact inside
        · obtain ⟨inner, kind, opened, -⟩ := h.opened hs read
          rw [entered, scopeAt_opened distinct opened] at inside
          exact .trans (.deeper opened.parent .here) inside

/-- The second pass finds the scope of a form unless the form is unread. -/
theorem foundIn_iff {v : Visit} {site : Nat} (hv : Visited (definitionsOf file nodes) nodes v)
    (hs : v.node.site? = some site) :
    (definitionsOf file nodes).FoundIn v.scope site ↔ site ∉ unreadIn nodes := by
  constructor
  · rintro ⟨inner, here, -⟩ unread
    rw [lookup_unread distinct unread] at here
    cases here
  · intro read
    obtain ⟨inner, kind, opened, -⟩ := (hv.placed distinct).opened hs read
    exact ⟨inner, lookup_of_mem (nodup_sites distinct) opened.site, opened.parent⟩

/-- In the body of a form that is not unread, its own names mean nothing from outside. -/
theorem shields_body {v u w : Visit} {site : Nat} {x : String}
    (hv : Visited (definitionsOf file nodes) nodes v) (hs : v.node.site? = some site)
    (read : site ∉ unreadIn nodes) (hx : x ∈ v.node.ownNames)
    (hu : u ∈ v.body (definitionsOf file nodes))
    (leads : Visit.Leads (definitionsOf file nodes) u w)
    (global : x ∉ ((definitionsOf file nodes).scope w.scope).globals) :
    Shields (definitionsOf file nodes) u.scope w.scope x := by
  obtain ⟨inner, kind, opened, hidden⟩ := (hv.placed distinct).opened hs read
  obtain ⟨notClass, hidden⟩ := hidden x hx
  obtain ⟨enters, step⟩ := Visit.scope_body hs hu
  have inside := ((hv.placed distinct).next distinct step).inside distinct leads
  rw [scopeAt_opened distinct opened] at enters
  rw [enters] at inside ⊢
  obtain ⟨j, outer, inner', bound, eq⟩ := lookup_inside (nested_definitionsOf file nodes)
    (opened.kind ▸ notClass) hidden inside global
  by_cases same : j = inner
  · subst same
    exact .inl (eq.trans hidden)
  · exact .inr ⟨j, same, outer, inner', bound, eq⟩

omit distinct in
/-- Every unread form is one that the second pass comes to. -/
theorem visited_unread (file : SourceFile) {a : Nat} (h : a ∈ unreadIn nodes) :
    ∃ v, Visited (definitionsOf file nodes) nodes v ∧ v.node.site? = some a := by
  have := count_sites file nodes a
  have := List.count_pos_iff.2 h
  exact visited_form (definitionsOf file nodes)
    (List.count_pos_iff.1 (show 0 < (formsIn nodes).count a by omega))

end Distinct

/-- **The passes agree on the scopes of a source exactly if no form in it is unread.** The second
pass finds the scope of a form, inside the scope it stands in, if and only if the form is not
unread; at an unread form it stays in its scope. In the body of a form that it finds, a name of the
form means the hidden name or what a scope inside the form binds it to, and nothing from outside. -/
theorem scopes_agree_iff (file : SourceFile) {source : String} {nodes : List Node}
    (parsed : Python.parse source = .ok nodes) :
    let table := definitionsOf file nodes
    (∀ v site, Visited table nodes v → v.node.site? = some site →
      (table.FoundIn v.scope site ↔ site ∉ unreadIn nodes) ∧
      (site ∈ unreadIn nodes → table.scopeAt site v.scope = v.scope) ∧
      (site ∉ unreadIn nodes → ∀ x ∈ v.node.ownNames, ∀ u ∈ v.body table, ∀ w,
        Visit.Leads table u w → x ∉ (table.scope w.scope).globals →
        Shields table u.scope w.scope x)) ∧
    ((∀ v site, Visited table nodes v → v.node.site? = some site → table.FoundIn v.scope site) ↔
      unreadIn nodes = []) := by
  intro table
  have distinct := Python.parse_forms_nodup parsed
  refine ⟨fun v site hv hs => ⟨foundIn_iff distinct hv hs, fun h => scopeAt_unread distinct h _,
    fun read x hx u hu w => shields_body distinct hv hs read hx hu⟩, ?_⟩
  constructor
  · intro all
    refine List.eq_nil_iff_forall_not_mem.2 fun a ha => ?_
    obtain ⟨v, hv, hs⟩ := visited_unread file ha
    exact (foundIn_iff distinct hv hs).1 (all v a hv hs) ha
  · intro none v site hv hs
    exact (foundIn_iff distinct hv hs).2 (by simp [none])

/-- A file at the root. -/
def exampleFile : SourceFile where
  location := .ofNames ["a.py"]
  path     := .ofNames ["a.py"]
  size     := 0
  language := .python
  isTest   := false

/-- A lambda that is the default of a parameter is unread. -/
theorem scopes_agree_iff_lambda_default :
    ∃ nodes, Python.parse "value = 1\n\ndef f(g=lambda value: value):\n    return g\n" = .ok nodes ∧
      unreadIn nodes = [19] ∧
      ¬∀ v site, Visited (definitionsOf exampleFile nodes) nodes v → v.node.site? = some site →
        (definitionsOf exampleFile nodes).FoundIn v.scope site := by
  have read : ∃ nodes, Python.parse
      "value = 1\n\ndef f(g=lambda value: value):\n    return g\n" = .ok nodes ∧
        unreadIn nodes = [19] := ⟨_, rfl, rfl⟩
  obtain ⟨nodes, parsed, unread⟩ := read
  refine ⟨nodes, parsed, unread, fun all => ?_⟩
  cases unread.symm.trans ((scopes_agree_iff exampleFile parsed).2.1 all)

end CodeSurvey
