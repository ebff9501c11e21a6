import CodeSurvey.Index.References
import Mathlib.Logic.Relation

/-!
# What the second pass reads

The second pass goes from node to node. A `Visit` is one stop on its way: a node, the scope the
pass stands in, and whether the node is read as a target. `Visit.next` are the stops it goes on to
and `Visit.own` the uses it lists at the stop itself.

* `Visit.sizeOf_next`: the pass goes on to smaller nodes.
* `mem_occurrences_iff`: the uses that the pass lists are those of the stops it makes, so the
  stops are the ones of the pass.
-/

namespace CodeSurvey

open Python (Node)
open Relation (ReflTransGen)

/-- A stop of the second pass. -/
structure Visit where
  scope   : Nat
  isStore : Bool
  node    : Node

namespace Visit

variable (table : SymbolTable)

/-- Stops at nodes that are read in one scope. -/
def each (scope : Nat) (isStore : Bool) (nodes : List Node) : List Visit :=
  nodes.map fun node => ⟨scope, isStore, node⟩

/-- The stops that the pass goes on to from a stop. -/
def next : Visit → List Visit
  | ⟨s, st, .attribute object line field⟩ =>
    match st, table.importReferences s line field (.attribute object line field), object with
    | false, some _, _     => []
    | false, none, .name .. => []
    | _, _, _              => [⟨s, false, object⟩]
  | ⟨s, _, .subscript value indices⟩      => ⟨s, false, value⟩ :: each s false indices
  | ⟨s, _, .call callee arguments⟩        => ⟨s, false, callee⟩ :: each s false arguments
  | ⟨s, st, .bundle _ items⟩              => each s st items
  | ⟨s, _, .string _ holes⟩               => each s false holes
  | ⟨s, _, .keyword _ value⟩              => [⟨s, false, value⟩]
  | ⟨s, _, .group items⟩                  => each s false items
  | ⟨s, _, .branch items⟩                 => each s false items
  | ⟨s, _, .lambda site params body⟩      =>
    each s false params ++ [⟨table.scopeAt site s, false, body⟩]
  | ⟨s, _, .comprehension site items⟩     => each (table.scopeAt site s) false items
  | ⟨s, _, .forIn target rest⟩            => ⟨s, true, target⟩ :: each s false rest
  | ⟨s, _, .forLoop target rest⟩          => ⟨s, true, target⟩ :: each s false rest
  | ⟨s, _, .walrus _ _ value⟩             => [⟨s, false, value⟩]
  | ⟨s, _, .assign _ target hint value⟩   =>
    [⟨s, true, target⟩, ⟨s, false, hint⟩, ⟨s, false, value⟩]
  | ⟨s, _, .augment target value⟩         => [⟨s, false, target⟩, ⟨s, false, value⟩]
  | ⟨s, _, .function _ _ site params returns body⟩ =>
    each s false params ++ ⟨s, false, returns⟩ :: each (table.scopeAt site s) false body
  | ⟨s, _, .classDef _ _ site bases body⟩ =>
    each s false bases ++ each (table.scopeAt site s) false body
  | ⟨s, _, .decorated decorators definition⟩ =>
    each s false decorators ++ [⟨s, false, definition⟩]
  | ⟨s, _, .param _ hint fallback⟩        => [⟨s, false, hint⟩, ⟨s, false, fallback⟩]
  | ⟨_, _, .name ..⟩ | ⟨_, _, .asTarget _⟩ | ⟨_, _, .imports ..⟩ | ⟨_, _, .globals _⟩ => []

/-- The uses that the pass lists at a stop itself. -/
def own : Visit → List Reference
  | ⟨s, st, .name line id⟩ => if st then [] else table.nameReference s line id
  | ⟨s, st, .attribute object line field⟩ =>
    match st, table.importReferences s line field (.attribute object line field), object with
    | true, _, _                       => []
    | false, some references, _        => references
    | false, none, .name objectLine id =>
      (table.objectReferences s objectLine id).1 ++
        [table.fieldReference (table.objectReferences s objectLine id).2 line field]
    | false, none, _                   => [table.reference none field line .dynamicUncertain]
  | ⟨s, _, .subscript value indices⟩ => table.namespaceLookup s value indices
  | ⟨s, _, .call callee arguments⟩   => table.attributeCall s callee arguments
  | _                                => []

/-- The pass gets from one stop to another. -/
abbrev Leads : Visit → Visit → Prop :=
  ReflTransGen fun v w => w ∈ v.next table

variable {table}

theorem sizeOf_each {w : Visit} {s : Nat} {st : Bool} {nodes : List Node}
    (h : w ∈ each s st nodes) : sizeOf w.node < sizeOf nodes := by
  obtain ⟨node, hn, rfl⟩ := List.mem_map.1 h
  exact List.sizeOf_lt_of_mem hn

/-- The pass goes from an attribute to nothing but its object. -/
theorem next_attribute {s line : Nat} {st : Bool} {object : Node} {field : String} {w : Visit}
    (h : w ∈ next table ⟨s, st, .attribute object line field⟩) : w = ⟨s, false, object⟩ := by
  simp only [next] at h
  split at h
  · cases h
  · cases h
  · exact List.mem_singleton.1 h

open Python.Node in
/-- **The pass goes on to smaller nodes.** -/
theorem sizeOf_next {v w : Visit} (h : w ∈ v.next table) : sizeOf w.node < sizeOf v.node := by
  obtain ⟨s, st, node⟩ := v
  cases node with
  | «attribute» object line field =>
      rw [next_attribute h, attribute.sizeOf_spec]
      dsimp only
      omega
  | name | asTarget | imports | globals => simp [next] at h
  | bundle _ items | string _ items | group items | branch items | comprehension _ items =>
      have := sizeOf_each h
      simp only [bundle.sizeOf_spec, string.sizeOf_spec, group.sizeOf_spec, branch.sizeOf_spec,
        comprehension.sizeOf_spec]
      omega
  | keyword _ value | walrus _ _ value =>
      rw [List.mem_singleton.1 h]
      simp only [keyword.sizeOf_spec, walrus.sizeOf_spec]
      omega
  | subscript value items | call value items | forIn value items | forLoop value items =>
      simp only [subscript.sizeOf_spec, call.sizeOf_spec, forIn.sizeOf_spec, forLoop.sizeOf_spec]
      rcases List.mem_cons.1 h with rfl | h
      · dsimp only
        omega
      · have := sizeOf_each h
        omega
  | lambda site params body =>
      rw [lambda.sizeOf_spec]
      rcases List.mem_append.1 h with h | h
      · have := sizeOf_each h
        omega
      · rw [List.mem_singleton.1 h]
        dsimp only
        omega
  | decorated decorators definition =>
      rw [decorated.sizeOf_spec]
      rcases List.mem_append.1 h with h | h
      · have := sizeOf_each h
        omega
      · rw [List.mem_singleton.1 h]
        dsimp only
        omega
  | assign line target hint value =>
      rw [assign.sizeOf_spec]
      simp only [next, List.mem_cons, List.not_mem_nil, or_false] at h
      rcases h with rfl | rfl | rfl <;> dsimp only <;> omega
  | augment a b | param _ a b =>
      simp only [augment.sizeOf_spec, param.sizeOf_spec]
      simp only [next, List.mem_cons, List.not_mem_nil, or_false] at h
      rcases h with rfl | rfl <;> dsimp only <;> omega
  | function line id site params returns body =>
      rw [function.sizeOf_spec]
      rcases List.mem_append.1 h with h | h
      · have := sizeOf_each h
        omega
      · rcases List.mem_cons.1 h with rfl | h
        · dsimp only
          omega
        · have := sizeOf_each h
          omega
  | classDef line id site bases body =>
      rw [classDef.sizeOf_spec]
      rcases List.mem_append.1 h with h | h
      · have := sizeOf_each h
        omega
      · have := sizeOf_each h
        omega

/-! ### The stops are those of the pass -/

/-- What the pass lists from a stop on. -/
def uses (table : SymbolTable) (v : Visit) : List Reference :=
  occurrences table v.scope v.isStore v.node

end Visit

theorem mem_occurrencesIn {table : SymbolTable} {s : Nat} {st : Bool} {r : Reference} :
    ∀ nodes : List Node,
      r ∈ occurrencesIn table s st nodes ↔ ∃ w ∈ Visit.each s st nodes, r ∈ w.uses table
  | [] => by simp [occurrencesIn, Visit.each]
  | node :: rest => by
      simp [occurrencesIn, Visit.each, Visit.uses, mem_occurrencesIn rest]

/-- What the pass lists from a stop on is what it lists there and from the next stops on. -/
theorem Visit.mem_uses {table : SymbolTable} {r : Reference} (v : Visit) :
    r ∈ v.uses table ↔ r ∈ v.own table ∨ ∃ w ∈ v.next table, r ∈ w.uses table := by
  obtain ⟨s, st, node⟩ := v
  cases node with
  | «attribute» object line field =>
      cases st with
      | true => simp [uses, occurrences, own, next]
      | false =>
          simp only [uses, occurrences, own, next]
          cases table.importReferences s line field (.attribute object line field) with
          | some references => simp
          | none => cases object <;> simp [or_comm]
  | _ => simp [uses, occurrences, own, next, mem_occurrencesIn, or_and_right, exists_or]

/-- The pass lists from a stop on what it lists at the stops that it gets to. -/
theorem Visit.mem_uses_iff {table : SymbolTable} {r : Reference} (v : Visit) :
    r ∈ v.uses table ↔ ∃ w, Leads table v w ∧ r ∈ w.own table := by
  constructor
  · intro h
    rcases v.mem_uses.1 h with h | ⟨w, hw, h⟩
    · exact ⟨v, .refl, h⟩
    · obtain ⟨z, hz, hr⟩ := (Visit.mem_uses_iff w).1 h
      exact ⟨z, .head hw hz, hr⟩
  · rintro ⟨w, hw, hr⟩
    induction hw using ReflTransGen.head_induction_on with
    | refl => exact w.mem_uses.2 (.inl hr)
    | head h _ ih => exact (Visit.mem_uses _).2 (.inr ⟨_, h, ih⟩)
termination_by sizeOf v.node
decreasing_by exact sizeOf_next hw

/-- The pass over the nodes of a file makes a stop. -/
def Visited (table : SymbolTable) (nodes : List Node) (w : Visit) : Prop :=
  ∃ v ∈ Visit.each 0 false nodes, Visit.Leads table v w

/-- **The uses that the pass lists in a file are those of its stops.** -/
theorem mem_occurrences_iff {table : SymbolTable} {nodes : List Node} {r : Reference} :
    r ∈ occurrencesIn table 0 false nodes ↔ ∃ w, Visited table nodes w ∧ r ∈ w.own table := by
  rw [mem_occurrencesIn]
  constructor
  · rintro ⟨v, hv, h⟩
    obtain ⟨w, hw, hr⟩ := v.mem_uses_iff.1 h
    exact ⟨w, ⟨v, hv, hw⟩, hr⟩
  · rintro ⟨w, ⟨v, hv, hw⟩, hr⟩
    exact ⟨v, hv, v.mem_uses_iff.2 ⟨w, hw, hr⟩⟩

end CodeSurvey
