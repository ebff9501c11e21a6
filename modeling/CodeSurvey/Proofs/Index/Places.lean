import CodeSurvey.Index.References

/-!
# The lines in a node

The lines that indexing can take from a node: those of names and fields, of definitions and of
imports. An assignment to a name has its own line beside that of the name.

* `Node.places` are these lines.
* `targets_places`, `chain_places`: what an assignment binds, and where a chain of attributes
  starts, is at one of them.
-/

namespace CodeSurvey.Python.Node

/-- The line of an assignment to a name, unless it is the line of the name. -/
def strayLine (line : Nat) : Node → List Nat
  | .name own _ => if line = own then [] else [line]
  | _           => []

mutual

/-- The lines in a node. Neither pass enters a target after `as`. -/
def places : Node → List Nat
  | .name line _              => [line]
  | .string _ holes           => placesIn holes
  | .attribute object line _  => line :: object.places
  | .subscript value indices  => value.places ++ placesIn indices
  | .call callee arguments    => callee.places ++ placesIn arguments
  | .keyword _ value          => value.places
  | .bundle _ items           => placesIn items
  | .group items              => placesIn items
  | .branch items             => placesIn items
  | .lambda _ params body     => placesIn params ++ body.places
  | .comprehension _ items    => placesIn items
  | .forIn target rest        => target.places ++ placesIn rest
  | .forLoop target rest      => target.places ++ placesIn rest
  | .walrus line _ value      => line :: value.places
  | .assign line target hint value =>
    strayLine line target ++ (target.places ++ (hint.places ++ value.places))
  | .augment target value     => target.places ++ value.places
  | .function line _ _ params returns body =>
    line :: (placesIn params ++ (returns.places ++ placesIn body))
  | .classDef line _ _ bases body => line :: (placesIn bases ++ placesIn body)
  | .decorated decorators definition => placesIn decorators ++ definition.places
  | .imports line _           => [line]
  | .param _ hint fallback    => hint.places ++ fallback.places
  | .asTarget _               => []
  | .globals _                => []

/-- The lines in some nodes. -/
def placesIn : List Node → List Nat
  | []           => []
  | node :: rest => node.places ++ placesIn rest

end

theorem places_subset_placesIn {node : Node} : ∀ {nodes : List Node}, node ∈ nodes →
    node.places ⊆ placesIn nodes
  | first :: rest, h => by
      rw [placesIn]
      rcases List.mem_cons.1 h with rfl | h
      · exact List.subset_append_left ..
      · exact List.Subset.trans (places_subset_placesIn h) (List.subset_append_right ..)

mutual

/-- What an assignment binds is at a line of its target. -/
theorem targets_places : ∀ (node : Node) {line : Nat} {id : String},
    (line, id) ∈ node.targets → line ∈ node.places
  | .name line id, _, _, h => by
      cases List.mem_singleton.1 h
      exact List.mem_cons_self
  | .bundle _ items, _, _, h => targetsOf_places items h

theorem targetsOf_places : ∀ (nodes : List Node) {line : Nat} {id : String},
    (line, id) ∈ targetsOf nodes → line ∈ placesIn nodes
  | node :: rest, _, _, h => by
      rcases List.mem_append.1 h with h | h
      · exact List.mem_append_left _ (targets_places node h)
      · exact List.mem_append_right _ (targetsOf_places rest h)

end

/-- A chain of attributes starts at a line in it. -/
theorem chain_places : ∀ (node : Node) {line : Nat} {root : String} {path : List String},
    node.chain = some ((line, root), path) → line ∈ node.places
  | .name _ _, _, _, _, h => by
      cases h
      exact List.mem_cons_self
  | .attribute object _ _, _, _, _, h => by
      obtain ⟨⟨_, _⟩, chain, eq⟩ := Option.map_eq_some_iff.1 h
      cases eq
      rw [places]
      exact List.mem_cons_of_mem _ (chain_places object chain)

end CodeSurvey.Python.Node
