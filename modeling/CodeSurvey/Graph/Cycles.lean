import CodeSurvey.Order

/-!
# Cycles

Depth-first search for the cycles of a finite graph whose nodes are the numbers below `size`.

The search follows the successors of every node in order. A successor that is on the current path
closes a cycle; the part of the path from that node on is reported once, turned so that its lowest
node comes first.

* `CycleSearch` is the state: the path as a stack of frames, the nodes left behind, and the cycles
  found.
* `findCycles` runs the search from every node.
-/

namespace CodeSurvey

/-- A node on the path and its successors that are still to be followed. -/
structure CycleFrame where
  node      : Nat
  remaining : List Nat

/-- The state of the search: the path, the last node first; the nodes whose successors have all
been followed; and the cycles found, in order. -/
structure CycleSearch where
  stack  : List CycleFrame
  closed : List Nat
  cycles : List (List Nat)

/-- A cycle turned so that its lowest node comes first. -/
def rotateToLowest (cycle : List Nat) : List Nat :=
  match cycle.min? with
  | none        => cycle
  | some lowest => cycle.dropWhile (· ≠ lowest) ++ cycle.takeWhile (· ≠ lowest)

namespace CycleSearch

/-- The nodes on the path, from its start. -/
def path (search : CycleSearch) : List Nat :=
  (search.stack.map CycleFrame.node).reverse

/-- The cycles found and one more, unless it is among them. -/
def note (cycles : List (List Nat)) (cycle : List Nat) : List (List Nat) :=
  if cycle ∈ cycles then cycles else cycles ++ [cycle]

/-- Follows one successor, or leaves a node behind. -/
def step (successors : Nat → List Nat) (search : CycleSearch) : CycleSearch :=
  match search.stack with
  | []            => search
  | frame :: below =>
    match frame.remaining with
    | []        => { search with stack := below, closed := frame.node :: search.closed }
    | v :: rest =>
      let stack := { frame with remaining := rest } :: below
      if v ∈ search.path then
        let cycle := rotateToLowest (search.path.dropWhile (· ≠ v))
        { search with stack, cycles := note search.cycles cycle }
      else if v ∈ search.closed then { search with stack }
      else { search with stack := ⟨v, successors v⟩ :: stack }

/-- Takes steps until the path is empty. The fuel bounds them. -/
def run (successors : Nat → List Nat) : Nat → CycleSearch → CycleSearch
  | 0, search        => search
  | fuel + 1, search =>
    if search.stack.isEmpty then search else run successors fuel (search.step successors)

/-- Searches from a node, unless it has been left behind. -/
def visit (successors : Nat → List Nat) (fuel : Nat) (search : CycleSearch) (node : Nat) :
    CycleSearch :=
  if node ∈ search.closed then search
  else run successors fuel { search with stack := [⟨node, successors node⟩] }

end CycleSearch

/-- The cycles that a depth-first search meets, in the order it meets them. -/
def findCycles (size : Nat) (successors : Nat → List Nat) : List (List Nat) :=
  let nodes := List.range size
  let fuel := (nodes.map fun n => (successors n).length + 1).foldr (· + ·) 0 + 1
  (nodes.foldl (CycleSearch.visit successors fuel) ⟨[], [], []⟩).cycles

end CodeSurvey
