import CodeSurvey.Order

/-!
# Longest chains

The longest import chains of a finite graph whose nodes are the numbers below `size`, with every
group of nodes that reach one another taken as one.

* `reachable` are the nodes reached from a node, and `component` those that reach it back.
* `chainTables` goes over the components once, each after those it leads to, and notes how long the
  longest chain from it is and where that chain goes on.
* `longestChains` follows the chains from every component that nothing leads to.
-/

namespace CodeSurvey

section

variable (size : Nat) (successors : Nat → List Nat)

/-! ### Components -/

/-- The nodes reached from those on the worklist, with those found before. The fuel bounds the
steps. -/
def reachFrom : Nat → List Nat → List Nat → List Nat
  | 0, _, found               => found
  | _ + 1, [], found          => found
  | fuel + 1, n :: work, found =>
    if n ∈ found then reachFrom fuel work found
    else reachFrom fuel (successors n ++ work) (n :: found)

/-- The nodes reached from a node, itself among them. -/
def reachable (node : Nat) : List Nat :=
  let fuel := ((List.range size).map fun n => (successors n).length + 1).foldr (· + ·) 0 + 2
  reachFrom successors fuel [node] []

/-- For every node the nodes it reaches. -/
def reachTable : List (List Nat) :=
  (List.range size).map (reachable size successors)

/-- The nodes that a node reaches and that reach it, in order. -/
def component (table : List (List Nat)) (node : Nat) : List Nat :=
  (List.range size).filter fun other =>
    (table.getD node []).contains other && (table.getD other []).contains node

/-- The components, each listed at its first node. -/
def components : List (List Nat) :=
  let table := reachTable size successors
  (List.range size).filterMap fun node =>
    let members := component size table node
    if members.head? = some node then some members else none

end

/-! ### The graph of components -/

/-- Whether an edge leads from one component to another. -/
def leadsTo (successors : Nat → List Nat) (a b : List Nat) : Bool :=
  a != b && a.any fun n => (successors n).any b.contains

/-- For every component the places of those it leads to. -/
def componentEdges (successors : Nat → List Nat) (parts : List (List Nat)) : List (List Nat) :=
  parts.map fun a =>
    (List.range parts.length).filter fun j => leadsTo successors a (parts.getD j [])

/-! ### A topological order -/

/-- The places that a depth-first search is done with after it has visited one more: first those
that the place leads to, then the place itself. The fuel bounds the depth. -/
def finishFrom (edges : List (List Nat)) : Nat → List Nat → Nat → List Nat
  | 0, done, _        => done
  | fuel + 1, done, i =>
    if i ∈ done then done
    else (edges.getD i []).foldl (finishFrom edges fuel) done ++ [i]

/-- All places in the order in which the search is done with them, which is the reverse of a
topological order. -/
def finishOrder (edges : List (List Nat)) : List Nat :=
  (List.range edges.length).foldl (finishFrom edges (edges.length + 1)) []

/-! ### The pass -/

/-- What is known of the longest chains from some places: how many places are on each, and which
one comes next. -/
structure ChainTables where
  lengths : List (Nat × Nat)
  nexts   : List (Nat × Nat)

namespace ChainTables

/-- The number of places on the longest chain from one. -/
def length (tables : ChainTables) (i : Nat) : Nat :=
  (tables.lengths.lookup i).getD 1

/-- The place that comes next on the longest chain from one. -/
def next (tables : ChainTables) (i : Nat) : Option Nat :=
  tables.nexts.lookup i

end ChainTables

section

variable {α : Type} (order : α → α → Ordering) (name : Nat → α)

/-- The successor on the longest chain; of several, the one whose name comes first. -/
def bestSuccessor (length : Nat → Nat) (targets : List Nat) : Option Nat :=
  leastBy (fun a b => (compare (length b) (length a)).then (order (name a) (name b))) targets

/-- Enters a place after all that it leads to. -/
def ChainTables.enter (edges : List (List Nat)) (tables : ChainTables) (i : Nat) : ChainTables :=
  match bestSuccessor order name tables.length (edges.getD i []) with
  | some next =>
    { lengths := (i, tables.length next + 1) :: tables.lengths
      nexts   := (i, next) :: tables.nexts }
  | none      => { tables with lengths := (i, 1) :: tables.lengths }

/-- The tables after one pass over all places. -/
def chainTables (edges : List (List Nat)) : ChainTables :=
  (finishOrder edges).foldl (ChainTables.enter order name edges) ⟨[], []⟩

/-- The names along a chain. The fuel bounds its length. -/
def chainFrom (next : Nat → Option Nat) : Nat → Nat → List α
  | 0, i        => [name i]
  | fuel + 1, i =>
    match next i with
    | none   => [name i]
    | some j => name i :: chainFrom next fuel j

/-- The longest chains from the components that nothing leads to and that lead somewhere; the
longest first, and chains of one length in the order of their names. -/
def longestChains (edges : List (List Nat)) : List (List α) :=
  let tables := chainTables order name edges
  let isSource part := !edges.any fun targets => targets.contains part
  let starts := (List.range edges.length).filter fun part =>
    isSource part && decide (1 < tables.length part)
  sortBy (fun a b => (compare b.length a.length).then (List.compareLex order a b))
    (starts.map fun part => chainFrom name tables.next edges.length part)

end

end CodeSurvey
