/-!
# Sorted lists

Lists in order without repetitions, as sets of names, lines and paths are kept.

* `sortBy` sorts stably by an order and `sortedSet` also drops repetitions.
* `leastBy` is the first of the least items, and `byLengthThenText` an order that several modules
  share.
-/

namespace CodeSurvey

variable {α : Type}

/-- The list sorted by an order; items that are equal keep their places. -/
def sortBy (order : α → α → Ordering) (items : List α) : List α :=
  items.mergeSort fun a b => (order a b).isLE

/-- Keeps the first of every run of items that are equal in the order. -/
def dropRepeats (order : α → α → Ordering) : List α → List α
  | []             => []
  | [a]            => [a]
  | a :: b :: rest =>
    match dropRepeats order (b :: rest) with
    | []         => [a]
    | c :: later => if order a c = .eq then a :: later else a :: c :: later

/-- The items in order, each once. -/
def sortedSet (order : α → α → Ordering) (items : List α) : List α :=
  dropRepeats order (sortBy order items)

/-- The first of the least items in an order. -/
def leastBy (order : α → α → Ordering) : List α → Option α
  | []        => none
  | a :: rest =>
    match leastBy order rest with
    | none   => some a
    | some b => some (if (order a b).isLE then a else b)

/-- Texts by their length in bytes, then in order. -/
def byLengthThenText (a b : String) : Ordering :=
  (compare a.utf8ByteSize b.utf8ByteSize).then (compare a b)

end CodeSurvey
