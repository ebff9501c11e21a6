import CodeSurvey.Toml.Value

/-!
# TOML tables under construction

A document defines its tables piece by piece, and no piece may be defined twice. Until the end, a
table remembers how it came about:

* a table that only stands on the way to another one is implicit, and may still get a header;
* a table that dotted keys made may get more dotted keys but never a header;
* an array of tables grows at its end.

`Slots.alter` goes down a path of keys and changes the table at its end; `openTable`, `openItem`
and `insert` are the three ways a document adds to itself.
-/

namespace CodeSurvey.Toml

/-- What a key holds in a table under construction. -/
inductive Slot where
  /-- A finished value. -/
  | value (v : Value)
  /-- A table that may still grow. -/
  | table (isImplicit isDotted : Bool) (entries : List (String × Slot))
  /-- An array of tables. -/
  | tables (items : List (List (String × Slot)))

/-- The entries of a table under construction. -/
abbrev Slots : Type := List (String × Slot)

namespace Slots

/-- Sets the slot of a key. -/
def set (slots : Slots) (key : String) (slot : Slot) : Slots :=
  if slots.any (·.1 == key) then slots.map fun e => if e.1 == key then (key, slot) else e
  else slots ++ [(key, slot)]

/-- Changes the table at the end of a path, given whether dotted keys made it. Tables that are
missing on the way are made; a finished value cannot be entered, and with `byDots` neither can a
table that has a header. `isDotted` says whether dotted keys made the table the path starts at. -/
def alter (byDots : Bool) (change : Bool → Slots → Option Slots) :
    Bool → List String → Slots → Option Slots
  | isDotted, [], slots => change isDotted slots
  | _, key :: path, slots =>
    match slots.lookup key with
    | none =>
      (alter byDots change byDots path []).map fun inner =>
        slots.set key (.table true byDots inner)
    | some (.value _) => none
    | some (.table isImplicit isDotted inner) =>
      if byDots && !isImplicit then none
      else
        (alter byDots change isDotted path inner).map fun changed =>
          slots.set key (.table isImplicit isDotted changed)
    | some (.tables items) =>
      match items.getLast? with
      | none      => none
      | some last =>
        (alter byDots change false path last).map fun changed =>
          slots.set key (.tables (items.dropLast ++ [changed]))

/-- Opens the table of a header. Only an implicit table that dotted keys did not make may exist
already. -/
def openTable (path : List String) (key : String) (slots : Slots) : Option Slots :=
  alter false (fun _ parent =>
    match parent.lookup key with
    | none                           => some (parent.set key (.table false false []))
    | some (.table true false inner) => some (parent.set key (.table false false inner))
    | some _                         => none) false path slots

/-- Opens one more table of an array of tables. -/
def openItem (path : List String) (key : String) (slots : Slots) : Option Slots :=
  alter false (fun _ parent =>
    match parent.lookup key with
    | none                 => some (parent.set key (.tables [[]]))
    | some (.tables items) => some (parent.set key (.tables (items ++ [[]])))
    | some _               => none) false path slots

/-- Adds a value under a dotted key. The table that takes it has been made by dotted keys exactly
if the key is dotted. -/
def insert (path : List String) (key : String) (value : Value) (slots : Slots) : Option Slots :=
  alter true (fun isDotted table =>
    if isDotted == path.isEmpty then none
    else if table.any (·.1 == key) then none
    else some (table.set key (.value value))) false path slots

/-- Adds a value under a dotted key to the table that the last header opened. -/
def insertAt (header path : List String) (key : String) (value : Value) (slots : Slots) :
    Option Slots :=
  alter false (fun _ table => insert path key value table) false header slots

end Slots

mutual

/-- A slot as a finished value. -/
def Slot.finish : Slot → Value
  | .value v           => v
  | .table _ _ entries => .table (finishEntries entries)
  | .tables items      => .array (finishTables items)

/-- Entries as finished values. -/
def finishEntries : List (String × Slot) → List (String × Value)
  | []                   => []
  | (key, slot) :: rest => (key, slot.finish) :: finishEntries rest

/-- Tables as finished values. -/
def finishTables : List (List (String × Slot)) → List Value
  | []            => []
  | item :: rest => .table (finishEntries item) :: finishTables rest

end

end CodeSurvey.Toml
