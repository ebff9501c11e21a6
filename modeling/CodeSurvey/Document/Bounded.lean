/-!
# Lists within a budget

A list of entries that may have to be cut. What is cut is replaced by an entry that says how many
entries are missing, if there is room for it.

* `bounded` cuts a list to a number of characters.
-/

namespace CodeSurvey

/-- The entry that stands for missing ones. -/
def moreMarker (count : Nat) : String :=
  s!"... {count} more"

/-- The room that an entry takes up: its characters and the separator after it. -/
def entryCost (separator : Nat) (entry : String) : Nat :=
  entry.length + separator

/-- The room to leave for saying that so many entries are missing. -/
def markerCost (separator missing : Nat) : Nat :=
  if missing = 0 then 0 else entryCost separator (moreMarker missing)

/-- Keeps entries while they, and what says that the rest is missing, fit in what a budget leaves
after `used` characters. -/
def boundedFrom (budget separator used : Nat) : List String → List String
  | []            => []
  | entry :: rest =>
    if budget < used + entryCost separator entry + markerCost separator rest.length then
      let marker := moreMarker (rest.length + 1)
      if used + entryCost separator marker ≤ budget then [marker] else []
    else entry :: boundedFrom budget separator (used + entryCost separator entry) rest

/-- The entries that fit in a budget, each with a separator of the given width after it. -/
def bounded (entries : List String) (budget separator : Nat) : List String :=
  boundedFrom budget separator 0 entries

end CodeSurvey
