/-!
# Counts

The counts that fit in a machine word.
-/

namespace CodeSurvey

/-- The greatest count in 64 bits. -/
def greatestCount : Nat := 18446744073709551615

/-- A count that fits in 64 bits. -/
def checkedCount (n : Nat) : Option Nat :=
  if n ≤ greatestCount then some n else none

end CodeSurvey
