/-!
# Averages as doubles

An average of two counts, rounded to the nearest double and written out in decimal.

A double is kept as an exact fraction. The average degree of a graph is the only one that a survey
ever computes.

* `Double.ofRatio` rounds a ratio to 53 binary digits, halves to even.
* `Double.fixed` writes a double with a given number of decimal places.
* `Double.shortest` writes the fewest digits that read back as the same double.
-/

namespace CodeSurvey

/-- A double that is not negative, as a fraction of whole numbers. -/
structure Double where
  numerator   : Nat
  denominator : Nat
deriving DecidableEq

namespace Double

/-- A ratio rounded to a whole number, halves to even. -/
def roundRatio (a b : Nat) : Nat :=
  let quotient := a / b
  let rest := a % b
  if b < 2 * rest ∨ (2 * rest = b ∧ quotient % 2 = 1) then quotient + 1 else quotient

/-- The ratio of two counts as a double; zero over anything and anything over zero is zero. -/
def ofRatio (a b : Nat) : Double :=
  if a = 0 ∨ b = 0 then ⟨0, 1⟩
  else
    -- `2 ^ e ≤ a / b < 2 ^ (e + 1)` for an integer `e`, found from the binary sizes
    let guess : Int := (Nat.log2 a : Int) - Nat.log2 b
    let below (e : Int) : Bool :=
      if 0 ≤ e then decide (b * Nat.pow 2 e.toNat ≤ a) else decide (b ≤ a * Nat.pow 2 (-e).toNat)
    let e := if below guess then guess else guess - 1
    let shift : Int := 52 - e
    if 0 ≤ shift then ⟨roundRatio (a * Nat.pow 2 shift.toNat) b, Nat.pow 2 shift.toNat⟩
    else ⟨roundRatio a (b * Nat.pow 2 (-shift).toNat) * Nat.pow 2 (-shift).toNat, 1⟩

/-- Whether two fractions are the same number. -/
def same (x y : Double) : Bool :=
  x.numerator * y.denominator == y.numerator * x.denominator

/-- A whole number with a decimal point before its last `places` digits. -/
def point (n places : Nat) : String :=
  let digits := (toString n).toList
  let padded := List.replicate (places + 1 - digits.length) '0' ++ digits
  let whole := padded.take (padded.length - places)
  let part := padded.drop (padded.length - places)
  if part.isEmpty then String.ofList whole
  else String.ofList whole ++ "." ++ String.ofList part

/-- A double with a fixed number of decimal places, halves to even. -/
def fixed (x : Double) (places : Nat) : String :=
  point (roundRatio (x.numerator * Nat.pow 10 places) x.denominator) places

/-- A double with the fewest decimal places that read back as the same double; at least `places`
are tried. The fuel bounds the places. -/
def shortestFrom (x : Double) : Nat → Nat → String
  | 0, places        => x.fixed places
  | fuel + 1, places =>
    let n := roundRatio (x.numerator * Nat.pow 10 places) x.denominator
    if same (ofRatio n (Nat.pow 10 places)) x then point n places
    else shortestFrom x fuel (places + 1)

/-- A double with the fewest digits that read back as the same double, and at least one decimal
place. -/
def shortest (x : Double) : String :=
  shortestFrom x 30 1

end Double

end CodeSurvey
