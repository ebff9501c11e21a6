import CodeSurvey.Count
import CodeSurvey.Graph.Usage

/-!
# Dead code confidence

How likely a symbol is unused, as a score from 0 to 100.

The score starts from the base of the symbol's kind and takes one adjustment after the other. All
of it is computed in 32 bits: an adjustment that leaves that range has no result, while the product
of a weight and a count stops at the bounds.

* `Weights` are the adjustments and their defaults.
* `adjustments` lists what applies to a symbol, with the evidence that each leaves.
* `score` adds them up.
* `Bucket.ofConfidence` sorts a score into the three buckets that are reported.
-/

namespace CodeSurvey

/-! ### Arithmetic in 32 bits -/

/-- The least 32-bit integer. -/
def leastPoints : Int := -2147483648

/-- The greatest 32-bit integer. -/
def greatestPoints : Int := 2147483647

/-- A number that fits in 32 bits. -/
def checkedPoints (n : Int) : Option Int :=
  if leastPoints ≤ n ∧ n ≤ greatestPoints then some n else none

/-- A product that stops at the bounds of 32 bits. -/
def saturatingProduct (a b : Int) : Int :=
  max leastPoints (min greatestPoints (a * b))

/-- Adds numbers one by one, as long as every sum fits in 32 bits. -/
def checkedSum : Int → List Int → Option Int
  | total, []      => some total
  | total, n :: ns => (checkedPoints (total + n)).bind fun sum => checkedSum sum ns

/-- A count in 32 bits; greater ones count as the greatest. -/
def pointsCount (n : Nat) : Int :=
  min (n : Int) greatestPoints

/-! ### Weights -/

/-- The adjustments of the score. -/
structure Weights where
  baseImport        : Int := 75
  baseFunction      : Int := 70
  baseVariable      : Int := 65
  baseClass         : Int := 60
  unused            : Int := 25
  privateUnused     : Int := 10
  perSelfReference  : Int := 8
  perImportUse      : Int := 60
  perCrossReference : Int := 25
  exported          : Int := 25
  testOnly          : Int := 8
  decorated         : Int := 20
  conditionalImport : Int := 30
  dynamic           : Int := 15
  dynamicCap        : Int := 79
deriving DecidableEq

namespace Weights

/-- What a kind of symbol starts from; a symbol of no kind starts like a variable. -/
def base (weights : Weights) : Option SymbolKind → Int
  | some .imported => weights.baseImport
  | some .function => weights.baseFunction
  | some .classDef => weights.baseClass
  | some .assigned => weights.baseVariable
  | none           => weights.baseVariable

/-- What a use within the file takes away. -/
def perSelfFile (weights : Weights) : Option SymbolKind → Int
  | some .imported => weights.perImportUse
  | _              => weights.perSelfReference

end Weights

/-! ### Buckets -/

/-- How sure a finding is. -/
inductive Bucket where
  | high
  | medium
  | low
deriving DecidableEq

namespace Bucket

/-- The bucket of a confidence; below 20 nothing is reported. -/
def ofConfidence (confidence : Nat) : Option Bucket :=
  if 80 ≤ confidence then some high
  else if 60 ≤ confidence then some medium
  else if 20 ≤ confidence then some low
  else none

/-- The name of a bucket. -/
def label : Bucket → String
  | high   => "high"
  | medium => "medium"
  | low    => "low"

end Bucket

/-! ### Scores -/

/-- What the score of a symbol depends on. -/
structure ScoreInput where
  kind          : Option SymbolKind := none
  usage         : SymbolUsage := {}
  isPrivate     : Bool := false
  isExported    : Bool := false
  isDecorated   : Bool := false
  isConditional : Bool := false
  inTestFile    : Bool := false

/-- A score: the confidence, what it rests on, and whether only tests use the symbol. -/
structure Score where
  confidence : Nat
  evidence   : List String
  testOnly   : Bool
deriving DecidableEq

namespace ScoreInput

/-- The facts about a symbol. -/
def ofSymbol (symbol : Symbol) (usage : SymbolUsage) (inTestFile : Bool) : ScoreInput :=
  { kind          := some symbol.id.kind
    usage
    isPrivate     := symbol.isPrivate
    isExported    := symbol.isExported
    isDecorated   := symbol.isDecorated
    isConditional := symbol.isConditional
    inTestFile }

/-- Whether only tests use the symbol, which is not in a test itself. -/
def testOnly (input : ScoreInput) : Bool :=
  !input.inTestFile && input.usage.onlyFromTests

/-- Whether the symbol is a conditional import. -/
def isConditionalImport (input : ScoreInput) : Bool :=
  input.isConditional && input.kind = some .imported

/-- What applies to a symbol: the points added and the evidence left, in order. -/
def adjustments (input : ScoreInput) (weights : Weights) : List (Int × List String) :=
  let usage := input.usage
  [(usage.resolved == 0, weights.unused, ["unused"]),
   (usage.resolved == 0 && input.isPrivate, weights.privateUnused, ["private-unused"]),
   (decide (0 < usage.selfFile),
    -saturatingProduct (weights.perSelfFile input.kind) (pointsCount usage.selfFile),
    if usage.crossFile = 0 then ["self-file-only"] else []),
   (decide (0 < usage.crossFile),
    -saturatingProduct weights.perCrossReference (pointsCount usage.crossFile),
    ["cross-file-references"]),
   (input.isExported, -weights.exported, ["exported"]),
   (input.testOnly, -weights.testOnly, ["test-only-usage"]),
   (input.isDecorated, -weights.decorated, ["decorated"]),
   (input.isConditionalImport, -weights.conditionalImport, ["conditional-import"]),
   (decide (0 < usage.dynamic), -weights.dynamic, ["dynamic-uncertain"])].filterMap
    fun (applies, points, evidence) => if applies then some (points, evidence) else none

end ScoreInput

/-- A total between 0 and 100. -/
def clampConfidence (total : Int) : Nat :=
  (max 0 (min 100 total)).toNat

/-- The score of a symbol, unless a sum leaves its range. -/
def score (input : ScoreInput) (weights : Weights) : Option Score :=
  if greatestCount < input.usage.resolved then none
  else
    let applied := input.adjustments weights
    (checkedSum (weights.base input.kind) (applied.map Prod.fst)).map fun total =>
      let capped := if 0 < input.usage.dynamic then min total weights.dynamicCap else total
      { confidence := clampConfidence capped
        evidence   := applied.flatMap Prod.snd
        testOnly   := input.testOnly }

end CodeSurvey
