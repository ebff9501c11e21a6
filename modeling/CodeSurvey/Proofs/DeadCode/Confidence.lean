import CodeSurvey.DeadCode.Score
import CodeSurvey.Proofs.Graph.MoreReferences
import Mathlib

/-!
# More uses, less confidence

One more reference never makes a symbol look more like dead code.

* `confidence_of_score`: the confidence of a symbol is that of its points, capped and clamped.
* `saturatingProduct_succ`: one more use costs its weight, unless the cost has reached the bound.
* `ScoreInput.points_grows`: so with more uses a symbol has fewer points, or none.
* `confidence_withReference_le`: so the confidence of no symbol of a project is raised.
-/

namespace CodeSurvey

/-! ### Sums and products in 32 bits -/

/-- A sum that fits is the sum. -/
theorem checkedSum_eq {result : Int} : ∀ {points : List Int} {start : Int},
    checkedSum start points = some result → result = start + points.sum
  | [], start, h => by
      cases h
      rw [List.sum_nil, Int.add_zero]
  | n :: ns, start, h => by
      obtain ⟨sum, fits, h⟩ := Option.bind_eq_some_iff.1 h
      rw [checkedPoints] at fits
      split at fits
      · cases fits
        rw [checkedSum_eq h, List.sum_cons, Int.add_assoc]
      · cases fits

/-- A product that stops at the bound is not negative either. -/
theorem saturatingProduct_nonneg {weight : Int} (nonneg : 0 ≤ weight) (n : Nat) :
    0 ≤ saturatingProduct weight (pointsCount n) := by
  have count : 0 ≤ pointsCount n := by
    rw [pointsCount, greatestPoints]
    omega
  have product := Int.mul_nonneg nonneg count
  rw [saturatingProduct, greatestPoints, leastPoints]
  omega

theorem saturatingProduct_zero (weight : Int) : saturatingProduct weight (pointsCount 0) = 0 := by
  have count : pointsCount 0 = 0 := rfl
  rw [saturatingProduct, count, Int.mul_zero]
  rfl

/-- **One more use costs its weight, unless the cost has reached the bound.** -/
theorem saturatingProduct_succ {weight : Int} (nonneg : 0 ≤ weight) (n : Nat) :
    saturatingProduct weight (pointsCount (n + 1)) =
        saturatingProduct weight (pointsCount n) + weight ∨
      saturatingProduct weight (pointsCount (n + 1)) = greatestPoints := by
  have before := Int.mul_nonneg nonneg (Int.natCast_nonneg n)
  by_cases counts : ((n + 1 : Nat) : Int) ≤ greatestPoints
  · have next : pointsCount (n + 1) = n + 1 := by
      rw [pointsCount, Int.min_eq_left counts]
      rfl
    have here : pointsCount n = n := by
      rw [pointsCount, Int.min_eq_left (by omega)]
    simp only [saturatingProduct, next, here, Int.mul_add, Int.mul_one, greatestPoints,
      leastPoints]
    omega
  · -- a count beyond the bound costs the bound, or nothing if the weight is nothing
    have next : pointsCount (n + 1) = greatestPoints := by
      rw [pointsCount, Int.min_eq_right (by omega)]
    have here : pointsCount n = greatestPoints := by
      rw [pointsCount, Int.min_eq_right (by omega)]
    rcases Int.lt_or_eq_of_le nonneg with some | none
    · right
      have product : 1 * greatestPoints ≤ weight * greatestPoints :=
        Int.mul_le_mul_of_nonneg_right some (by decide)
      rw [Int.one_mul] at product
      rw [saturatingProduct, next, Int.min_eq_left product]
      rfl
    · left
      rw [next, here, ← none, Int.add_zero]

/-! ### Points -/

namespace ScoreInput

variable (input : ScoreInput) (weights : Weights)

/-- What not being used adds. -/
def unusedPoints : Int :=
  (if input.usage.resolved = 0 then weights.unused else 0) +
    if input.usage.resolved = 0 ∧ input.isPrivate then weights.privateUnused else 0

/-- What uses within the file take away. -/
def selfPoints : Int :=
  saturatingProduct (weights.perSelfFile input.kind) (pointsCount input.usage.selfFile)

/-- What uses in other files take away. -/
def crossPoints : Int :=
  saturatingProduct weights.perCrossReference (pointsCount input.usage.crossFile)

/-- What being used by tests only takes away. -/
def testPoints : Int :=
  if input.testOnly then weights.testOnly else 0

/-- What the definition takes away, whatever its uses. -/
def definitionPoints : Int :=
  (if input.isExported then weights.exported else 0) +
    (if input.isDecorated then weights.decorated else 0) +
    if input.isConditionalImport then weights.conditionalImport else 0

/-- What uses that only run time can confirm take away. -/
def dynamicPoints : Int :=
  if 0 < input.usage.dynamic then weights.dynamic else 0

/-- All points of a symbol. -/
def points : Int :=
  weights.base input.kind + input.unusedPoints weights - input.selfPoints weights -
    input.crossPoints weights - input.testPoints weights - input.definitionPoints weights -
    input.dynamicPoints weights

/-- The points of a symbol, capped if some use of it is not certain. -/
def cappedPoints : Int :=
  if 0 < input.usage.dynamic then min (input.points weights) weights.dynamicCap
  else input.points weights

/-- What is left of a list of factors: the points and the evidence of those that apply. -/
def applied (factors : List (Bool × Int × List String)) : List (Int × List String) :=
  factors.filterMap fun factor => if factor.1 then some factor.2 else none

/-- Only the factors that apply count. -/
theorem sum_applied (factors : List (Bool × Int × List String)) :
    ((applied factors).map Prod.fst).sum =
      (factors.map fun factor => if factor.1 then factor.2.1 else 0).sum := by
  induction factors with
  | nil => rfl
  | cons factor rest ih =>
      obtain ⟨applies, points, evidence⟩ := factor
      cases applies with
      | false => simpa [applied] using ih
      | true => simpa [applied] using ih

/-- What is added to the score of a symbol, in order, with nothing for what does not apply. -/
def amounts : List Int :=
  [if input.usage.resolved = 0 then weights.unused else 0,
   if input.usage.resolved = 0 ∧ input.isPrivate then weights.privateUnused else 0,
   -input.selfPoints weights,
   -input.crossPoints weights,
   -(if input.isExported then weights.exported else 0),
   -input.testPoints weights,
   -(if input.isDecorated then weights.decorated else 0),
   -(if input.isConditionalImport then weights.conditionalImport else 0),
   -input.dynamicPoints weights]

/-- The adjustments are the amounts, without those that do not apply. -/
theorem exists_factors : ∃ factors : List (Bool × Int × List String),
    input.adjustments weights = applied factors ∧
    (factors.map fun factor => if factor.1 then factor.2.1 else 0) = input.amounts weights := by
  have self : (if 0 < input.usage.selfFile then -input.selfPoints weights else 0) =
      -input.selfPoints weights := by
    split
    · rfl
    · rename_i zero
      rw [selfPoints, Nat.eq_zero_of_not_pos zero, saturatingProduct_zero]
      rfl
  have cross : (if 0 < input.usage.crossFile then -input.crossPoints weights else 0) =
      -input.crossPoints weights := by
    split
    · rfl
    · rename_i zero
      rw [crossPoints, Nat.eq_zero_of_not_pos zero, saturatingProduct_zero]
      rfl
  have negated : ∀ (p : Prop) [Decidable p] (x : Int),
      (if p then -x else 0) = -(if p then x else 0) := by
    intro p _ x
    split
    · rfl
    · rfl
  refine ⟨_, rfl, ?_⟩
  simp only [List.map_cons, List.map_nil, beq_iff_eq, Bool.and_eq_true, decide_eq_true_eq]
  rw [← selfPoints, ← crossPoints, self, cross, negated, negated, negated, negated, negated,
    amounts, testPoints, dynamicPoints]

/-- **The adjustments of a score add up to its points.** -/
theorem sum_adjustments :
    weights.base input.kind + ((input.adjustments weights).map Prod.fst).sum =
      input.points weights := by
  obtain ⟨factors, eq, amounts_eq⟩ := input.exists_factors weights
  rw [eq, sum_applied, amounts_eq, amounts, points, unusedPoints, definitionPoints]
  simp only [List.sum_cons, List.sum_nil]
  omega

end ScoreInput

/-- **The confidence of a symbol is that of its points.** -/
theorem confidence_of_score {input : ScoreInput} {weights : Weights} {s : Score}
    (h : score input weights = some s) :
    s.confidence = clampConfidence (input.cappedPoints weights) := by
  rw [score] at h
  split at h
  · cases h
  · obtain ⟨total, sum, rfl⟩ := Option.map_eq_some_iff.1 h
    rw [checkedSum_eq sum, ScoreInput.sum_adjustments]
    rfl

/-- Fewer points never give more confidence. -/
theorem clampConfidence_le {points points' : Int} (h : points' ≤ points ∨ points' ≤ 0) :
    clampConfidence points' ≤ clampConfidence points := by
  rw [clampConfidence, clampConfidence]
  omega

/-! ### More uses -/

/-- Weights in 32 bits with which every use counts against a symbol being dead code, and being used by
tests only counts for no more than a single use. -/
structure Weights.Damping (weights : Weights) : Prop where
  fits              : ∀ kind, weights.base kind ≤ greatestPoints
  unused            : 0 ≤ weights.unused
  privateUnused     : 0 ≤ weights.privateUnused
  exported          : 0 ≤ weights.exported
  testOnly          : 0 ≤ weights.testOnly
  decorated         : 0 ≤ weights.decorated
  conditionalImport : 0 ≤ weights.conditionalImport
  dynamic           : 0 ≤ weights.dynamic
  perSelfReference  : weights.testOnly ≤ weights.perSelfReference
  perImportUse      : weights.testOnly ≤ weights.perImportUse
  perCrossReference : weights.testOnly ≤ weights.perCrossReference

namespace Weights.Damping

variable {weights : Weights} (damping : weights.Damping) (input : ScoreInput)
include damping

/-- A use in a test is worth no more than one in the own file. -/
theorem perSelfFile (kind : Option SymbolKind) : weights.testOnly ≤ weights.perSelfFile kind := by
  rw [Weights.perSelfFile.eq_def]
  split
  · exact damping.perImportUse
  · exact damping.perSelfReference

theorem unusedPoints : 0 ≤ input.unusedPoints weights := by
  have := damping.unused
  have := damping.privateUnused
  rw [ScoreInput.unusedPoints]
  split <;> split <;> omega

theorem selfPoints : 0 ≤ input.selfPoints weights :=
  saturatingProduct_nonneg (Int.le_trans damping.testOnly (damping.perSelfFile _)) _

theorem crossPoints : 0 ≤ input.crossPoints weights :=
  saturatingProduct_nonneg (Int.le_trans damping.testOnly damping.perCrossReference) _

/-- The points for tests are bounded by their weight. -/
theorem testPoints :
    0 ≤ input.testPoints weights ∧ input.testPoints weights ≤ weights.testOnly := by
  have := damping.testOnly
  rw [ScoreInput.testPoints]
  split <;> omega

theorem definitionPoints : 0 ≤ input.definitionPoints weights := by
  have := damping.exported
  have := damping.decorated
  have := damping.conditionalImport
  rw [ScoreInput.definitionPoints]
  split <;> split <;> split <;> omega

theorem dynamicPoints : 0 ≤ input.dynamicPoints weights := by
  have := damping.dynamic
  rw [ScoreInput.dynamicPoints]
  split <;> omega

end Weights.Damping

namespace ScoreInput

variable {weights : Weights} (damping : weights.Damping) (input : ScoreInput)

/-- The facts about a symbol with other uses. -/
def withUsage (usage : SymbolUsage) : ScoreInput :=
  { input with usage }

/-- A symbol that is used gets no points for being unused. -/
theorem unusedPoints_of_used {usage : SymbolUsage} (used : 0 < usage.resolved) :
    (input.withUsage usage).unusedPoints weights = 0 := by
  have ne : usage.resolved ≠ 0 := Nat.ne_of_gt used
  simp [unusedPoints, withUsage, ne]

section

include damping

/-- A symbol that is used has no more points than before if its uses cost more by what the lack of a
use outside of tests costs, and none if they cost the most there is. -/
theorem points_of_used {usage : SymbolUsage} (used : 0 < usage.resolved)
    (dynamic : usage.dynamic = input.usage.dynamic)
    (cost : input.selfPoints weights + input.crossPoints weights + weights.testOnly ≤
        (input.withUsage usage).selfPoints weights + (input.withUsage usage).crossPoints weights ∨
      greatestPoints ≤
        (input.withUsage usage).selfPoints weights + (input.withUsage usage).crossPoints weights) :
    (input.withUsage usage).points weights ≤ input.points weights ∨
      (input.withUsage usage).points weights ≤ 0 := by
  have base := damping.fits input.kind
  have unused := damping.unusedPoints input
  have test := damping.testPoints input
  have test' := damping.testPoints (input.withUsage usage)
  have definition := damping.definitionPoints input
  have uncertain := damping.dynamicPoints input
  have kind : (input.withUsage usage).kind = input.kind := rfl
  have sameDefinition :
      (input.withUsage usage).definitionPoints weights = input.definitionPoints weights := rfl
  have sameDynamic :
      (input.withUsage usage).dynamicPoints weights = input.dynamicPoints weights := by
    rw [dynamicPoints, dynamicPoints, withUsage, dynamic]
  rw [points, points, unusedPoints_of_used input used, kind, sameDefinition, sameDynamic]
  omega

/-- **With one more use a symbol has no more points than before, or none.** -/
theorem points_grows {usage : SymbolUsage} (grows : input.usage.Grows usage) :
    (input.withUsage usage).points weights ≤ input.points weights ∨
      (input.withUsage usage).points weights ≤ 0 := by
  cases grows with
  | same => exact .inl (Int.le_refl _)
  | inside =>
      refine points_of_used damping input ?_ rfl ?_
      · simp only [SymbolUsage.resolved]
        omega
      · have weight := damping.perSelfFile input.kind
        have cross := damping.crossPoints input
        have more := saturatingProduct_succ (Int.le_trans damping.testOnly weight)
          input.usage.selfFile
        simp only [selfPoints, crossPoints, withUsage] at cross ⊢
        omega
  | across fromTest =>
      refine points_of_used damping input ?_ rfl ?_
      · simp only [SymbolUsage.resolved]
        omega
      · have weight := damping.perCrossReference
        have self := damping.selfPoints input
        have more := saturatingProduct_succ (Int.le_trans damping.testOnly weight)
          input.usage.crossFile
        simp only [selfPoints, crossPoints, withUsage] at self ⊢
        omega
  | dynamic count =>
      -- only whether there are such uses counts, not how many
      left
      have more : input.dynamicPoints weights ≤ (input.withUsage
          { input.usage with dynamic := input.usage.dynamic + count }).dynamicPoints weights := by
        rw [dynamicPoints]
        split
        · rename_i some
          have still : 0 < input.usage.dynamic + count := Nat.add_pos_left some count
          exact Int.le_of_eq (if_pos still).symm
        · exact damping.dynamicPoints _
      exact Int.sub_le_sub_left more _

/-- Under the cap as well, points go down while uses grow, or else there are none. -/
theorem cappedPoints_grows {usage : SymbolUsage} (grows : input.usage.Grows usage) :
    (input.withUsage usage).cappedPoints weights ≤ input.cappedPoints weights ∨
      (input.withUsage usage).cappedPoints weights ≤ 0 := by
  have points := points_grows damping input grows
  have dynamic : input.usage.dynamic ≤ usage.dynamic := by
    cases grows with
    | dynamic => exact Nat.le_add_right ..
    | _ => exact Nat.le_refl _
  have uses : (input.withUsage usage).usage = usage := rfl
  rw [cappedPoints, cappedPoints, uses]
  split <;> split <;> omega

/-- **With one more use the confidence is not raised.** -/
theorem confidence_grows {usage : SymbolUsage} (grows : input.usage.Grows usage) {s s' : Score}
    (h : score input weights = some s) (h' : score (input.withUsage usage) weights = some s') :
    s'.confidence ≤ s.confidence := by
  rw [confidence_of_score h, confidence_of_score h']
  exact clampConfidence_le (cappedPoints_grows damping input grows)

end

end ScoreInput

/-! ### One more reference in a project -/

/-- The score of a symbol in a project, in a file that may be a test. -/
def scoreIn (files : List FileIndex) (weights : Weights) (file : FileIndex) (symbol : Symbol) :
    Option Score :=
  score (.ofSymbol symbol ((buildGraph files).usage symbol.id) file.file.isTest) weights

/-- **One more reference in a project raises the confidence of no symbol**, as long as no score
leaves its range. The uses of a symbol stay the same unless the reference, as the linker leaves it,
has the symbol as its target, or has no target and is dynamic and has its name. -/
theorem confidence_withReference_le {weights : Weights} (damping : weights.Damping)
    (before after : List FileIndex) (file : FileIndex) (reference : Reference) :
    let files := before ++ file :: after
    let files' := before ++ file.withReference reference :: after
    let linked := linkedIn before after file reference
    ∀ index ∈ files, ∀ symbol ∈ index.symbols,
      (∀ s s', scoreIn files weights index symbol = some s →
        scoreIn files' weights index symbol = some s' → s'.confidence ≤ s.confidence) ∧
      (linked.target ≠ some symbol.id →
        (linked.resolution = .dynamicUncertain → linked.target = none →
          ∀ other ∈ files, ∀ namesake ∈ other.symbols, namesake.id = symbol.id →
            namesake.name ≠ linked.name) →
        (buildGraph files').usage symbol.id = (buildGraph files).usage symbol.id) := by
  intro files files' linked index there symbol own
  refine ⟨fun s s' h h' => ?_, fun target names => ?_⟩
  · have grows := usage_withReference_grows before after file reference symbol.id
    exact ScoreInput.confidence_grows damping
      (.ofSymbol symbol ((buildGraph files).usage symbol.id) index.file.isTest) grows h h'
  · exact usage_withReference_of_apart before after file reference target names

/-- The weights that are set by default are damping. -/
theorem damping_default : ({} : Weights).Damping where
  fits kind         := by rcases kind with _ | _ | _ | _ | _ <;> decide
  unused            := by decide
  privateUnused     := by decide
  exported          := by decide
  testOnly          := by decide
  decorated         := by decide
  conditionalImport := by decide
  dynamic           := by decide
  perSelfReference  := by decide
  perImportUse      := by decide
  perCrossReference := by decide

/-- A private function that nothing uses. -/
def unusedHelper : Symbol where
  id            := ⟨.ofNames ["a.py"], "_help", .function⟩
  name          := "_help"
  line          := 1
  scope         := .module
  isPrivate     := true
  isExported    := false
  isDecorated   := false
  isConditional := false
  source        := none

/-- The module of that function. -/
def helperModule : FileIndex where
  file       := ⟨.ofNames ["a.py"], .ofNames ["a.py"], 1, .python, false⟩
  moduleName := "a"
  symbols    := [unusedHelper]
  imports    := []
  references := []
  exports    := none
  lineCount  := 1

/-- A use of the function in a file of its own. -/
def helperUse : Reference where
  target     := some unusedHelper.id
  name       := "_help"
  access     := none
  file       := .ofNames ["b.py"]
  line       := 1
  resolution := .resolved

/-- A single call takes the confidence that a helper is dead from 100 down to 45. -/
theorem confidence_withReference_le_helper : ({} : Weights).Damping ∧ ∃ s s',
    scoreIn [helperModule] {} helperModule unusedHelper = some s ∧
      scoreIn [helperModule.withReference helperUse] {} helperModule unusedHelper = some s' ∧
      s.confidence = 100 ∧ s'.confidence = 45 ∧ s'.confidence ≤ s.confidence := by
  have scores : ∃ s s', scoreIn [helperModule] {} helperModule unusedHelper = some s ∧
      scoreIn [helperModule.withReference helperUse] {} helperModule unusedHelper = some s' ∧
      s.confidence = 100 ∧ s'.confidence = 45 := ⟨_, _, rfl, rfl, rfl, rfl⟩
  obtain ⟨s, s', first, second, eq, eq'⟩ := scores
  refine ⟨damping_default, s, s', first, second, eq, eq', ?_⟩
  exact (confidence_withReference_le damping_default [] [] helperModule helperUse helperModule
    (List.mem_singleton_self _) unusedHelper (List.mem_singleton_self _)).1 s s' first second

end CodeSurvey
