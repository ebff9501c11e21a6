import CodeSurvey.Proofs.Config.Text
import CodeSurvey.Proofs.DeadCode.Confidence

/-!
# Scores that leave their range

A score is added up in 32 bits and has no result once a sum on the way leaves that range. Only the
product of a weight and a count stops at the bounds, and no configuration is refused for its
weights.

* `isSome_checkedSum_applied`: a sum has a result exactly if all sums on the way fit.
* `abs_runningTotals_le`: how far from zero the sums on the way can get.
* `score_mostUses`: with weights that count every use they get out of range, if there are too many.
* `score_completes_iff` puts this together: when there is a score.
-/

namespace CodeSurvey

/-- A number fits in 32 bits. -/
def FitsPoints (n : Int) : Prop :=
  leastPoints ≤ n ∧ n ≤ greatestPoints

/-! ### Sums on the way -/

/-- **A sum has a result exactly if all sums on the way fit**, where what does not apply adds
nothing. -/
theorem isSome_checkedSum_applied (factors : List (Bool × Int × List String)) {start : Int}
    (fits : FitsPoints start) :
    (checkedSum start ((ScoreInput.applied factors).map Prod.fst)).isSome ↔
      ∀ sum ∈ (factors.map fun factor => if factor.1 then factor.2.1 else 0).scanl (· + ·) start,
        FitsPoints sum := by
  induction factors generalizing start with
  | nil => simpa [ScoreInput.applied, checkedSum] using fits
  | cons factor rest ih =>
      obtain ⟨applies, points, evidence⟩ := factor
      cases applies with
      | false => simpa [ScoreInput.applied, fits] using ih fits
      | true =>
          have next : start + points ∈
              (rest.map fun factor => if factor.1 then factor.2.1 else 0).scanl (· + ·)
                (start + points) := by
            cases rest <;> simp
          simp only [ScoreInput.applied, List.filterMap_cons, if_true, List.map_cons, checkedSum,
            checkedPoints, List.scanl_cons, List.forall_mem_cons]
          by_cases inside : leastPoints ≤ start + points ∧ start + points ≤ greatestPoints
          · rw [if_pos inside]
            exact (ih inside).trans (and_iff_right fits).symm
          · rw [if_neg inside]
            refine ⟨fun some => ?_, fun all => absurd (all.2 _ next) inside⟩
            cases some

theorem abs_le_of_mem_scanl {sum : Int} : ∀ {amounts : List Int} {start : Int},
    sum ∈ amounts.scanl (· + ·) start → |sum| ≤ |start| + (amounts.map abs).sum
  | [], start, h => by
      rw [List.scanl_nil, List.mem_singleton] at h
      simp [h]
  | n :: amounts, start, h => by
      rw [List.scanl_cons, List.mem_cons] at h
      rw [List.map_cons, List.sum_cons]
      rcases h with rfl | h
      · have rest : 0 ≤ (amounts.map abs).sum := List.sum_nonneg (by simp)
        have first := abs_nonneg n
        omega
      · have ih := abs_le_of_mem_scanl h
        have first := abs_add_le start n
        omega

namespace ScoreInput

variable (input : ScoreInput) (weights : Weights)

/-- The sums on the way to the score of a symbol, from what its kind starts from. -/
def runningTotals : List Int :=
  (input.amounts weights).scanl (· + ·) (weights.base input.kind)

variable {input weights}

/-- **There is a score exactly if all sums on the way to it fit.** -/
theorem isSome_score (counted : input.usage.resolved ≤ greatestCount)
    (base : FitsPoints (weights.base input.kind)) :
    (score input weights).isSome ↔ ∀ sum ∈ input.runningTotals weights, FitsPoints sum := by
  obtain ⟨factors, eq, amounts⟩ := input.exists_factors weights
  rw [score, if_neg (Nat.not_lt.2 counted), Option.isSome_map, eq,
    isSome_checkedSum_applied factors base, amounts, runningTotals]

end ScoreInput

/-! ### Small weights and counts -/

section

variable {weights : Weights} {bound : Int}

/-- No weight is farther from zero than a bound. -/
def Weights.Within (weights : Weights) (bound : Int) : Prop :=
  ∀ n ∈ weights.points, |n| ≤ bound

theorem Weights.base_mem (weights : Weights) (kind : Option SymbolKind) :
    weights.base kind ∈ weights.points := by
  rcases kind with _ | _ | _ | _ | _ <;> simp [Weights.base, Weights.points]

theorem Weights.perSelfFile_mem (weights : Weights) (kind : Option SymbolKind) :
    weights.perSelfFile kind ∈ weights.points := by
  rcases kind with _ | _ | _ | _ | _ <;> simp [Weights.perSelfFile, Weights.points]

theorem abs_saturatingProduct_le {weight : Int} (within : |weight| ≤ bound) (n : Nat) :
    |saturatingProduct weight (pointsCount n)| ≤ bound * n := by
  have count : 0 ≤ pointsCount n ∧ pointsCount n ≤ n := by
    rw [pointsCount, greatestPoints]
    omega
  have clipped : |saturatingProduct weight (pointsCount n)| ≤ |weight * pointsCount n| := by
    have below := neg_abs_le (weight * pointsCount n)
    have above := le_abs_self (weight * pointsCount n)
    rw [saturatingProduct, leastPoints, greatestPoints, abs_le]
    omega
  calc |saturatingProduct weight (pointsCount n)|
      ≤ |weight * pointsCount n| := clipped
    _ = |weight| * pointsCount n := by rw [abs_mul, abs_of_nonneg count.1]
    _ ≤ bound * n := mul_le_mul within count.2 count.1 ((abs_nonneg _).trans within)

theorem abs_ite_le {n : Int} (within : |n| ≤ bound) (p : Prop) [Decidable p] :
    |if p then n else 0| ≤ bound := by
  split
  · exact within
  · rw [abs_zero]
    exact (abs_nonneg n).trans within

/-- **How far from zero the sums on the way can get**: by a weight for each use, and for what a
symbol starts from and the seven other adjustments. -/
theorem abs_runningTotals_le (within : weights.Within bound) (input : ScoreInput) {sum : Int}
    (h : sum ∈ input.runningTotals weights) : |sum| ≤ (input.usage.resolved + 8) * bound := by
  have base := within _ (weights.base_mem input.kind)
  have self := abs_saturatingProduct_le (within _ (weights.perSelfFile_mem input.kind))
    input.usage.selfFile
  have other : ∀ n ∈ weights.points, ∀ (p : Prop) [Decidable p], |if p then n else 0| ≤ bound :=
    fun n hn p _ => abs_ite_le (within n hn) p
  have cross := abs_saturatingProduct_le
    (within weights.perCrossReference (by simp [Weights.points])) input.usage.crossFile
  have unused := other weights.unused (by simp [Weights.points]) (input.usage.resolved = 0)
  have hidden := other weights.privateUnused (by simp [Weights.points])
    (input.usage.resolved = 0 ∧ input.isPrivate)
  have exported := other weights.exported (by simp [Weights.points]) input.isExported
  have test := other weights.testOnly (by simp [Weights.points]) input.testOnly
  have decorated := other weights.decorated (by simp [Weights.points]) input.isDecorated
  have conditional := other weights.conditionalImport (by simp [Weights.points])
    input.isConditionalImport
  have dynamic := other weights.dynamic (by simp [Weights.points]) (0 < input.usage.dynamic)
  have sums := abs_le_of_mem_scanl h
  simp only [ScoreInput.amounts, ScoreInput.selfPoints, ScoreInput.crossPoints,
    ScoreInput.testPoints, ScoreInput.dynamicPoints, List.map_cons, List.map_nil, List.sum_cons,
    List.sum_nil, abs_neg] at sums
  have whole : (input.usage.resolved + 8) * bound =
      bound * input.usage.selfFile + bound * input.usage.crossFile + 8 * bound := by
    rw [SymbolUsage.resolved]
    push_cast
    ring
  omega

end

/-! ### Large counts -/

/-- As many uses as are told apart, within the file and from others. -/
def mostUses : SymbolUsage where
  selfFile  := 2147483647
  crossFile := 2147483647

theorem saturatingProduct_most {weight : Int} (positive : 0 < weight) :
    saturatingProduct weight greatestPoints = greatestPoints := by
  have product : 1 * greatestPoints ≤ weight * greatestPoints :=
    Int.mul_le_mul_of_nonneg_right positive (by decide)
  rw [Int.one_mul] at product
  rw [saturatingProduct, Int.min_eq_left product]
  rfl

/-- **With weights that count every use, some counts are too large**: a symbol that is used so often
within its file and from others that both products stop at the bound has no score. -/
theorem score_mostUses {weights : Weights} {kind : Option SymbolKind}
    (self : 0 < weights.perSelfFile kind) (cross : 0 < weights.perCrossReference)
    (base : FitsPoints (weights.base kind)) (room : weights.base kind < greatestPoints - 1) :
    score { kind, usage := mostUses } weights = none := by
  have counted : mostUses.resolved ≤ greatestCount := by decide
  have used : mostUses.resolved ≠ 0 := by decide
  have sum : weights.base kind - greatestPoints - greatestPoints ∈
      ScoreInput.runningTotals { kind, usage := mostUses } weights := by
    have selfPoints : ScoreInput.selfPoints { kind, usage := mostUses } weights = greatestPoints :=
      saturatingProduct_most self
    have crossPoints :
        ScoreInput.crossPoints { kind, usage := mostUses } weights = greatestPoints :=
      saturatingProduct_most cross
    simp [ScoreInput.runningTotals, ScoreInput.amounts, selfPoints, crossPoints, used,
      Int.sub_eq_add_neg]
  have outside : ¬ FitsPoints (weights.base kind - greatestPoints - greatestPoints) := by
    rintro ⟨least, -⟩
    rw [leastPoints, greatestPoints] at *
    omega
  rw [← Option.not_isSome_iff_eq_none]
  exact fun completes => outside ((ScoreInput.isSome_score counted base).1 completes _ sum)

/-! ### Scores -/

/-- The configuration with other weights. -/
def Config.withWeights (config : Config) (weights : Weights) : Config :=
  { config with analysis := { config.analysis with weights } }

theorem clampConfidence_le_hundred (total : Int) : clampConfidence total ≤ 100 := by
  rw [clampConfidence]
  omega

/-- **When there is a score.** For any weights in 32 bits:

* a configuration is not refused for carrying them;
* a symbol has a score, from 0 to 100, exactly if what its kind starts from and every sum on the way
  fits in 32 bits;
* so it has one if weights and counts are small: a bound on the weights, taken once for every use
  and eight times more, is in the range;
* but if every use counts and the start is not at the top of the range, then some counts are too
  large for a score. -/
theorem score_completes_iff {weights : Weights} (typed : ∀ n ∈ weights.points, FitsPoints n) :
    (∀ config : Config, config.invalid = none → (config.withWeights weights).invalid = none) ∧
    (∀ input : ScoreInput, input.usage.resolved ≤ greatestCount →
      ((∃ s, score input weights = some s ∧ s.confidence ≤ 100) ↔
        ∀ sum ∈ input.runningTotals weights, FitsPoints sum)) ∧
    (∀ (input : ScoreInput) (bound : Int), input.usage.resolved ≤ greatestCount →
      weights.Within bound → (input.usage.resolved + 8) * bound ≤ greatestPoints →
        ∃ s, score input weights = some s ∧ s.confidence ≤ 100) ∧
    ∀ kind, 0 < weights.perSelfFile kind → 0 < weights.perCrossReference →
      weights.base kind < greatestPoints - 1 → ∃ usage : SymbolUsage,
        usage.resolved ≤ greatestCount ∧ score { kind, usage } weights = none := by
  have base : ∀ kind, FitsPoints (weights.base kind) := fun kind => typed _ (weights.base_mem kind)
  have completes : ∀ input : ScoreInput, input.usage.resolved ≤ greatestCount →
      ((∃ s, score input weights = some s ∧ s.confidence ≤ 100) ↔
        ∀ sum ∈ input.runningTotals weights, FitsPoints sum) := by
    intro input counted
    rw [← ScoreInput.isSome_score counted (base input.kind), Option.isSome_iff_exists]
    refine exists_congr fun s => and_iff_left_of_imp fun h => ?_
    rw [confidence_of_score h]
    exact clampConfidence_le_hundred _
  refine ⟨fun _ valid => valid, completes, fun input bound counted within small => ?_,
    fun kind self cross room => ⟨mostUses, by decide, score_mostUses self cross (base kind) room⟩⟩
  refine (completes input counted).2 fun sum h => ?_
  obtain ⟨below, above⟩ := abs_le.1 ((abs_runningTotals_le within input h).trans small)
  refine ⟨?_, above⟩
  rw [leastPoints]
  rw [greatestPoints] at below
  omega

/-- A variable that nothing uses has no score if variables start from the greatest number, and even
with the weights that are set by default a function can be used too often to have one. -/
theorem score_completes_iff_greatest :
    let weights : Weights := { baseVariable := greatestPoints }
    (∀ n ∈ weights.points, FitsPoints n) ∧
      (({} : Config).withWeights weights).invalid = none ∧
      score { kind := some .assigned } weights = none ∧
      (∃ s, score { kind := some .function } weights = some s ∧ s.confidence ≤ 100) ∧
      ∃ usage : SymbolUsage, usage.resolved ≤ greatestCount ∧
        score { kind := some .function, usage } weights = none := by
  intro weights
  have typed : ∀ n ∈ weights.points, FitsPoints n := by
    unfold FitsPoints
    decide
  obtain ⟨accepted, completes, small, large⟩ := score_completes_iff typed
  refine ⟨typed, accepted {} rfl, ?_, ?_,
    large (some .function) (by decide) (by decide) (by decide)⟩
  · rw [← Option.not_isSome_iff_eq_none, Option.isSome_iff_exists]
    rintro ⟨s, h⟩
    have sums := (completes { kind := some .assigned } (by decide)).1
      ⟨s, h, (confidence_of_score h).le.trans (clampConfidence_le_hundred _)⟩
    exact absurd (sums (greatestPoints + 25) (by decide)).2 (by decide)
  · refine (completes { kind := some .function } (by decide)).2 ?_
    unfold FitsPoints
    decide

end CodeSurvey
