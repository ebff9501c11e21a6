import CodeSurvey.Config.Reader
import CodeSurvey.Config.Writer
import CodeSurvey.Proofs.Toml.Documents
import CodeSurvey.Proofs.Toml.Tables

/-!
# The text of a configuration

A configuration is read back from its text, field by field.

* `Config.Typed`: the numbers of a configuration are within the ranges of their fields.
* `write_eq`: a configuration has a text exactly if its integers fit in 64 bits with a sign.
* `read_sections`: its text is read as its table.
* `ofValue_table`: its table is read as the configuration.
* `ofText_sections`: so its text is read as the configuration, if that is a valid one.
-/

namespace CodeSurvey

open Toml (Value IsFlat IsPlainSection nest valueSlots pairLines)

/-! ### Integers -/

/-- The weights in order. -/
def Weights.points (weights : Weights) : List Int :=
  [weights.baseImport, weights.baseFunction, weights.baseVariable, weights.baseClass,
   weights.unused, weights.privateUnused, weights.perSelfReference, weights.perImportUse,
   weights.perCrossReference, weights.exported, weights.testOnly, weights.decorated,
   weights.conditionalImport, weights.dynamic, weights.dynamicCap]

namespace Config

/-- The sizes, times and numbers of a configuration. -/
def counts (config : Config) : List Nat :=
  [config.maxFileSize] ++ config.analysis.scanTimeout.toList ++ config.analysis.threads.toList ++
    [config.output.budget, config.output.moduleBudget, config.output.criticalPaths]

/-- The integers of a configuration. -/
def integers (config : Config) : List Int :=
  [(config.maxFileSize : Int), (config.analysis.confidenceThreshold : Int)] ++
    config.analysis.scanTimeout.toList.map Int.ofNat ++
    config.analysis.threads.toList.map Int.ofNat ++ config.analysis.weights.points ++
    [(config.output.budget : Int), (config.output.moduleBudget : Int),
     (config.output.criticalPaths : Int)]

/-- The numbers of a configuration are within the ranges of their fields. -/
structure Typed (config : Config) : Prop where
  threshold : config.analysis.confidenceThreshold ≤ 255
  counts    : ∀ n ∈ config.counts, n ≤ greatestCount
  weights   : ∀ n ∈ config.analysis.weights.points, leastPoints ≤ n ∧ n ≤ greatestPoints

/-- **A configuration has a text exactly if its integers fit in 64 bits with a sign.** -/
theorem write_eq (config : Config) :
    config.write = if ∀ n ∈ config.integers, n ≤ Toml.greatestInteger then
      some (Toml.writeSections config.sections) else none := by
  rw [write]
  refine if_congr ?_ rfl rfl
  rcases timeout : config.analysis.scanTimeout with _ | _ <;>
    rcases threads : config.analysis.threads with _ | _ <;>
    simp [sections, entries, AnalysisConfig.entries, Weights.entries, OutputConfig.entries,
      integers, Weights.points, isWritable, countValue, textsValue, timeout, threads,
      Toml.greatestInteger, and_assoc]

end Config

/-! ### Records -/

/-- Lists of texts read back. -/
theorem readTexts_textsValue (texts : List String) : readTexts (textsValue texts) = some texts := by
  rw [textsValue, readTexts]
  induction texts with
  | nil => rfl
  | cons text texts ih =>
      rw [List.map_cons, List.mapM_cons, readText, ih]
      rfl

/-- Counts read back as long as they are in range. -/
theorem readCount_countValue {n greatest : Nat} (le : n ≤ greatest) :
    readCount greatest (countValue n) = some n := by
  have within : (0 : Int) ≤ n ∧ (n : Int) ≤ greatest := by omega
  simp [readCount, countValue, readInteger, within]

/-- **Weights read back** if each of them fits. -/
theorem Weights.ofValue_entries {weights : Weights}
    (typed : ∀ n ∈ weights.points, leastPoints ≤ n ∧ n ≤ greatestPoints) :
    Weights.ofValue (.table weights.entries) = some weights := by
  have read : ∀ n ∈ weights.points, readInteger leastPoints greatestPoints (.integer n) = some n :=
    fun n there => if_pos (typed n there)
  simp only [Weights.points, List.forall_mem_cons] at read
  simp [Weights.ofValue, isRecord, readField, fieldValue, Value.find, Weights.entries,
    List.lookup_cons, read]

/-- The table of the analysis part. -/
def AnalysisConfig.table (analysis : AnalysisConfig) : Value :=
  .table (analysis.entries ++ [("weights", .table analysis.weights.entries)])

/-- The table of a configuration. -/
def Config.table (config : Config) : Value :=
  .table (config.entries ++
    [("analysis", config.analysis.table), ("output", .table config.output.entries)])

/-- **The section of the analysis reads back** with the weights inside it. -/
theorem AnalysisConfig.ofValue_table {analysis : AnalysisConfig}
    (threshold : analysis.confidenceThreshold ≤ 255)
    (timeout : ∀ n ∈ analysis.scanTimeout, n ≤ greatestCount)
    (threads : ∀ n ∈ analysis.threads, n ≤ greatestCount)
    (weights : ∀ n ∈ analysis.weights.points, leastPoints ≤ n ∧ n ≤ greatestPoints) :
    AnalysisConfig.ofValue analysis.table = some analysis := by
  have points := Weights.ofValue_entries weights
  obtain ⟨confidence, limit, workers, patterns, directories, adjustments⟩ := analysis
  dsimp only at threshold timeout threads points
  have optional : ∀ {n : Option Nat}, (∀ m ∈ n, m ≤ greatestCount) → ∀ m ∈ n,
      readCount greatestCount (countValue m) = some m := fun le m there =>
    readCount_countValue (le m there)
  -- a limit that is not set has no entry, and an entry that is not there reads as none
  cases limit <;> cases workers <;>
    simp [AnalysisConfig.ofValue, AnalysisConfig.table, AnalysisConfig.entries, isRecord, readField,
      fieldValue, Value.find, List.lookup_cons, readTexts_textsValue,
      readCount_countValue threshold, points, optional timeout, optional threads]

/-- **The section of the output reads back** if its counts are in range. -/
theorem OutputConfig.ofValue_entries {output : OutputConfig}
    (budget : output.budget ≤ greatestCount) (moduleBudget : output.moduleBudget ≤ greatestCount)
    (criticalPaths : output.criticalPaths ≤ greatestCount) :
    OutputConfig.ofValue (.table output.entries) = some output := by
  have unit : readBudgetUnit (.text output.budgetUnit.label) = some output.budgetUnit := by
    cases output.budgetUnit <;> decide
  simp [OutputConfig.ofValue, OutputConfig.entries, isRecord, readField, fieldValue, Value.find,
    List.lookup_cons, readCount_countValue budget, readCount_countValue moduleBudget,
    readCount_countValue criticalPaths, unit]

namespace Config

variable {config : Config}

/-- **The table of a configuration is read as the configuration.** -/
theorem ofValue_table (typed : config.Typed) : ofValue config.table = some config := by
  have fits : ∀ n ∈ config.counts, readCount greatestCount (countValue n) = some n := fun n there =>
    readCount_countValue (typed.counts n there)
  have analysis : AnalysisConfig.ofValue config.analysis.table = some config.analysis :=
    AnalysisConfig.ofValue_table typed.threshold
      (fun n there => typed.counts n (by simp [counts, Option.mem_def.1 there]))
      (fun n there => typed.counts n (by simp [counts, Option.mem_def.1 there])) typed.weights
  have output : OutputConfig.ofValue (.table config.output.entries) = some config.output :=
    OutputConfig.ofValue_entries (typed.counts _ (by simp [counts]))
      (typed.counts _ (by simp [counts])) (typed.counts _ (by simp [counts]))
  simp [ofValue, table, entries, isRecord, readField, fieldValue, Value.find, List.lookup_cons,
    readTexts_textsValue, readText, readBoolean, fits config.maxFileSize (by simp [counts]),
    analysis, output]

/-! ### Sections -/

/-- The sections of a configuration file by the paths of their headers. -/
def parts (config : Config) : List (List String × List (String × Value)) :=
  [([], config.entries),
   (["analysis"], config.analysis.entries),
   (["analysis", "weights"], config.analysis.weights.entries),
   (["output"], config.output.entries)]

/-- The sections are named by their places in the tables. -/
theorem sections_eq (config : Config) :
    config.sections = config.parts.map fun s => (String.intercalate "." s.1, s.2) := by
  simp [sections, parts, String.intercalate_cons_cons]

/-- A list of texts stands on one line. -/
theorem isFlat_textsValue (texts : List String) : IsFlat (textsValue texts) := by
  refine .array fun item there => ?_
  obtain ⟨text, -, rfl⟩ := List.mem_map.1 there
  exact trivial

/-- The integers of a configuration that has a text fit in it. -/
theorem fits_integers (typed : config.Typed)
    (small : ∀ n ∈ config.integers, n ≤ Toml.greatestInteger) :
    ∀ n ∈ config.integers, Toml.Fits n := by
  have least : ∀ n ∈ config.integers, leastPoints ≤ n := by
    intro n there
    have natural : ∀ m : Nat, leastPoints ≤ m := fun m => by
      rw [leastPoints]
      omega
    simp only [integers, List.mem_append, List.mem_cons, List.mem_map, List.not_mem_nil,
      or_false] at there
    rcases there with ((((rfl | rfl) | ⟨m, -, rfl⟩) | ⟨m, -, rfl⟩) | point) | rfl | rfl | rfl
    case inl.inr => exact (typed.weights n point).1
    all_goals exact natural _
  intro n there
  have above := least n there
  refine ⟨?_, small n there⟩
  rw [leastPoints] at above
  rw [Toml.greatestInteger]
  omega

/-- Names of fields that need no quotes, none of them given twice. -/
structure IsNaming (names : List String) : Prop where
  bare     : ∀ name ∈ names, Toml.IsBare name
  distinct : names.Nodup

/-- Some of several names are named apart as well. -/
theorem IsNaming.sublist {names fewer : List String} (h : IsNaming names)
    (sub : fewer.Sublist names) : IsNaming fewer :=
  ⟨fun name there => h.bare name (sub.subset there), sub.nodup h.distinct⟩

/-- No entry at the top has the name of a section. -/
theorem isNaming_entries (config : Config) :
    IsNaming (config.entries.map Prod.fst ++ ["analysis", "output"]) :=
  (⟨by decide, by decide⟩ : IsNaming fieldNames)

theorem isNaming_analysis (analysis : AnalysisConfig) :
    IsNaming (analysis.entries.map Prod.fst ++ ["weights"]) := by
  have names : IsNaming analysisNames := ⟨by decide, by decide⟩
  refine names.sublist ?_
  obtain ⟨_, timeout, threads, _, _, _⟩ := analysis
  cases timeout <;> cases threads <;> simp [AnalysisConfig.entries, analysisNames]

theorem isNaming_weights (weights : Weights) : IsNaming (weights.entries.map Prod.fst) :=
  (⟨by decide, by decide⟩ : IsNaming weightNames)

theorem isNaming_output (output : OutputConfig) : IsNaming (output.entries.map Prod.fst) :=
  (⟨by decide, by decide⟩ : IsNaming outputNames)

section

variable (fits : ∀ n ∈ config.integers, Toml.Fits n)
include fits

/-- A count that fits stands on one line. -/
theorem isFlat_count {n : Nat} (there : (n : Int) ∈ config.integers) : IsFlat (countValue n) :=
  .scalar (fits _ there)

theorem isFlat_entries : ∀ entry ∈ config.entries, IsFlat entry.2 := by
  simp only [entries, List.forall_mem_cons]
  exact ⟨.scalar trivial, isFlat_textsValue _, isFlat_textsValue _,
    isFlat_count fits (by simp [integers]), .scalar trivial, .scalar trivial, nofun⟩

theorem isFlat_analysis : ∀ entry ∈ config.analysis.entries, IsFlat entry.2 := by
  intro entry there
  simp only [AnalysisConfig.entries, List.mem_append, List.mem_cons, List.not_mem_nil, or_false,
    Option.mem_toList, Option.map_eq_some_iff] at there
  rcases there with ((rfl | ⟨n, set, rfl⟩) | ⟨n, set, rfl⟩) | rfl | rfl
  · exact isFlat_count fits (by simp [integers])
  · exact isFlat_count fits (by simp [integers, set])
  · exact isFlat_count fits (by simp [integers, set])
  · exact isFlat_textsValue _
  · exact isFlat_textsValue _

/-- The weights stand on one line each. -/
theorem isFlat_weights : ∀ entry ∈ config.analysis.weights.entries, IsFlat entry.2 := by
  have values : config.analysis.weights.entries.map Prod.snd =
      config.analysis.weights.points.map .integer := rfl
  intro entry there
  have value : entry.2 ∈ config.analysis.weights.points.map .integer :=
    values ▸ List.mem_map_of_mem there
  obtain ⟨n, point, eq⟩ := List.mem_map.1 value
  rw [← eq]
  exact .scalar (fits n (by simp [integers, point]))

theorem isFlat_output : ∀ entry ∈ config.output.entries, IsFlat entry.2 := by
  simp only [OutputConfig.entries, List.forall_mem_cons]
  exact ⟨isFlat_count fits (by simp [integers]), .scalar trivial,
    isFlat_count fits (by simp [integers]), isFlat_count fits (by simp [integers]), nofun⟩

/-- **The sections of a configuration that has a text can be written and read back.** -/
theorem isPlainSection_parts : ∀ s ∈ config.parts, IsPlainSection s.1 s.2 := by
  have bare : ∀ {names} {entries : List (String × Value)}, IsNaming names →
      (entries.map Prod.fst).Sublist names → ∀ entry ∈ entries, Toml.IsBare entry.1 :=
    fun naming sub entry there => naming.bare _ (sub.subset (List.mem_map_of_mem there))
  simp only [parts, List.forall_mem_cons]
  exact ⟨⟨by decide, by decide, bare (isNaming_entries config) (List.sublist_append_left _ _),
      isFlat_entries fits⟩,
    ⟨by decide, by decide, bare (isNaming_analysis _) (List.sublist_append_left _ _),
      isFlat_analysis fits⟩,
    ⟨by decide, by decide, bare (isNaming_weights _) (List.Sublist.refl _), isFlat_weights fits⟩,
    ⟨by decide, by decide, bare (isNaming_output _) (List.Sublist.refl _), isFlat_output fits⟩,
    nofun⟩

end

/-! ### Reading back -/

/-- The lines of a file, section by section, with an empty line between them. -/
theorem lines_parts (config : Config) :
    (Toml.linesOf config.parts).map Prod.fst ++ [.nothing] =
      pairLines config.entries ++ (.nothing :: .table [] "analysis" ::
        (pairLines config.analysis.entries ++ (.nothing :: .table ["analysis"] "weights" ::
          (pairLines config.analysis.weights.entries ++ (.nothing :: .table [] "output" ::
            (pairLines config.output.entries ++ [.nothing])))))) := by
  simp [Toml.linesOf, parts, Toml.sectionLines, Toml.headerLines, Toml.entryLine, pairLines,
    Function.comp_def]

/-- The plain entries and the analysis part, under construction. -/
def frontSlots (config : Config) : Toml.Slots :=
  nest [(valueSlots config.entries, "analysis"), (valueSlots config.analysis.entries, "weights")]
    (valueSlots config.analysis.weights.entries)

/-- The table of a configuration under construction. -/
def slots (config : Config) : Toml.Slots :=
  nest [(config.frontSlots, "output")] (valueSlots config.output.entries)

/-- A name that comes later is not taken yet. -/
theorem notMem_valueSlots {entries : List (String × Value)} {later : List String} {name : String}
    (distinct : (entries.map Prod.fst ++ later).Nodup) (there : name ∈ later) :
    name ∉ (valueSlots entries).map Prod.fst := by
  rw [Toml.keys_valueSlots]
  exact fun taken => (List.nodup_append.1 distinct).2.2 _ taken _ there rfl

/-- **The lines assemble to the slots of the configuration.** -/
theorem assemble_parts (config : Config) :
    Toml.assemble ((Toml.linesOf config.parts).map Prod.fst ++ [.nothing]) [] [] =
      some config.slots := by
  have names := (isNaming_entries config).distinct
  have inner := (isNaming_analysis config.analysis).distinct
  have empty : Toml.Fresh [] := nofun
  have noAnalysis := notMem_valueSlots names (by simp : "analysis" ∈ ["analysis", "output"])
  have noOutput : "output" ∉ config.frontSlots.map Prod.fst := by
    have := notMem_valueSlots names (by simp : "output" ∈ ["analysis", "output"])
    simpa [frontSlots, nest] using this
  have noWeights := notMem_valueSlots inner (by simp : "weights" ∈ ["weights"])
  have weights := (isNaming_weights config.analysis.weights).distinct
  have output := (isNaming_output config.output).distinct
  rw [lines_parts]
  refine (@Toml.assemble_pairs [] [] empty _ (List.Nodup.of_append_left names) _).trans ?_
  refine (@Toml.assemble_section [] _ empty _ noAnalysis _ (List.Nodup.of_append_left inner) _
    []).trans ?_
  refine (Toml.assemble_section (empty.append noAnalysis) noWeights weights _ ["analysis"]).trans ?_
  exact @Toml.assemble_section [] _ empty _ noOutput _ output _ ["analysis", "weights"]

/-- The slots make up its table. -/
theorem finish_slots (config : Config) :
    Value.table (Toml.finishEntries config.slots) = config.table := by
  simp [slots, frontSlots, table, AnalysisConfig.table, nest, Toml.finishEntries_append,
    Toml.finishEntries_valueSlots, Toml.finishEntries, Toml.Slot.finish]

/-- **The text of a configuration is read as its table.** -/
theorem read_sections (typed : config.Typed)
    (small : ∀ n ∈ config.integers, n ≤ Toml.greatestInteger) :
    Toml.read (Toml.writeSections config.sections) = some config.table := by
  rw [sections_eq, Toml.read_writeSections (isPlainSection_parts (fits_integers typed small)),
    assemble_parts, Option.map_some, finish_slots]

/-- **The text of a configuration is read as the configuration**, if no value of it is one that no
survey can run with. -/
theorem ofText_sections (typed : config.Typed)
    (small : ∀ n ∈ config.integers, n ≤ Toml.greatestInteger) :
    ofText (Toml.writeSections config.sections) =
      match config.invalid with
      | some failure => .error (.invalid failure)
      | none         => .ok config := by
  have read : (Toml.read (Toml.writeSections config.sections)).bind ofValue = some config := by
    rw [read_sections typed small, Option.bind_some, ofValue_table typed]
  cases fault : config.invalid with
  | none => simp [ofText, read, fault]
  | some failure => simp [ofText, read, fault]

end Config

end CodeSurvey
