import CodeSurvey.Document.Module
import CodeSurvey.Proofs.Document.Bounded
import CodeSurvey.Proofs.Document.Truncation

/-!
# The budget of a module's section

The head of a section and the lines of its empty lists stand whatever the budget is. What the
budget has beyond them is shared by the three lists, each of which takes from what is left.

* `length_moduleDocument`: a section is as long as its fixed part and its lists.
* `boundedDependencies_le`, `boundedExports_le` and `boundedFindings_le`: no list takes more than is
  left for it.
* `moduleDocument_within_budget`: so a section keeps to its budget, unless its fixed part does not,
  and then nothing else is there.
-/

namespace CodeSurvey

theorem sum_entryCost_one : ∀ entries : List String, (entries.map (entryCost 1)).sum = cost entries
  | []            => rfl
  | entry :: rest => by rw [List.map_cons, List.sum_cons, entryCost, cost, sum_entryCost_one rest]

section

variable (model : ProjectModel) (output : OutputConfig) (index : FileIndex)

theorem moduleRoom_eq :
    moduleRoom output index = output.moduleLimit - (moduleHead index ++ emptyLists).length := by
  rw [moduleRoom, String.length_append]

/-- **A section is as long as its fixed part and what its lists take up.** -/
theorem length_moduleDocument : (moduleDocument model output index).length =
    (moduleHead index ++ emptyLists).length + (boundedDependencies model output index).length +
      ((boundedExports model output index).map (entryCost 1)).sum +
      ((boundedFindings model output index).map (entryCost 1)).sum := by
  have dependencies : s!"@deps: [{boundedDependencies model output index}]".length =
      "@deps: []".length + (boundedDependencies model output index).length := by
    have brackets : "@deps: [".length + "]".length = "@deps: []".length := rfl
    change ("@deps: [" ++ boundedDependencies model output index ++ "]").length = _
    rw [String.length_append, String.length_append]
    omega
  rw [moduleDocument, emptyLists, String.length_append, String.length_append,
    length_unlines, length_unlines, sum_entryCost_one, sum_entryCost_one]
  simp only [cost_append, cost, dependencies]
  omega

/-! ### No list takes more than is left -/

theorem boundedDependencies_le :
    (boundedDependencies model output index).length ≤ moduleRoom output index := by
  have line := length_intercalate_le_sum ", "
    (bounded ((model.graph.dependencies index.path).map ModuleNode.moduleName)
      (moduleRoom output index / 3) 2)
  have third := sum_bounded_le ((model.graph.dependencies index.path).map ModuleNode.moduleName)
    (moduleRoom output index / 3) 2
  have separator : ", ".length = 2 := rfl
  rw [separator] at line
  rw [boundedDependencies]
  omega

theorem boundedExports_le : ((boundedExports model output index).map (entryCost 1)).sum ≤
    roomAfterDependencies model output index := by
  have half := sum_bounded_le (exportEntries index) (roomAfterDependencies model output index / 2) 1
  rw [boundedExports]
  omega

theorem boundedFindings_le : ((boundedFindings model output index).map (entryCost 1)).sum ≤
    roomAfterExports model output index :=
  sum_bounded_le _ _ 1

/-! ### Whole sections -/

/-- Without room for them all lists are empty. -/
theorem lists_of_no_room (full : moduleRoom output index = 0) :
    boundedDependencies model output index = "" ∧ boundedExports model output index = [] ∧
      boundedFindings model output index = [] := by
  have dependencies : boundedDependencies model output index = "" := by
    rw [boundedDependencies, full, Nat.zero_div, bounded_zero (by decide)]
    rfl
  have after : roomAfterDependencies model output index = 0 := by
    rw [roomAfterDependencies, full, Nat.zero_sub]
  have later : roomAfterExports model output index = 0 := by
    rw [roomAfterExports, after, Nat.zero_sub]
  refine ⟨dependencies, ?_, ?_⟩
  · rw [boundedExports, after, Nat.zero_div, bounded_zero (by decide)]
  · rw [boundedFindings, later, bounded_zero (by decide)]

/-- **A section keeps to its budget.**

* No list takes more than is left for it: each amount that is taken from the room is there.
* The section is no longer than the budget, or than its fixed part if that is longer.
* If the fixed part reaches the budget, all lists are empty and the section is that part. -/
theorem moduleDocument_within_budget :
    ((boundedDependencies model output index).length ≤ moduleRoom output index ∧
      ((boundedExports model output index).map (entryCost 1)).sum ≤
        roomAfterDependencies model output index) ∧
    (moduleDocument model output index).length ≤
      max output.moduleLimit (moduleHead index ++ emptyLists).length ∧
    (output.moduleLimit ≤ (moduleHead index ++ emptyLists).length →
      boundedDependencies model output index = "" ∧ boundedExports model output index = [] ∧
        boundedFindings model output index = [] ∧
        moduleDocument model output index = moduleHead index ++ emptyLists) := by
  have dependencies := boundedDependencies_le model output index
  have exports := boundedExports_le model output index
  have findings := boundedFindings_le model output index
  have room := moduleRoom_eq output index
  refine ⟨⟨dependencies, exports⟩, ?_, fun full => ?_⟩
  · rw [length_moduleDocument]
    rw [roomAfterExports, ← List.sum_eq_foldr] at findings
    rw [roomAfterDependencies] at exports findings
    omega
  · obtain ⟨noDependencies, noExports, noFindings⟩ :=
      lists_of_no_room model output index (by omega)
    refine ⟨noDependencies, noExports, noFindings, ?_⟩
    rw [moduleDocument, noDependencies, noExports, noFindings]
    rfl

end

/-- A module with one function, which nothing uses. -/
def runModule : FileIndex where
  file       := ⟨.ofNames ["a.py"], .ofNames ["a.py"], 20, .python, false⟩
  moduleName := "a"
  symbols    := [⟨⟨.ofNames ["a.py"], "run", .function⟩, "run", 1, .module, false, false, false,
    false, none⟩]
  imports    := []
  references := []
  exports    := none
  lineCount  := 2

/-- The project of that module, with what is found in it. -/
def runProject : ProjectModel :=
  { emptyModules [] with
    files    := [runModule]
    graph    := buildGraph [runModule]
    deadCode := ⟨[⟨.ofNames ["a.py"], "run", .function, 1, 95, .high, ["unused"], false⟩], [],
      ⟨1, 0, 0, 0, 0⟩⟩ }

/-- A budget of fifty characters is used up by the fixed part, though the module has something to
list. -/
theorem moduleDocument_within_budget_tight :
    let output : OutputConfig := { moduleBudget := 50, budgetUnit := .chars }
    output.moduleLimit ≤ (moduleHead runModule ++ emptyLists).length ∧
      exportEntries runModule = ["- run()"] ∧
      (runProject.deadCode.forFile runModule.path).length = 1 ∧
      moduleDocument runProject output runModule =
        "@module: a\n@path: a.py\n@deps: []\n@exports:\n@dead_code:\n" := by
  intro output
  have full : output.moduleLimit ≤ (moduleHead runModule ++ emptyLists).length := by decide
  refine ⟨full, rfl, rfl, ?_⟩
  rw [((moduleDocument_within_budget runProject output runModule).2.2 full).2.2.2]
  rfl

end CodeSurvey
