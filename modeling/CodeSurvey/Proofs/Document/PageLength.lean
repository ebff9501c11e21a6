import CodeSurvey.Document.Project
import CodeSurvey.Proofs.Graph.Dependencies
import CodeSurvey.Proofs.Path
import CodeSurvey.Proofs.Survey.Models
import Mathlib.Algebra.Group.Nat.Defs

/-!
# How long the page is

The length of the project page, section by section, and how it changes when one more module is
left out.

Every line that goes with a module is at least as long as the word that there are none, so no
section grows when lines go (`bodyCost_le`). Only the number in the marker can grow, by one digit.

* `length_renderProject`: the page is as long as its parts.
* `length_drop_le`: leaving out one more module lengthens the page by no more than the marker.
-/

namespace CodeSurvey

/-! ### Lines and sections -/

/-- The characters of lines, with their ends. -/
def cost : List String → Nat
  | []           => 0
  | line :: rest => line.length + 1 + cost rest

@[simp] theorem cost_append : ∀ a b : List String, cost (a ++ b) = cost a + cost b
  | [], _           => (Nat.zero_add _).symm
  | line :: rest, b => by
      rw [List.cons_append, cost, cost, cost_append rest b]
      omega

/-- Every line costs its characters and a line end. -/
theorem length_unlines (lines : List String) : (Text.unlines lines).length = cost lines := by
  rw [Text.unlines, String.length_join, List.map_map]
  induction lines with
  | nil => rfl
  | cons line rest ih =>
      rw [List.map_cons, List.sum_cons, ih, cost, Function.comp_apply, String.length_append]
      rfl

theorem length_le_cost {line : String} : ∀ {lines : List String}, line ∈ lines →
    line.length + 1 ≤ cost lines
  | first :: rest, h => by
      rw [cost]
      rcases List.mem_cons.1 h with rfl | h
      · omega
      · have := length_le_cost h
        omega

/-- The characters of the lines of a section, or of the word that there are none. -/
def bodyCost (lines : List String) : Nat :=
  if lines.isEmpty then 7 else cost lines

/-- A section costs its header, an empty line and its body. -/
theorem cost_sectionLines (header : String) (lines : List String) :
    cost (sectionLines header lines) = header.length + 2 + bodyCost lines := by
  have word : "- none".length = 6 := rfl
  rw [sectionLines, bodyCost]
  split <;> simp only [cost, String.length_empty, word] <;> omega

/-! ### Lines that go or get shorter -/

/-- A line stays and gets no longer, or it goes and was no shorter than the word for none. -/
def Shrinks : Option String → Option String → Prop
  | some line, some line' => line'.length ≤ line.length
  | some line, none       => 6 ≤ line.length
  | none, some _          => False
  | none, none            => True

section

variable {α : Type} {items : List α} {f f' : α → Option String}

/-- **A list of lines gets no longer when lines shrink or go.** -/
theorem cost_le (shrinks : ∀ x ∈ items, Shrinks (f x) (f' x)) :
    cost (items.filterMap f') ≤ cost (items.filterMap f) := by
  induction items with
  | nil => exact Nat.le_refl _
  | cons x rest ih =>
      have ih := ih fun y hy => shrinks y (List.mem_cons_of_mem _ hy)
      have first := shrinks x List.mem_cons_self
      rw [List.filterMap_cons, List.filterMap_cons]
      cases h : f x <;> cases h' : f' x <;> simp only [h, h', Shrinks, cost] at first ⊢ <;> omega

/-- A line that goes takes its characters with it. -/
theorem cost_add_le (shrinks : ∀ x ∈ items, Shrinks (f x) (f' x)) {x : α} {line : String}
    (there : x ∈ items) (before : f x = some line) (after : f' x = none) :
    cost (items.filterMap f') + (line.length + 1) ≤ cost (items.filterMap f) := by
  induction items with
  | nil => cases there
  | cons y rest ih =>
      have others := fun z hz => shrinks z (List.mem_cons_of_mem y hz)
      have first := shrinks y List.mem_cons_self
      rw [List.filterMap_cons, List.filterMap_cons]
      rcases List.mem_cons.1 there with rfl | there
      · have := cost_le others
        simp only [before, after, cost]
        omega
      · have ih := ih others there
        cases h : f y <;> cases h' : f' y <;> simp only [h, h', Shrinks, cost] at first ⊢ <;> omega

/-- **A section gets no longer when lines go or get shorter.** -/
theorem bodyCost_le (shrinks : ∀ x ∈ items, Shrinks (f x) (f' x)) :
    bodyCost (items.filterMap f') ≤ bodyCost (items.filterMap f) := by
  rw [bodyCost, bodyCost]
  by_cases none' : items.filterMap f' = []
  · rw [if_pos (by simp [none'])]
    split
    · exact Nat.le_refl _
    · rename_i some
      -- one of the lines has gone, and was long enough
      have ne : items.filterMap f ≠ [] := fun e => some (by rw [e]; rfl)
      obtain ⟨line, there⟩ := List.exists_mem_of_ne_nil _ ne
      obtain ⟨x, hx, eq⟩ := List.mem_filterMap.1 there
      have gone : f' x = none := by
        rw [List.filterMap_eq_nil_iff] at none'
        exact none' x hx
      have long := shrinks x hx
      simp only [eq, gone, Shrinks] at long
      have := length_le_cost there
      omega
  · have some : items.filterMap f ≠ [] := by
      obtain ⟨line, there⟩ := List.exists_mem_of_ne_nil _ none'
      obtain ⟨x, hx, eq⟩ := List.mem_filterMap.1 there
      intro e
      have here := shrinks x hx
      rw [List.filterMap_eq_nil_iff.1 e x hx, eq] at here
      exact here
    rw [if_neg (by simpa using none'), if_neg (by simpa using some)]
    exact cost_le shrinks

end

/-! ### The parts of the page -/

section

variable (model : ProjectModel) (chains : List (List Path)) (dropped : List Path)

/-- What the page lists for a file. -/
def listedAs (file : FileIndex) : ListedModule :=
  { path         := file.path
    dependencies := ((model.graph.dependencies file.path).map ModuleNode.file).filter
      fun path => !dropped.contains path }

/-- The line of a file among the modules, unless it is left out. -/
def architectureOf (file : FileIndex) : Option String :=
  if dropped.contains file.path then none else some (listedAs model dropped file).architectureLine

/-- The line of a file among the imports, unless it is left out or there is none. -/
def dependencyOf (file : FileIndex) : Option String :=
  if dropped.contains file.path then none else (listedAs model dropped file).dependencyLine

/-- The line of a row of paths, unless it names a module left out. -/
def rowOf (line : List Path → String) (row : List Path) : Option String :=
  if row.all fun path => !dropped.contains path then some (line row) else none

/-- The module list has a line for each module that is kept. -/
theorem architecture_eq : (listedModules model dropped).map ListedModule.architectureLine =
    model.files.filterMap (architectureOf model dropped) := by
  have eq : architectureOf model dropped = fun f =>
      if !dropped.contains f.path then some (listedAs model dropped f).architectureLine
      else none := by
    funext f
    rw [architectureOf]
    cases dropped.contains f.path <;> rfl
  rw [eq, ← List.filterMap_filter, listedModules, List.map_map, ← List.filterMap_eq_map]
  rfl

/-- So has the graph, for those that import others. -/
theorem dependencyGraph_eq :
    (listedModules model dropped).filterMap ListedModule.dependencyLine =
      model.files.filterMap (dependencyOf model dropped) := by
  have eq : dependencyOf model dropped = fun f =>
      if !dropped.contains f.path then (listedAs model dropped f).dependencyLine else none := by
    funext f
    rw [dependencyOf]
    cases dropped.contains f.path <;> rfl
  rw [eq, ← List.filterMap_filter, listedModules, List.filterMap_map]
  rfl

/-- A chain or a cycle has a line as long as none of its modules is left out. -/
theorem rows_eq (line : List Path → String) (rows : List (List Path)) :
    (keptRows dropped rows).map line = rows.filterMap (rowOf dropped line) := by
  rw [keptRows, ← List.filterMap_eq_map, List.filterMap_filter]
  rfl

/-- The characters of the marker for so many modules. -/
def truncationCost (count : Nat) : Nat :=
  if count = 0 then 0 else 30 + count.repr.length

/-- The characters of the page that no module takes part in. -/
def fixedCost : Nat :=
  cost (headLines model) + cost (sectionLines "@conflicts:" (model.conflicts.map conflictLine)) +
    cost ["", deadCodeLine model.deadCode.summary] + ("@architecture:".length + 2) +
    ("@dependency_graph:".length + 2) + ("@cycles:".length + 2) + ("@critical_paths:".length + 2)

/-- **The page is as long as its parts.** -/
theorem length_renderProject : (renderProject model chains dropped).length =
    fixedCost model + bodyCost (model.files.filterMap (architectureOf model dropped)) +
      bodyCost (model.files.filterMap (dependencyOf model dropped)) +
      bodyCost (model.graph.cycles.filterMap (rowOf dropped cycleLine)) +
      bodyCost (chains.filterMap (rowOf dropped arrowLine)) + truncationCost dropped.length := by
  have marker : cost (if dropped.isEmpty then []
      else ["", s!"@truncated: {dropped.length} modules omitted"]) =
        truncationCost dropped.length := by
    rw [truncationCost]
    cases dropped with
    | nil => rfl
    | cons p rest =>
        have text : (s!"@truncated: {(p :: rest).length} modules omitted").length =
            "@truncated: ".length + (p :: rest).length.repr.length + " modules omitted".length := by
          rw [String.length_append, String.length_append]
          rfl
        have literals : "@truncated: ".length = 12 ∧ " modules omitted".length = 16 := ⟨rfl, rfl⟩
        rw [List.isEmpty_cons, if_neg (by simp), if_neg (by simp)]
        simp only [cost, String.length_empty, text, literals]
        omega
  simp only [renderProject, length_unlines, projectLines, cost_append, cost_sectionLines, marker,
    architecture_eq, dependencyGraph_eq, rows_eq, fixedCost]
  omega

/-- Where no module imports another, only the list of modules and the marker depend on what is left
out. -/
theorem length_renderProject_of_apart (apart : model.graph.edges = [])
    (noCycles : model.graph.cycles = []) : (renderProject model [] dropped).length =
      fixedCost model + bodyCost (model.files.filterMap fun file =>
        if dropped.contains file.path then none else some s!"- {file.path.slash}") + 21 +
      truncationCost dropped.length := by
  have nothing : ∀ file : FileIndex, (listedAs model dropped file).dependencies = [] := by
    intro file
    rw [listedAs, ReferenceGraph.dependencies_eq_nil apart]
    rfl
  have lines : architectureOf model dropped = fun file =>
      if dropped.contains file.path then none else some s!"- {file.path.slash}" := by
    funext file
    rw [architectureOf, ListedModule.architectureLine, nothing]
    rfl
  have noLines : model.files.filterMap (dependencyOf model dropped) = [] := by
    refine List.filterMap_eq_nil_iff.2 fun file _ => ?_
    rw [dependencyOf, ListedModule.dependencyLine, nothing]
    exact ite_self none
  rw [length_renderProject, lines, noLines, noCycles, List.filterMap_nil, List.filterMap_nil]
  have none : bodyCost [] = 7 := rfl
  omega

end

/-! ### One module more -/

/-- Fewer items make a shorter list. -/
theorem length_intercalate_le (separator : String) : ∀ {a b : List String}, a.Sublist b →
    (String.intercalate separator a).length ≤ (String.intercalate separator b).length
  | _, _, .slnil => Nat.le_refl _
  | a, x :: b, .cons _ h => by
      have ih := length_intercalate_le separator h
      by_cases none : b = []
      · subst none
        rw [List.sublist_nil.1 h]
        exact Nat.zero_le _
      · rw [String.intercalate_cons_of_ne_nil none, String.length_append, String.length_append]
        omega
  | x :: a, _ :: b, .cons_cons _ h => by
      have ih := length_intercalate_le separator h
      by_cases none : a = []
      · subst none
        rw [String.intercalate_singleton]
        exact length_le_intercalate separator List.mem_cons_self
      · have none' : b ≠ [] := by
          rintro rfl
          exact none (List.sublist_nil.1 h)
        rw [String.intercalate_cons_of_ne_nil none, String.intercalate_cons_of_ne_nil none']
        simp only [String.length_append]
        omega

namespace ListedModule

/-- The length of a module's line, with its imports or without. -/
theorem length_architectureLine (module : ListedModule) :
    module.architectureLine.length = 2 + module.path.slash.length +
      if module.dependencies.isEmpty then 0 else 10 + module.dependencyList.length := by
  have literals : "- ".length = 2 ∧ " [@deps: ".length = 9 ∧ "]".length = 1 := ⟨rfl, rfl, rfl⟩
  rw [architectureLine]
  split <;> simp only [toString, String.length_append, literals] <;> omega

/-- The length of its line in the graph. -/
theorem length_dependencyLine {module : ListedModule} {line : String}
    (h : module.dependencyLine = some line) : module.dependencies ≠ [] ∧
      line.length = module.path.slash.length + 4 + module.dependencyList.length := by
  have arrow : " -> ".length = 4 := rfl
  rw [dependencyLine] at h
  split at h
  · cases h
  · rename_i some
    cases h
    refine ⟨fun e => some (by simp [e]), ?_⟩
    simp only [toString, String.length_append, arrow]

/-- The same module, listed with fewer dependencies. -/
structure Within (a b : ListedModule) : Prop where
  path  : a.path = b.path
  fewer : a.dependencies.Sublist b.dependencies

variable {a b : ListedModule}

theorem Within.dependencyList_le (h : Within a b) :
    a.dependencyList.length ≤ b.dependencyList.length :=
  length_intercalate_le _ (h.fewer.map _)

theorem Within.isEmpty (h : Within a b) (none : b.dependencies.isEmpty) :
    a.dependencies.isEmpty := by
  have fewer := h.fewer
  rw [List.isEmpty_iff.1 none] at fewer
  rw [List.sublist_nil.1 fewer]
  rfl

/-- With fewer imports the line of a module is no longer. -/
theorem Within.architectureLine_le (h : Within a b) :
    a.architectureLine.length ≤ b.architectureLine.length := by
  have list := h.dependencyList_le
  rw [length_architectureLine, length_architectureLine, h.path]
  by_cases none : b.dependencies.isEmpty
  · rw [if_pos none, if_pos (h.isEmpty none)]
  · rw [if_neg none]
    split <;> omega

/-- Its line in the graph gets no longer either, or goes. -/
theorem Within.dependencyLine_shrinks (h : Within a b) (long : 4 ≤ b.path.slash.length) :
    Shrinks b.dependencyLine a.dependencyLine := by
  cases before : b.dependencyLine with
  | none =>
      have none : b.dependencies.isEmpty := by
        rw [dependencyLine] at before
        split at before
        · assumption
        · cases before
      rw [dependencyLine, if_pos (h.isEmpty none)]
      trivial
  | some line =>
      have length := (length_dependencyLine before).2
      cases after : a.dependencyLine with
      | none =>
          show 6 ≤ line.length
          omega
      | some line' =>
          have length' := (length_dependencyLine after).2
          have list := h.dependencyList_le
          rw [h.path] at length'
          show line'.length ≤ line.length
          omega

end ListedModule

/-- A chain is longer than the path of any of its modules. -/
theorem length_arrowLine_le {path : Path} {row : List Path} (h : path ∈ row) :
    2 + path.slash.length ≤ (arrowLine row).length := by
  have dash : "- ".length = 2 := rfl
  rw [arrowLine, String.length_append, dash]
  have := length_le_intercalate " -> " (List.mem_map_of_mem (f := Path.slash) h)
  omega

theorem length_cycleLine_le {path : Path} {row : List Path} (h : path ∈ row) :
    2 + path.slash.length ≤ (cycleLine row).length :=
  length_arrowLine_le (List.mem_append_left _ h)

section

variable (model : ProjectModel) (dropped : List Path) (path : Path)

/-- Leaving out one more module adds it to those that are left out. -/
theorem contains_append (other : Path) : (dropped ++ [path]).contains other =
    (dropped.contains other || decide (other = path)) := by
  simp

/-- A module then lists the same imports or fewer. -/
theorem listedAs_within (file : FileIndex) :
    (listedAs model (dropped ++ [path]) file).Within (listedAs model dropped file) where
  path  := rfl
  fewer := by
    refine List.monotone_filter_right _ fun other h => ?_
    rw [contains_append, Bool.not_or, Bool.and_eq_true] at h
    exact h.1

/-- The line of a module goes with the module, and loses dependencies with others. -/
theorem architectureOf_shrinks (file : FileIndex) (long : 4 ≤ file.path.slash.length) :
    Shrinks (architectureOf model dropped file)
      (architectureOf model (dropped ++ [path]) file) := by
  rw [architectureOf, architectureOf, contains_append]
  cases dropped.contains file.path with
  | true => trivial
  | false =>
      cases decide (file.path = path) with
      | true =>
          have length := (listedAs model dropped file).length_architectureLine
          rw [show (listedAs model dropped file).path = file.path from rfl] at length
          show 6 ≤ (listedAs model dropped file).architectureLine.length
          omega
      | false => exact (listedAs_within model dropped path file).architectureLine_le

/-- The line of a module among the imports goes with the module or with all that it imports. -/
theorem dependencyOf_shrinks (file : FileIndex) (long : 4 ≤ file.path.slash.length) :
    Shrinks (dependencyOf model dropped file)
      (dependencyOf model (dropped ++ [path]) file) := by
  have kept := (listedAs_within model dropped path file).dependencyLine_shrinks long
  rw [dependencyOf, dependencyOf, contains_append]
  cases dropped.contains file.path with
  | true => trivial
  | false =>
      cases decide (file.path = path) with
      | false => exact kept
      | true =>
          show Shrinks (listedAs model dropped file).dependencyLine none
          cases before : (listedAs model dropped file).dependencyLine with
          | none => trivial
          | some line =>
              have length := (ListedModule.length_dependencyLine before).2
              rw [show (listedAs model dropped file).path = file.path from rfl] at length
              show 6 ≤ line.length
              omega

/-- A row goes with every module on it. -/
theorem rowOf_shrinks {line : List Path → String} (row : List Path) (long : 4 ≤ path.slash.length)
    (named : path ∈ row → 2 + path.slash.length ≤ (line row).length) :
    Shrinks (rowOf dropped line row) (rowOf (dropped ++ [path]) line row) := by
  cases after : rowOf (dropped ++ [path]) line row with
  | none =>
      cases before : rowOf dropped line row with
      | none => trivial
      | some text =>
          -- the row has just gone, so the module is on it
          rw [rowOf] at after before
          split at before
          · rename_i kept
            cases before
            split at after
            · cases after
            · rename_i gone
              have there : path ∈ row := by
                by_contra absent
                refine gone (List.all_eq_true.2 fun other h => ?_)
                rw [contains_append, Bool.not_or, Bool.and_eq_true]
                refine ⟨List.all_eq_true.1 kept other h, ?_⟩
                simpa using fun e : other = path => absent (e ▸ h)
              have := named there
              show 6 ≤ (line row).length
              omega
          · cases before
  | some text =>
      rw [rowOf] at after
      split at after
      · rename_i kept
        cases after
        have kept' : row.all fun other => !dropped.contains other := by
          refine List.all_eq_true.2 fun other h => ?_
          have := List.all_eq_true.1 kept other h
          rw [contains_append, Bool.not_or, Bool.and_eq_true] at this
          exact this.1
        rw [rowOf, if_pos kept']
        exact Nat.le_refl _
      · cases after

/-- Rows that go make up for the line that says that none is left. -/
theorem rows_le {line : List Path → String} (rows : List (List Path))
    (long : 4 ≤ path.slash.length)
    (named : ∀ row, path ∈ row → 2 + path.slash.length ≤ (line row).length) :
    bodyCost (rows.filterMap (rowOf (dropped ++ [path]) line)) ≤
      bodyCost (rows.filterMap (rowOf dropped line)) :=
  bodyCost_le fun row _ => rowOf_shrinks dropped path row long (named row)

end

/-! ### The page without one module more -/

/-- The characters of the lines of the modules that the page lists. -/
def architectureCost (model : ProjectModel) (dropped : List Path) : Nat :=
  bodyCost (model.files.filterMap (architectureOf model dropped))

/-- A list of no modules is the word for none. -/
theorem architectureCost_of_all {model : ProjectModel} {dropped : List Path}
    (all : ∀ file ∈ model.files, file.path ∈ dropped) : architectureCost model dropped = 7 := by
  have none : model.files.filterMap (architectureOf model dropped) = [] := by
    rw [List.filterMap_eq_nil_iff]
    intro file h
    rw [architectureOf, if_pos (by simpa using all file h)]
  rw [architectureCost, none]
  rfl

/-- A module that is kept costs at least its line. -/
theorem slash_le_architectureCost {model : ProjectModel} {dropped : List Path} {file : FileIndex}
    (there : file ∈ model.files) (kept : file.path ∉ dropped) :
    3 + file.path.slash.length ≤ architectureCost model dropped := by
  have line : (listedAs model dropped file).architectureLine ∈
      model.files.filterMap (architectureOf model dropped) := by
    refine List.mem_filterMap.2 ⟨file, there, ?_⟩
    rw [architectureOf, if_neg (by simpa using kept)]
  have cost := length_le_cost line
  have length := (listedAs model dropped file).length_architectureLine
  rw [show (listedAs model dropped file).path = file.path from rfl] at length
  rw [architectureCost, bodyCost, if_neg fun none => ?_]
  · omega
  · rw [List.isEmpty_iff.1 none] at line
    cases line

/-- Counting up lengthens a number by one digit at most. -/
theorem length_repr_succ_le (n : Nat) : (n + 1).repr.length ≤ n.repr.length + 1 := by
  have pos : 0 < n.repr.length := Nat.length_repr_pos
  have bound := (Nat.length_repr_le_iff pos).1 (Nat.le_refl n.repr.length)
  refine (Nat.length_repr_le_iff (Nat.succ_pos _)).2 ?_
  rw [Nat.pow_succ]
  omega

/-- So the marker gains one character at most. -/
theorem truncationCost_succ_le {n : Nat} (marked : 1 ≤ n) :
    truncationCost (n + 1) ≤ truncationCost n + 1 := by
  have := length_repr_succ_le n
  rw [truncationCost, truncationCost, if_neg (Nat.succ_ne_zero n), if_neg (by omega)]
  omega

/-- The marker is wider than the one before it only at a power of ten. -/
theorem eq_pow_of_truncationCost {n : Nat} (marked : 1 ≤ n)
    (h : truncationCost n < truncationCost (n + 1)) : n + 1 = 10 ^ n.repr.length := by
  rw [truncationCost, truncationCost, if_neg (Nat.succ_ne_zero n), if_neg (by omega)] at h
  have pos : 0 < n.repr.length := Nat.length_repr_pos
  have bound := (Nat.length_repr_le_iff pos).1 (Nat.le_refl n.repr.length)
  have exceeds := mt (Nat.length_repr_le_iff pos).2 (show ¬ (n + 1).repr.length ≤ _ by omega)
  omega

section

variable {model : ProjectModel} (surveyed : model.Surveyed) {dropped : List Path} {path : Path}
  (listed : path ∈ model.files.map FileIndex.path)

include surveyed in
/-- The path of a module has a name and an extension. -/
theorem four_le_of_file {file : FileIndex} (h : file ∈ model.files) :
    4 ≤ file.path.slash.length :=
  Path.four_le_slash (surveyed.python file h)

include surveyed listed in
/-- While some module is still listed, leaving out one more shortens the list by its line. -/
theorem architectureCost_add_le (fresh : path ∉ dropped) {other : Path}
    (kept : other ∈ model.files.map FileIndex.path) (stays : other ∉ dropped ++ [path]) :
    architectureCost model (dropped ++ [path]) + (3 + path.slash.length) ≤
      architectureCost model dropped := by
  obtain ⟨file, there, rfl⟩ := List.mem_map.1 listed
  obtain ⟨file', there', rfl⟩ := List.mem_map.1 kept
  have long := four_le_of_file surveyed there
  have before : architectureOf model dropped file =
      some (listedAs model dropped file).architectureLine := by
    rw [architectureOf, if_neg (by simpa using fresh)]
  have after : architectureOf model (dropped ++ [file.path]) file = none := by
    rw [architectureOf, if_pos (by simp)]
  have lines := cost_add_le (fun f h =>
    architectureOf_shrinks model dropped file.path f (four_le_of_file surveyed h)) there before after
  have length := (listedAs model dropped file).length_architectureLine
  rw [show (listedAs model dropped file).path = file.path from rfl] at length
  have some : model.files.filterMap (architectureOf model (dropped ++ [file.path])) ≠ [] := by
    intro none
    have := List.filterMap_eq_nil_iff.1 none file' there'
    rw [architectureOf, if_neg (by simpa using stays)] at this
    cases this
  have some' : model.files.filterMap (architectureOf model dropped) ≠ [] := by
    intro none
    rw [none] at lines
    simp only [cost] at lines
    omega
  rw [architectureCost, architectureCost, bodyCost, bodyCost, if_neg (by simpa using some),
    if_neg (by simpa using some')]
  omega

variable (dropped) in
include surveyed listed in
/-- **Leaving out one more module changes the page by the list of modules and the marker, and
makes nothing else longer.** -/
theorem length_drop_le (chains : List (List Path)) :
    (renderProject model chains (dropped ++ [path])).length + architectureCost model dropped +
        truncationCost dropped.length ≤
      (renderProject model chains dropped).length + architectureCost model (dropped ++ [path]) +
        truncationCost (dropped.length + 1) := by
  obtain ⟨file, there, rfl⟩ := List.mem_map.1 listed
  have long := four_le_of_file surveyed there
  have imports := bodyCost_le fun f h =>
    dependencyOf_shrinks model dropped file.path f (four_le_of_file surveyed h)
  have cycles := rows_le dropped file.path model.graph.cycles long fun _ => length_cycleLine_le
  have paths := rows_le dropped file.path chains long fun _ => length_arrowLine_le
  rw [length_renderProject, length_renderProject, List.length_append, List.length_singleton,
    architectureCost, architectureCost]
  omega

end

end CodeSurvey
