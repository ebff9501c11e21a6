import CodeSurvey.Proofs.Document.PageLength
import CodeSurvey.Proofs.Graph.CriticalPaths
import CodeSurvey.Proofs.Graph.CycleCoverage
import CodeSurvey.Proofs.Graph.ImportGraph

/-!
# Leaving out modules

How many modules the project page leaves out, and when it gives up.

From the first module left out on, the page does not get longer while a module is listed, so the
counts that fit are all of those from some count on, and halving finds the first. Only when the
last module goes may the page get longer, by the one character that the marker gains at a power of
ten; the search does not look at that count before it has looked at leaving out all modules, and so
gives up too early there.

* `bisect_least`: halving finds the least number at which an upward closed test holds.
* `projectDocument_least`: a page without a diagnostic leaves out as few modules as will do.
* `projectDocument_exceeds_iff`: exactly when the page gives up.
-/

namespace CodeSurvey

open Relation (TransGen)

/-! ### The search -/

section

variable {test : Nat → Bool}

theorem holds_from {k : Nat} : ∀ {m : Nat}, k ≤ m → test k →
    (∀ i, k ≤ i → i < m → test i → test (i + 1)) → test m
  | m, le, holds, up => by
      rcases Nat.eq_or_lt_of_le le with rfl | lt
      · exact holds
      · obtain ⟨m, rfl⟩ := Nat.exists_eq_add_of_lt lt
        exact up _ (by omega) (by omega)
          (holds_from (by omega) holds fun i lo hi => up i lo (by omega))

/-- **Halving finds the least number at which the test holds.** -/
theorem bisect_least (test : Nat → Bool) (low high : Nat) (le : low ≤ high) (top : test high)
    (up : ∀ k, low ≤ k → k < high → test k → test (k + 1)) :
    low ≤ bisect test low high ∧ bisect test low high ≤ high ∧ test (bisect test low high) ∧
      ∀ k, low ≤ k → k < bisect test low high → test k = false := by
  fun_induction bisect test low high with
  | case1 low high lt middle holds ih =>
      obtain ⟨lower, upper, found, least⟩ :=
        ih (by omega) holds fun k lo hi => up k lo (by omega)
      exact ⟨lower, by omega, found, least⟩
  | case2 low high lt middle fails ih =>
      obtain ⟨lower, upper, found, least⟩ :=
        ih (by omega) top fun k lo hi => up k (by omega) hi
      refine ⟨by omega, upper, found, fun k lo hi => ?_⟩
      by_cases above : middle < k
      · exact least k above hi
      · by_contra holds
        refine fails (holds_from (Nat.le_of_not_lt above) (by simpa using holds) ?_)
        exact fun i lo' hi' => up i (by omega) (by omega)
  | case3 low high ge =>
      obtain rfl : low = high := by omega
      exact ⟨Nat.le_refl _, Nat.le_refl _, top, fun k lo hi => absurd lo (by omega)⟩

/-- There is nothing to go down to from the least number. -/
theorem stepDown_of_least {n : Nat} (least : ∀ k, 1 ≤ k → k < n → test k = false) :
    stepDown test n = n := by
  match n with
  | 0 | 1 => rfl
  | n + 2 => rw [stepDown, least (n + 1) (by omega) (by omega), if_neg (by simp)]

end

/-! ### The order of leaving out -/

/-- Modules by how many import them, then backwards by their paths. -/
def byImporters (a b : Nat × Path) : Ordering :=
  (compare a.1 b.1).then (b.2.order a.2)

/-- The modules of a project with how many import them. -/
def countedModules (model : ProjectModel) : List (Nat × Path) :=
  model.files.map fun f => (model.graph.inDegree f.path, f.path)

theorem dropOrder_eq (model : ProjectModel) :
    dropOrder model = (sortBy byImporters (countedModules model)).map Prod.snd := rfl

theorem dropOrder_perm (model : ProjectModel) :
    (dropOrder model).Perm (model.files.map FileIndex.path) := by
  have perm := (sortBy_perm byImporters (countedModules model)).map Prod.snd
  rwa [countedModules, List.map_map] at perm

theorem length_dropOrder (model : ProjectModel) :
    (dropOrder model).length = model.files.length := by
  rw [(dropOrder_perm model).length_eq, List.length_map]

instance : Std.TransCmp byImporters := by
  have first : Std.TransCmp fun a b : Nat × Path => compare a.1 b.1 :=
    inferInstanceAs (Std.TransCmp (compareOn Prod.fst))
  have second : Std.TransCmp fun a b : Nat × Path => b.2.order a.2 :=
    { eq_swap := Std.OrientedCmp.eq_swap
      isLE_trans := fun h₁ h₂ => Std.TransCmp.isLE_trans h₂ h₁ }
  exact inferInstanceAs (Std.TransCmp (compareLex _ _))

instance : Std.LawfulEqCmp byImporters where
  eq_of_compare {a b} same := by
    obtain ⟨count, path⟩ := Ordering.then_eq_eq.1 same
    exact Prod.ext (Nat.compare_eq_eq.1 count) (Std.LawfulEqCmp.eq_of_compare path).symm

/-- **The least imported modules are left out first.** -/
theorem pairwise_dropOrder (model : ProjectModel) :
    (dropOrder model).Pairwise fun p q => model.graph.inDegree p ≤ model.graph.inDegree q := by
  have sorted : (sortBy byImporters (countedModules model)).Pairwise fun a b =>
      (byImporters a b).isLE := pairwise_sortBy _
  rw [dropOrder_eq]
  refine List.pairwise_map.2 (sorted.imp_of_mem fun {a b} ha hb le => ?_)
  obtain ⟨file, -, rfl⟩ := List.mem_map.1 (mem_sortBy.1 ha)
  obtain ⟨file', -, rfl⟩ := List.mem_map.1 (mem_sortBy.1 hb)
  rcases Ordering.isLE_then_iff_or.1 le with lt | ⟨eq, -⟩
  · exact Nat.le_of_lt (Nat.compare_eq_lt.1 lt)
  · exact Nat.le_of_eq (Nat.compare_eq_eq.1 eq)

/-- Modules that nothing imports are left out backwards. -/
theorem dropOrder_of_apart {model : ProjectModel} (apart : model.graph.edges = [])
    (sorted : (model.files.map FileIndex.path).Pairwise fun p q => (p.order q).isLE) :
    dropOrder model = (model.files.map FileIndex.path).reverse := by
  have counted : countedModules model = (model.files.map FileIndex.path).map (Prod.mk 0) := by
    rw [countedModules, List.map_map]
    exact List.map_congr_left fun file _ => by
      rw [ReferenceGraph.inDegree_eq_zero apart]
      rfl
  have backwards : sortBy byImporters (countedModules model) =
      (model.files.map FileIndex.path).reverse.map (Prod.mk 0) := by
    refine sortBy_eq_of_perm ?_ (List.pairwise_map.2 (List.pairwise_reverse.2 sorted))
    rw [counted]
    exact ((List.reverse_perm _).map _).symm
  rw [dropOrder_eq, backwards, List.map_map]
  exact List.map_id _

/-! ### The page without the first modules -/

/-- The page without the first `count` modules in the order of leaving out. -/
def pageWithout (model : ProjectModel) (output : OutputConfig) (count : Nat) : String :=
  renderProject model (model.graph.criticalPaths output.criticalPaths)
    ((dropOrder model).take count)

section

variable {model : ProjectModel} (surveyed : model.Surveyed) (output : OutputConfig)

include surveyed

/-- The next module to leave out is one of the project that has not been left out. -/
theorem take_dropOrder_succ {count : Nat} (more : count < model.files.length) : ∃ path,
    (dropOrder model).take (count + 1) = (dropOrder model).take count ++ [path] ∧
      path ∈ model.files.map FileIndex.path ∧ path ∉ (dropOrder model).take count := by
  have perm := dropOrder_perm model
  have nodup : (dropOrder model).Nodup := perm.nodup_iff.2 surveyed.distinct
  rw [← length_dropOrder] at more
  refine ⟨(dropOrder model)[count], List.take_succ_eq_append_getElem _,
    perm.mem_iff.1 (List.getElem_mem more), fun there => ?_⟩
  obtain ⟨i, hi, eq⟩ := List.mem_take_iff_getElem.1 there
  have := nodup.getElem_inj_iff.1 eq
  omega

/-- Leaving out one more module changes the page by the list of modules and the marker. -/
theorem length_pageWithout_le {count : Nat} (more : count < model.files.length) :
    (pageWithout model output (count + 1)).length +
        architectureCost model ((dropOrder model).take count) + truncationCost count ≤
      (pageWithout model output count).length +
        architectureCost model ((dropOrder model).take (count + 1)) +
        truncationCost (count + 1) := by
  obtain ⟨path, take, listed, -⟩ := take_dropOrder_succ surveyed more
  have length : ((dropOrder model).take count).length = count := by
    rw [List.length_take, length_dropOrder]
    omega
  have step := length_drop_le surveyed ((dropOrder model).take count) listed
    (model.graph.criticalPaths output.criticalPaths)
  rw [← take, length] at step
  exact step

/-- While another module is listed, the line of the module goes. -/
theorem length_pageWithout_add_le {count : Nat} (more : count + 1 < model.files.length) :
    ∃ file ∈ model.files, (dropOrder model)[count]? = some file.path ∧
      (pageWithout model output (count + 1)).length + (3 + file.path.slash.length) +
          truncationCost count ≤
        (pageWithout model output count).length + truncationCost (count + 1) := by
  obtain ⟨path, take, listed, fresh⟩ := take_dropOrder_succ surveyed (Nat.lt_of_succ_lt more)
  obtain ⟨next, -, listed', fresh'⟩ := take_dropOrder_succ surveyed more
  have shorter := architectureCost_add_le surveyed listed fresh listed' (take ▸ fresh')
  have step := length_pageWithout_le surveyed output (Nat.lt_of_succ_lt more)
  obtain ⟨file, there, rfl⟩ := List.mem_map.1 listed
  rw [← take] at shorter
  refine ⟨file, there, ?_, by omega⟩
  rw [List.take_add_one] at take
  have next : (dropOrder model)[count]?.toList = [file.path] := List.append_cancel_left take
  cases found : (dropOrder model)[count]? with
  | none => rw [found] at next; cases next
  | some other => rw [found] at next; rw [(List.cons.inj next).1]

/-- **From the first module left out on, the page gets shorter while a module is listed.** -/
theorem length_pageWithout_succ_le {count : Nat} (some : 1 ≤ count)
    (more : count + 1 < model.files.length) :
    (pageWithout model output (count + 1)).length + 6 ≤
      (pageWithout model output count).length := by
  obtain ⟨file, there, -, step⟩ := length_pageWithout_add_le surveyed output more
  have long := four_le_of_file surveyed there
  have marker := truncationCost_succ_le some
  omega

/-- Leaving out a module whose path is long is worth the marker. -/
theorem length_pageWithout_one_lt {path : Path} (more : 1 < model.files.length)
    (first : (dropOrder model).head? = some path) (long : 28 < path.slash.length) :
    (pageWithout model output 1).length < (pageWithout model output 0).length := by
  obtain ⟨file, -, same, step⟩ := length_pageWithout_add_le surveyed output more
  rw [← List.head?_eq_getElem?, first, Option.some_inj] at same
  have marker : truncationCost 0 = 0 ∧ truncationCost 1 = 31 := by decide
  rw [← same, Nat.zero_add] at step
  omega

/-- From the first module left out on, every other one takes six characters or more with it. -/
theorem length_pageWithout_add_le_one : ∀ {more : Nat}, more + 1 < model.files.length →
    (pageWithout model output (more + 1)).length + 6 * more ≤ (pageWithout model output 1).length
  | 0, _         => by rw [Nat.mul_zero, Nat.add_zero, Nat.zero_add]
  | more + 1, lt => by
      have step := length_pageWithout_succ_le surveyed output (show 1 ≤ more + 1 by omega) lt
      have ih := length_pageWithout_add_le_one (Nat.lt_of_succ_lt lt)
      omega

/-- Leaving out nine modules or more is worth the marker. -/
theorem length_pageWithout_lt {count : Nat} (many : 9 ≤ count) (more : count < model.files.length) :
    (pageWithout model output count).length < (pageWithout model output 0).length := by
  obtain ⟨file, there, -, first⟩ :=
    length_pageWithout_add_le surveyed output (show 0 + 1 < model.files.length by omega)
  have long := four_le_of_file surveyed there
  have marker : truncationCost 0 = 0 ∧ truncationCost 1 = 31 := by decide
  obtain ⟨k, rfl⟩ : ∃ k, count = k + 1 := ⟨count - 1, by omega⟩
  have last := length_pageWithout_add_le_one surveyed output more
  rw [Nat.zero_add] at first
  omega

/-- **When the last module goes, the page gets longer by one character at most**, and only if the
number of modules is a power of ten and the path of that module has four characters. -/
theorem length_pageWithout_last {count : Nat} (some : 1 ≤ count)
    (last : count + 1 = model.files.length) :
    (pageWithout model output (count + 1)).length ≤ (pageWithout model output count).length + 1 ∧
      ((pageWithout model output (count + 1)).length =
          (pageWithout model output count).length + 1 →
        count + 1 = 10 ^ count.repr.length ∧
          ∀ path ∈ (dropOrder model).getLast?, path.slash.length = 4) := by
  have more : count < model.files.length := by omega
  obtain ⟨path, take, listed, fresh⟩ := take_dropOrder_succ surveyed more
  obtain ⟨file, there, rfl⟩ := List.mem_map.1 listed
  have whole : (dropOrder model).take (count + 1) = dropOrder model := by
    rw [last, ← length_dropOrder, List.take_length]
  have none : architectureCost model ((dropOrder model).take (count + 1)) = 7 :=
    architectureCost_of_all fun f h => by
      rw [whole]
      exact (dropOrder_perm model).mem_iff.2 (List.mem_map_of_mem h)
  have one := slash_le_architectureCost there fresh
  have long := four_le_of_file surveyed there
  have step := length_pageWithout_le surveyed output more
  have marker := truncationCost_succ_le some
  refine ⟨by omega, fun grows => ⟨eq_pow_of_truncationCost some (by omega), fun path isLast => ?_⟩⟩
  rw [← whole, take, List.getLast?_concat, Option.mem_some_iff] at isLast
  rw [← isLast]
  omega

/-- With three modules or more, leaving out all of them is no worse than leaving out one. -/
theorem length_pageWithout_all_le (more : 2 < model.files.length) :
    (pageWithout model output model.files.length).length ≤ (pageWithout model output 1).length := by
  obtain ⟨k, hk⟩ : ∃ k, model.files.length = k + 1 + 1 := ⟨model.files.length - 2, by omega⟩
  have last := (length_pageWithout_last surveyed output (Nat.le_add_left 1 k) hk.symm).1
  have others := length_pageWithout_add_le_one surveyed output
    (show k + 1 < model.files.length by omega)
  rw [hk]
  omega

end

/-! ### The page within its budget -/

/-- Whether the page without the first `count` modules is within its budget. -/
def fitsWithout (model : ProjectModel) (output : OutputConfig) (count : Nat) : Bool :=
  decide ((pageWithout model output count).length ≤ output.aggregateLimit)

/-- The diagnostic of a page that is too long without any module. -/
def exceededBudget (model : ProjectModel) (output : OutputConfig) : Diagnostic :=
  .ofFailure (.budget output.aggregateLimit
    (pageWithout model output model.files.length).length)

theorem projectDocument_eq (model : ProjectModel) (output : OutputConfig) :
    projectDocument model output =
      if fitsWithout model output 0 then ⟨pageWithout model output 0, [], []⟩
      else if fitsWithout model output model.files.length then
        let count := stepDown (fitsWithout model output)
          (bisect (fitsWithout model output) 1 model.files.length)
        ⟨pageWithout model output count, (dropOrder model).take count, []⟩
      else ⟨pageWithout model output model.files.length, dropOrder model,
        [exceededBudget model output]⟩ := by
  simp only [exceededBudget, ← length_dropOrder]
  rfl

section

variable {model : ProjectModel} (surveyed : model.Surveyed) (output : OutputConfig)

include surveyed

/-- From the first module left out on, what fits goes on to fit while a module is listed. -/
theorem fitsWithout_succ {count : Nat} (some : 1 ≤ count) (more : count + 1 < model.files.length)
    (fits : fitsWithout model output count) : fitsWithout model output (count + 1) := by
  have shorter := length_pageWithout_succ_le surveyed output some more
  simp only [fitsWithout, decide_eq_true_eq] at fits ⊢
  omega

/-- If leaving out all modules will do, halving finds the least count that will. -/
theorem search_least (none : fitsWithout model output 0 = false)
    (all : fitsWithout model output model.files.length) :
    let count := stepDown (fitsWithout model output)
      (bisect (fitsWithout model output) 1 model.files.length)
    count ≤ model.files.length ∧ fitsWithout model output count ∧
      ∀ fewer < count, fitsWithout model output fewer = false := by
  have pos : 1 ≤ model.files.length := by
    by_contra zero
    have empty : model.files.length = 0 := by omega
    rw [empty, none] at all
    exact Bool.false_ne_true all
  -- only the last step can make the page longer, and there it is known to fit
  have up : ∀ k, 1 ≤ k → k < model.files.length → fitsWithout model output k →
      fitsWithout model output (k + 1) := by
    intro k lo hi fits
    rcases Nat.eq_or_lt_of_le (show k + 1 ≤ model.files.length from hi) with last | more
    · rw [last]
      exact all
    · exact fitsWithout_succ surveyed output lo more fits
  obtain ⟨low, high, found, least⟩ := bisect_least (fitsWithout model output) 1 _ pos all up
  rw [stepDown_of_least least]
  refine ⟨high, found, fun fewer lt => ?_⟩
  rcases Nat.eq_zero_or_pos fewer with rfl | pos
  · exact none
  · exact least fewer pos lt

/-- **If a number of modules left out will do, neither none nor all of them, then all but the last
will.** -/
theorem fitsWithout_all_but_one {count : Nat} (some : 1 ≤ count) (lt : count < model.files.length)
    (fits : fitsWithout model output count) :
    fitsWithout model output (model.files.length - 1) :=
  holds_from (Nat.le_sub_one_of_lt lt) fits fun _ lo hi =>
    fitsWithout_succ surveyed output (Nat.le_trans some lo) (Nat.add_lt_of_lt_sub hi)

/-- The page without all modules is longer than that without all but one only if the number of
modules is a power of ten and the path of the last has four characters. -/
theorem power_of_grows (two : 2 ≤ model.files.length)
    (grows : (pageWithout model output model.files.length).length =
      (pageWithout model output (model.files.length - 1)).length + 1) :
    (∃ zeros, 1 ≤ zeros ∧ model.files.length = 10 ^ zeros) ∧
      ∀ path ∈ (dropOrder model).getLast?, path.slash.length = 4 := by
  obtain ⟨k, hk⟩ : ∃ k, model.files.length = k + 1 := ⟨model.files.length - 1, by omega⟩
  rw [hk, Nat.add_sub_cancel] at grows
  obtain ⟨power, path⟩ := (length_pageWithout_last surveyed output (by omega) hk.symm).2 grows
  exact ⟨⟨_, Nat.length_repr_pos, hk.trans power⟩, path⟩

end

/-- A page without a diagnostic leaves out the least number of modules that will do. -/
theorem projectDocument_of_none {model : ProjectModel} (surveyed : model.Surveyed)
    (output : OutputConfig) (none : (projectDocument model output).diagnostics = []) :
    ∃ count ≤ model.files.length, fitsWithout model output count ∧
      (∀ fewer < count, fitsWithout model output fewer = false) ∧
      projectDocument model output =
        ⟨pageWithout model output count, (dropOrder model).take count, []⟩ := by
  have eq := projectDocument_eq model output
  by_cases first : fitsWithout model output 0
  · rw [if_pos first] at eq
    exact ⟨0, Nat.zero_le _, first, nofun, eq⟩
  · rw [if_neg first] at eq
    by_cases all : fitsWithout model output model.files.length
    · rw [if_pos all] at eq
      obtain ⟨le, fits, least⟩ := search_least surveyed output (by simpa using first) all
      exact ⟨_, le, fits, least, eq⟩
    · rw [if_neg all] at eq
      rw [eq] at none
      cases none

/-- The page gives up if it is too long both with all modules and without any. -/
theorem projectDocument_exceeds (model : ProjectModel) (output : OutputConfig) :
    ((projectDocument model output).diagnostics ≠ [] ↔ fitsWithout model output 0 = false ∧
      fitsWithout model output model.files.length = false) ∧
    ((projectDocument model output).diagnostics ≠ [] → projectDocument model output =
      ⟨pageWithout model output model.files.length, dropOrder model,
        [exceededBudget model output]⟩) := by
  rw [projectDocument_eq]
  by_cases first : fitsWithout model output 0
  · simp [first]
  · by_cases all : fitsWithout model output model.files.length
    · simp [first, all]
    · simp [first, all]

/-- **A page without a diagnostic is within its budget, and leaves out as few modules as will do,
the least imported ones.** -/
theorem projectDocument_least {model : ProjectModel} (surveyed : model.Surveyed)
    (output : OutputConfig) (none : (projectDocument model output).diagnostics = []) :
    let document := projectDocument model output
    let count := document.dropped.length
    document.dropped = (dropOrder model).take count ∧
      document.text = pageWithout model output count ∧
      document.text.length ≤ output.aggregateLimit ∧
      (∀ fewer < count, output.aggregateLimit < (pageWithout model output fewer).length) ∧
      ∀ path ∈ document.dropped, ∀ file ∈ model.files, file.path ∉ document.dropped →
        model.graph.inDegree path ≤ model.graph.inDegree file.path := by
  obtain ⟨count, le, fits, least, eq⟩ := projectDocument_of_none surveyed output none
  have length : ((dropOrder model).take count).length = count := by
    rw [List.length_take, length_dropOrder]
    omega
  simp only [eq, length]
  refine ⟨trivial, trivial, by simpa [fitsWithout] using fits, fun fewer lt => ?_, ?_⟩
  · simpa [fitsWithout] using least fewer lt
  · intro path dropped file there kept
    have sorted := pairwise_dropOrder model
    rw [← List.take_append_drop count (dropOrder model), List.pairwise_append] at sorted
    refine sorted.2.2 path dropped file.path ?_
    have listed := (dropOrder_perm model).mem_iff.2 (List.mem_map_of_mem there)
    rw [← List.take_append_drop count (dropOrder model), List.mem_append] at listed
    exact listed.resolve_left kept

/-- A module that does nothing but import others, given by the name of its file and theirs. -/
def importingFile (name : String) (imported : List String) : FileIndex where
  file       := ⟨.ofNames [name], .ofNames [name], 0, .python, false⟩
  moduleName := (Path.ofNames [name]).moduleName
  symbols    := []
  imports    := imported.map fun other => ⟨other, none, none, 0, 1, false, false⟩
  references := []
  exports    := none
  lineCount  := 0

/-- A project of files that nothing has been found in. -/
def plainModel (files : List FileIndex) : ProjectModel :=
  { name         := "proj"
    root         := "."
    files
    graph        := buildGraph files
    conflicts    := []
    deadCode     := ⟨[], files.map FileIndex.path, summarize [] files.length⟩
    diagnostics  := []
    stats        :=
      { discoveredFiles := files.length, indexedFiles := files.length, cachedFiles := 0
        failedFiles := 0, skippedFiles := 0, testFiles := 0, totalSize := 0, totalLines := 0
        totalSymbols := 0, totalReferences := 0, languages := [("python", files.length)] }
    isIncomplete := false }

/-- A project of empty modules. -/
def emptyModules (names : List String) : ProjectModel :=
  plainModel (names.map fun name => importingFile name [])

theorem edges_emptyModules (names : List String) : (emptyModules names).graph.edges = [] := by
  refine importEdges_eq_nil fun file there => ?_
  obtain ⟨name, -, rfl⟩ := List.mem_map.1 there
  rfl

/-- A budget for just the page without its first modules. -/
def budgetWithout (model : ProjectModel) (count : Nat) : OutputConfig :=
  { budget := (pageWithout model {} count).length, budgetUnit := .chars }

theorem pageWithout_budgetWithout (model : ProjectModel) (count n : Nat) :
    pageWithout model (budgetWithout model count) n = pageWithout model {} n := by
  have same : (budgetWithout model count).criticalPaths = ({} : OutputConfig).criticalPaths := rfl
  rw [pageWithout, pageWithout, same]

theorem aggregateLimit_budgetWithout (model : ProjectModel) (count : Nat) :
    (budgetWithout model count).aggregateLimit =
      (pageWithout model (budgetWithout model count) count).length := by
  rw [pageWithout_budgetWithout]
  simp only [OutputConfig.aggregateLimit, budgetWithout, BudgetUnit.toChars]

/-- A program that imports one of two modules with long names. -/
def twoLongNames : ProjectModel :=
  plainModel [importingFile "main.py" ["storage_of_everything_that_was_found"],
    importingFile "reports_of_everything_that_was_found.py" [],
    importingFile "storage_of_everything_that_was_found.py" []]

/-- The modules with long names. -/
def reportsPath : Path := .ofNames ["reports_of_everything_that_was_found.py"]

/-- The module that the program imports. -/
def storagePath : Path := .ofNames ["storage_of_everything_that_was_found.py"]

theorem surveyed_twoLongNames : twoLongNames.Surveyed :=
  ⟨by decide, by decide⟩

theorem edges_twoLongNames : twoLongNames.graph.edges = [⟨0, 2, [1]⟩] := by
  have found : importedModules twoLongNames.files 0
      (importingFile "main.py" ["storage_of_everything_that_was_found"]) = [(2, 1)] := by decide
  have first : edgesFrom twoLongNames.files 0
      (importingFile "main.py" ["storage_of_everything_that_was_found"]) = [⟨0, 2, [1]⟩] := by
    rw [edgesFrom, found]
    simp [sortedSet_singleton]
  have others : ∀ i name, edgesFrom twoLongNames.files i (importingFile name []) = [] :=
    fun i name => edgesFrom_eq_nil rfl
  calc importEdges twoLongNames.files
      = edgesFrom twoLongNames.files 0
            (importingFile "main.py" ["storage_of_everything_that_was_found"]) ++
          (edgesFrom twoLongNames.files 1
            (importingFile "reports_of_everything_that_was_found.py" []) ++
          (edgesFrom twoLongNames.files 2
            (importingFile "storage_of_everything_that_was_found.py" []) ++ [])) := rfl
    _ = [⟨0, 2, [1]⟩] := by rw [first, others, others]; rfl

/-- Only the module that is imported counts. -/
theorem inDegree_twoLongNames : twoLongNames.graph.inDegree (.ofNames ["main.py"]) = 0 ∧
    twoLongNames.graph.inDegree reportsPath = 0 ∧
    twoLongNames.graph.inDegree storagePath = 1 := by
  have degree : ∀ (i : Nat) (file : FileIndex), twoLongNames.files[i]? = some file →
      twoLongNames.graph.inDegree file.path =
        [(⟨0, 2, [1]⟩ : ImportEdge)].countP fun edge => edge.target = i := by
    intro i file there
    rw [← edges_twoLongNames]
    exact inDegree_eq surveyed_twoLongNames.distinct there
  exact ⟨degree 0 _ rfl, degree 1 _ rfl, degree 2 _ rfl⟩

/-- The first module to leave out is the last one of those that nothing imports. -/
theorem dropOrder_twoLongNames :
    dropOrder twoLongNames = [reportsPath, .ofNames ["main.py"], storagePath] := by
  have sorted : sortBy byImporters (countedModules twoLongNames) =
      [(0, reportsPath), (0, .ofNames ["main.py"]), (1, storagePath)] := by
    obtain ⟨main, reports, storage⟩ := inDegree_twoLongNames
    have counted : countedModules twoLongNames =
        [(twoLongNames.graph.inDegree (.ofNames ["main.py"]), .ofNames ["main.py"]),
          (twoLongNames.graph.inDegree reportsPath, reportsPath),
          (twoLongNames.graph.inDegree storagePath, storagePath)] := rfl
    refine sortBy_eq_of_perm ?_ (by decide)
    rw [counted, main, reports, storage]
    exact .swap _ _ _
  rw [dropOrder_eq, sorted]
  rfl

/-- Room for just the page without its first module. -/
def roomForTwo : OutputConfig :=
  budgetWithout twoLongNames 1

theorem aggregateLimit_roomForTwo :
    roomForTwo.aggregateLimit = (pageWithout twoLongNames roomForTwo 1).length :=
  aggregateLimit_budgetWithout twoLongNames 1

/-- In this room the first module is left out: it is one that nothing imports, and the whole page is
too long. -/
theorem projectDocument_least_truncated : twoLongNames.Surveyed ∧
    (projectDocument twoLongNames roomForTwo).diagnostics = [] ∧
    (projectDocument twoLongNames roomForTwo).dropped = [reportsPath] ∧
    (projectDocument twoLongNames roomForTwo).text = pageWithout twoLongNames roomForTwo 1 ∧
    (projectDocument twoLongNames roomForTwo).text.length ≤ roomForTwo.aggregateLimit ∧
    roomForTwo.aggregateLimit < (pageWithout twoLongNames roomForTwo 0).length ∧
    twoLongNames.graph.inDegree reportsPath ≤ twoLongNames.graph.inDegree storagePath ∧
    twoLongNames.graph.inDegree storagePath = 1 := by
  have surveyed := surveyed_twoLongNames
  have limit := aggregateLimit_roomForTwo
  have first : (dropOrder twoLongNames).head? = some reportsPath := by
    rw [dropOrder_twoLongNames]
    rfl
  have whole : roomForTwo.aggregateLimit < (pageWithout twoLongNames roomForTwo 0).length := by
    rw [limit]
    exact length_pageWithout_one_lt surveyed roomForTwo (by decide) first (by decide)
  have none : (projectDocument twoLongNames roomForTwo).diagnostics = [] := by
    by_contra some
    have fails := of_decide_eq_false ((projectDocument_exceeds twoLongNames roomForTwo).1.1 some).2
    rw [limit] at fails
    exact fails (length_pageWithout_all_le surveyed roomForTwo (by decide))
  obtain ⟨dropped, text, within, fewer, kept⟩ := projectDocument_least surveyed roomForTwo none
  have one : (projectDocument twoLongNames roomForTwo).dropped.length = 1 := by
    rcases Nat.lt_trichotomy (projectDocument twoLongNames roomForTwo).dropped.length 1 with
      zero | one | more
    · rw [text, Nat.lt_one_iff.1 zero] at within
      exact absurd whole (Nat.not_lt_of_le within)
    · exact one
    · rw [limit] at fewer
      exact absurd (fewer 1 more) (Nat.lt_irrefl _)
  have gone : (projectDocument twoLongNames roomForTwo).dropped = [reportsPath] := by
    rw [dropped, one, dropOrder_twoLongNames]
    rfl
  have stays : storagePath ∉ (projectDocument twoLongNames roomForTwo).dropped := by
    rw [gone]
    decide
  have storage : storagePath ∈ twoLongNames.files.map FileIndex.path := by decide
  obtain ⟨file, there, path⟩ := List.mem_map.1 storage
  have fewest := kept reportsPath (gone ▸ List.mem_cons_self) file there (path ▸ stays)
  rw [path] at fewest
  rw [one] at text
  exact ⟨surveyed, none, gone, text, within, whole, fewest, inDegree_twoLongNames.2.2⟩

/-- **The page gives up if no number of modules left out will do, and also if leaving out all but
the last module would just have done and leaving out that one too makes the page longer.** The
second happens only in a project of ten, a hundred or so many modules whose last one has a path of
four characters. -/
theorem projectDocument_exceeds_iff {model : ProjectModel} (surveyed : model.Surveyed)
    (output : OutputConfig) :
    let limit := output.aggregateLimit
    let all := model.files.length
    ((projectDocument model output).diagnostics ≠ [] ↔
      (∀ count ≤ all, limit < (pageWithout model output count).length) ∨
        2 ≤ all ∧ (pageWithout model output (all - 1)).length = limit ∧
          (pageWithout model output all).length = limit + 1) ∧
    ((projectDocument model output).diagnostics ≠ [] →
      projectDocument model output =
        ⟨pageWithout model output all, dropOrder model, [exceededBudget model output]⟩) ∧
    (2 ≤ all → (pageWithout model output all).length =
        (pageWithout model output (all - 1)).length + 1 →
      (∃ zeros, 1 ≤ zeros ∧ all = 10 ^ zeros) ∧
        ∀ path ∈ (dropOrder model).getLast?, path.slash.length = 4) := by
  obtain ⟨exceeds, eq⟩ := projectDocument_exceeds model output
  refine ⟨?_, eq, power_of_grows surveyed output⟩
  simp only [exceeds, fitsWithout, decide_eq_false_iff_not, Nat.not_le]
  constructor
  · rintro ⟨first, last⟩
    by_cases none : ∀ count ≤ model.files.length,
        output.aggregateLimit < (pageWithout model output count).length
    · exact .inl none
    · right
      simp only [not_forall, Nat.not_lt] at none
      obtain ⟨count, le, fits⟩ := none
      -- it is not the whole page that fits, nor the page without all modules
      have some : 1 ≤ count := Nat.one_le_iff_ne_zero.2 fun zero => by
        rw [zero] at fits
        exact Nat.not_lt_of_le fits first
      have lt : count < model.files.length := Nat.lt_of_le_of_ne le fun all => by
        rw [all] at fits
        exact Nat.not_lt_of_le fits last
      have before := of_decide_eq_true
        (fitsWithout_all_but_one surveyed output some lt (decide_eq_true fits))
      have two : 1 ≤ model.files.length - 1 := by omega
      have grows := (length_pageWithout_last surveyed output two (by omega)).1
      rw [Nat.sub_add_cancel (by omega)] at grows
      omega
  · rintro (none | ⟨two, fits, grows⟩)
    · exact ⟨none 0 (Nat.zero_le _), none _ (Nat.le_refl _)⟩
    · -- with ten modules or more, the page without all but one is shorter than the whole one
      obtain ⟨⟨zeros, some, ten⟩, -⟩ := power_of_grows surveyed output two (by omega)
      have many : 10 ≤ model.files.length := by
        rw [ten]
        exact Nat.le_self_pow (by omega) 10
      have := length_pageWithout_lt surveyed output (show 9 ≤ model.files.length - 1 by omega)
        (by omega)
      omega

/-- Ten empty modules. -/
def tenModules : ProjectModel :=
  emptyModules ["a.py", "b.py", "c.py", "d.py", "e.py", "f.py", "g.py", "h.py", "i.py", "j.py"]

/-- Room for their page without nine of them. -/
def roomForOne : OutputConfig :=
  { budget := 277, budgetUnit := .chars }

theorem surveyed_tenModules : tenModules.Surveyed :=
  ⟨by decide, by decide⟩

/-- What the page without some of them takes up. -/
theorem length_pageWithout_tenModules (count : Nat) :
    (pageWithout tenModules roomForOne count).length =
      fixedCost tenModules + bodyCost (tenModules.files.filterMap fun file =>
        if ((tenModules.files.map FileIndex.path).reverse.take count).contains file.path then none
        else some s!"- {file.path.slash}") + 21 +
      truncationCost ((tenModules.files.map FileIndex.path).reverse.take count).length := by
  have apart : tenModules.graph.edges = [] := edges_emptyModules _
  have formed : tenModules.graph.WellFormed :=
    ReferenceGraph.wellFormed_buildGraph surveyed_tenModules.distinct
  have noCycles : tenModules.graph.cycles = [] := by
    have none : findCycles 10 (successorsOf tenModules.graph.edges) = [] := by
      refine (findCycles_eq_nil_iff formed.inside).2 fun n round => ?_
      obtain ⟨m, ⟨edge, listed, -⟩, -⟩ := TransGen.head'_iff.1 round
      rw [apart] at listed
      cases listed
    exact congrArg (List.map _) none
  rw [pageWithout, formed.criticalPaths_eq_nil apart,
    length_renderProject_of_apart _ _ apart noCycles, dropOrder_of_apart apart (by decide)]

/-- In room for their page without nine of them, ten empty modules are too many: the page without
all of them is longer by one character. -/
theorem projectDocument_exceeds_iff_ten : tenModules.Surveyed ∧
    (projectDocument tenModules roomForOne).diagnostics ≠ [] ∧
    roomForOne.aggregateLimit = 277 ∧
    (pageWithout tenModules roomForOne 9).length = 277 ∧
    (pageWithout tenModules roomForOne 10).length = 278 := by
  have nine : (pageWithout tenModules roomForOne 9).length = 277 := by
    rw [length_pageWithout_tenModules]
    decide +kernel
  have ten : (pageWithout tenModules roomForOne 10).length = 278 := by
    rw [length_pageWithout_tenModules]
    decide +kernel
  refine ⟨surveyed_tenModules, ?_, rfl, nine, ten⟩
  exact (projectDocument_exceeds_iff surveyed_tenModules roomForOne).1.2
    (.inr ⟨by decide, nine, ten⟩)

end CodeSurvey
