import CodeSurvey.Proofs.Survey.Apart

/-!
# Diagnostics of a halt

A survey that is halted says so in one diagnostic: that its time is over, or that it was cancelled.
Nothing else that a survey reports looks like that, so the settled list has this diagnostic once.

* `Diagnostic.exists_mem_settle`: settling keeps what every diagnostic says.
* `not_isHalt_of_discovery`: discovery reports no halt.
* `Diagnostic.countP_settle_isHalt`: a list with one diagnostic of a halt has it once when settled.
-/

namespace CodeSurvey

open Std (TransCmp LawfulEqCmp)

/-! ### The order of diagnostics -/

theorem DiagnosticKind.rank_inj {a b : DiagnosticKind} (h : a.rank = b.rank) : a = b := by
  cases a <;> cases b <;> first | rfl | cases h

namespace Diagnostic

theorem order_eq : order = compareLex (fun a b => (Path.ofText a.file).order (Path.ofText b.file))
    (compareLex (fun a b => compare a.kind.rank b.kind.rank) fun a b => compare a.reason b.reason) :=
  rfl

instance : TransCmp order := by
  have paths : TransCmp (compare : Path → Path → Ordering) := inferInstanceAs (TransCmp Path.order)
  have : TransCmp fun a b : Diagnostic => (Path.ofText a.file).order (Path.ofText b.file) :=
    inferInstanceAs (TransCmp (compareOn fun d : Diagnostic => Path.ofText d.file))
  have : TransCmp fun a b : Diagnostic => compare a.kind.rank b.kind.rank :=
    inferInstanceAs (TransCmp (compareOn fun d : Diagnostic => d.kind.rank))
  have : TransCmp fun a b : Diagnostic => compare a.reason b.reason :=
    inferInstanceAs (TransCmp (compareOn Diagnostic.reason))
  rw [order_eq]
  infer_instance

/-- Diagnostics are the same in the order if they say the same of one file, in any spelling. -/
theorem same_of_order {a b : Diagnostic} (h : a.order b = .eq) :
    Path.ofText a.file = Path.ofText b.file ∧ a.kind = b.kind ∧ a.reason = b.reason := by
  obtain ⟨file, h⟩ := Ordering.then_eq_eq.1 h
  obtain ⟨kind, reason⟩ := Ordering.then_eq_eq.1 h
  exact ⟨LawfulEqCmp.eq_of_compare file, DiagnosticKind.rank_inj (LawfulEqCmp.eq_of_compare kind),
    LawfulEqCmp.eq_of_compare reason⟩

/-- **Settling keeps what every diagnostic says.** -/
theorem exists_mem_settle {diagnostics : List Diagnostic} {d : Diagnostic} (h : d ∈ diagnostics) :
    ∃ e ∈ settle diagnostics,
      Path.ofText d.file = Path.ofText e.file ∧ d.kind = e.kind ∧ d.reason = e.reason := by
  obtain ⟨e, there, same⟩ : ∃ e ∈ settle diagnostics, d.order e = .eq := exists_mem_sortedSet h
  exact ⟨e, there, same_of_order same⟩

/-! ### Halts -/

/-- Whether a diagnostic says that a survey ran out of time or was cancelled. A cancelled survey
reports the whole project as left out. -/
def isHalt (d : Diagnostic) : Bool :=
  d.kind = .scanTimeout || d.kind = .skippedFile && Path.ofText d.file = Path.ofText "."

theorem isHalt_haltDiagnostic (halt : Halt) (pending : Nat) :
    (haltDiagnostic halt pending).isHalt := by
  cases halt with
  | expired => rfl
  | stopped => simp [haltDiagnostic, skipped, isHalt]

theorem not_isHalt_of_kind {d : Diagnostic} (kind : DiagnosticKind) (eq : d.kind = kind)
    (other : kind ≠ .scanTimeout ∧ kind ≠ .skippedFile) : ¬d.isHalt := by
  simp [isHalt, eq, other]

/-- A diagnostic of a halt that is alone among others is there once when they are settled. -/
theorem countP_settle_isHalt {diagnostics : List Diagnostic} {halt : Diagnostic}
    (there : halt ∈ diagnostics) (isHalt : halt.isHalt)
    (only : ∀ d ∈ diagnostics, d.isHalt → d = halt) :
    (settle diagnostics).countP Diagnostic.isHalt = 1 := by
  have back : ∀ d ∈ settle diagnostics, d.isHalt → d = halt :=
    fun d h => only d (mem_of_mem_sortedSet h)
  have kept : halt ∈ settle diagnostics := by
    -- what settling keeps for it has the same file and kind, so it is one of a halt too
    obtain ⟨d, listed, file, kind, -⟩ := exists_mem_settle there
    have same : d.isHalt = halt.isHalt := by
      rw [Diagnostic.isHalt, Diagnostic.isHalt, file, kind]
    exact back d listed (same.trans isHalt) ▸ listed
  calc (settle diagnostics).countP Diagnostic.isHalt
      = (settle diagnostics).count halt := by
        refine List.countP_congr fun d h => ?_
        rw [beq_iff_eq]
        exact ⟨back d h, fun eq => eq ▸ isHalt⟩
    _ = 1 := List.count_eq_one_of_mem (nodup_sortedSet _) kept

end Diagnostic

/-! ### Discovery -/

namespace Discovery

variable {discovery : Discovery} {tree : FileTree} {d : Diagnostic}

theorem not_isHalt_walkFailure (names : List String) (error : OsError) :
    ¬(discovery.walkFailure names error).isHalt :=
  Diagnostic.not_isHalt_of_kind .ioError rfl (by decide)

/-- A file that is too large is not the whole project. -/
theorem not_isHalt_of_fileEntry {names : List String} {size : Nat} (nonempty : names ≠ [])
    (valid : ∀ name ∈ names, IsName name)
    (h : .skipped d ∈ (discovery.fileEntry names size).toList) : ¬d.isHalt := by
  simp only [Option.mem_toList, fileEntry] at h
  split at h
  · cases h
  · split at h
    · cases h
    · split at h
      · cases h
      · split at h
        · cases h
          -- names that stand for themselves never spell the directory itself
          have file := Path.ofText_intercalate nonempty valid
          obtain ⟨name, rest, rfl⟩ := List.exists_cons_of_ne_nil nonempty
          have here : Path.ofText "." = ⟨[.here]⟩ := rfl
          simp [Diagnostic.isHalt, Diagnostic.skipped, file, here, Path.ofNames]
        · cases h

theorem not_isHalt_of_meet {inside : List (Place × List String)} {place : Place}
    {names : List String} {name : String} {enter : Place → List Discovered}
    (valid : ∀ n ∈ names ++ [name], IsName n)
    (entered : ∀ target, .skipped d ∈ enter target → ¬d.isHalt)
    (h : .skipped d ∈ discovery.meet tree inside place names name enter) : ¬d.isHalt := by
  have file : ∀ size, .skipped d ∈ (discovery.fileEntry (names ++ [name]) size).toList →
      ¬d.isHalt := fun size => not_isHalt_of_fileEntry (by simp) valid
  rw [meet] at h
  split at h
  · cases h
  · exact entered _ h
  · exact file _ h
  · split at h
    · cases h
    · split at h
      · cases List.mem_singleton.1 h
        exact not_isHalt_walkFailure _ _
      · cases List.mem_singleton.1 h
        exact not_isHalt_walkFailure _ _
      · exact file _ h
      · cases h
      · split at h
        · cases List.mem_singleton.1 h
          exact Diagnostic.not_isHalt_of_kind .linkCycle rfl (by decide)
        · exact entered _ h

/-- **A walk reports no halt.** -/
theorem not_isHalt_of_walkFrom (sound : tree.Sound) : ∀ (fuel : Nat)
    (above : List (Place × List String)) (place : Place) (names : List String),
      (∀ name ∈ names, IsName name) →
      .skipped d ∈ discovery.walkFrom tree fuel above place names → ¬d.isHalt
  | 0, _, _, _, _, h => by cases h
  | fuel + 1, above, place, names, valid, h => by
      rw [walkFrom_succ] at h
      obtain ⟨name, listed, h⟩ := List.mem_flatMap.1 h
      have valid' : ∀ n ∈ names ++ [name], IsName n := by
        intro n hn
        rcases List.mem_append.1 hn with hn | hn
        · exact valid n hn
        · exact List.mem_singleton.1 hn ▸ isName_of_mem sound listed
      refine not_isHalt_of_meet valid' (fun target there => ?_) h
      split at there
      · cases there
      · exact not_isHalt_of_walkFrom sound fuel _ target _ valid' there

end Discovery

/-- **Discovery reports no halt.** -/
theorem not_isHalt_of_discovery {tree : FileTree} {config : Config} (sound : tree.Sound)
    {d : Diagnostic} (h : d ∈ (scanInput tree config).diagnostics) : ¬d.isHalt := by
  obtain ⟨met, there, eq⟩ := List.mem_filterMap.1 h
  cases met with
  | file => cases eq
  | skipped =>
      cases eq
      rw [Discovery.walk] at there
      split at there
      · cases List.mem_singleton.1 there
        exact Discovery.not_isHalt_walkFailure _ _
      · exact Discovery.not_isHalt_of_walkFrom sound _ _ _ _ (by simp) there
      · cases there

end CodeSurvey
