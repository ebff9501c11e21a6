import CodeSurvey.Source
import CodeSurvey.Text.LowerCase
import Mathlib.Order.Nat

/-!
# How long a path is

The path of a file in the language that is indexed ends in a name, a dot and an extension of two
letters at least, so it has at least four characters.

* `Path.four_le_slash` says so. Lower case may turn one letter into two characters, but never into
  those of the extension.
-/

namespace CodeSurvey

/-- Joined texts are no shorter than any of them. -/
theorem length_le_intercalate (separator : String) {x : String} : ∀ {items : List String},
    x ∈ items → x.length ≤ (String.intercalate separator items).length
  | [y], h => by
      rw [String.intercalate_singleton, List.mem_singleton.1 h]
  | y :: z :: rest, h => by
      rw [String.intercalate_cons_cons, String.length_append, String.length_append]
      rcases List.mem_cons.1 h with rfl | h
      · omega
      · have := length_le_intercalate separator h
        omega

/-- A text with a lower case of two characters or more has two itself, unless it is the dotted
capital. -/
theorem Text.two_le_of_lower {text : String} {first second : Char} {rest : List Char}
    (h : (Text.lower text).toList = first :: second :: rest) (plain : first ≠ 'i') :
    2 ≤ text.length := by
  rw [Text.lower, String.toList_ofList] at h
  rw [← String.length_toList]
  match eq : text.toList with
  | [] =>
      rw [eq] at h
      cases h
  | [c] =>
      rw [eq] at h
      simp only [Text.lowerAfter, List.append_nil] at h
      split at h
      · cases h
        exact absurd rfl plain
      · split at h <;> cases h
  | _ :: _ :: _ => simp

theorem Language.two_le_of_python {extension : String}
    (h : Language.ofExtension (some (Text.lower extension)) = .python) : 2 ≤ extension.length := by
  have spelled : Text.lower extension = "py" ∨ Text.lower extension = "pyi" ∨
      Text.lower extension = "pyw" := by
    rw [Language.ofExtension.eq_def] at h
    split at h
    · exact .inl (Option.some.inj ‹_›)
    · exact .inr (.inl (Option.some.inj ‹_›))
    · exact .inr (.inr (Option.some.inj ‹_›))
    all_goals cases h
  rcases spelled with eq | eq | eq
  all_goals exact Text.two_le_of_lower (congrArg String.toList eq) (by decide)

namespace Path

/-- A name with an extension has something before the dot. -/
theorem length_splitName {name extension : String} (h : (splitName name).2 = some extension) :
    extension.length + 2 ≤ name.length := by
  simp only [splitName] at h
  split at h
  · rename_i dot c stem eq
    cases h
    have length := congrArg List.length eq
    simp only [List.length_drop, List.length_reverse, List.length_cons] at length
    rw [String.length_ofList, List.length_reverse, ← String.length_toList]
    omega
  · cases h

/-- **The path of a file in the language that is indexed has four characters at least.** -/
theorem four_le_slash {path : Path}
    (h : Language.ofExtension (path.extension.map Text.lower) = .python) :
    4 ≤ path.slash.length := by
  cases eq : path.extension with
  | none => simp [eq, Language.ofExtension] at h
  | some extension =>
      rw [eq] at h
      have two := Language.two_le_of_python h
      obtain ⟨name, last, cut⟩ := Option.bind_eq_some_iff.1 eq
      have named := length_splitName cut
      obtain ⟨part, there, isName⟩ := Option.bind_eq_some_iff.1 last
      have : name.length ≤ path.slash.length :=
        length_le_intercalate "/" (List.mem_filterMap.2 ⟨part, List.mem_of_getLast? there, isName⟩)
      omega

end Path

end CodeSurvey
