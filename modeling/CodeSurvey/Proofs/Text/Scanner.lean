import CodeSurvey.Text.Scanner
import Mathlib.Data.List.Basic

/-!
# What scanners take

Scanners at work on the front of a text, with the rest of it left open.

* `bind_apply`, `orElse_apply` and the lemmas after them run a scanner step by step.
* `takeWhile_append`: a class of characters is taken up to the first that is outside of it.
* `many_flatMap`, `manyUntil_flatMap`: a scanner that reads back one written item reads back a list
  of them.
-/

namespace CodeSurvey.Scanner

variable {α β : Type} {text rest : List Char}

/-! ### Steps -/

@[simp] theorem bind_apply (p : Scanner α) (f : α → Scanner β) (text : List Char) :
    (p >>= f) text = (p text).bind fun r => f r.1 r.2 := rfl

@[simp] theorem pure_apply (x : α) (text : List Char) :
    (pure x : Scanner α) text = some (x, text) := rfl

@[simp] theorem map_apply (f : α → β) (p : Scanner α) (text : List Char) :
    (f <$> p) text = (p text).map fun r => (f r.1, r.2) := by
  change (p text).bind (fun r => some (f r.1, r.2)) = _
  cases p text <;> rfl

@[simp] theorem orElse_apply (p q : Scanner α) (text : List Char) :
    (p <|> q) text = (p text).or (q text) := by
  change (p text <|> q text) = _
  cases p text <;> rfl

@[simp] theorem peek_apply (text : List Char) : peek text = some (text.head?, text) := rfl

@[simp] theorem require_apply (condition : Bool) (text : List Char) :
    require condition text = if condition then some ((), text) else none := by
  cases condition <;> rfl

/-- A character of the class is taken, and any other makes the scanner fail. -/
@[simp] theorem satisfy_cons (class? : Char → Bool) (c : Char) (rest : List Char) :
    satisfy class? (c :: rest) = if class? c then some (c, rest) else none := rfl

@[simp] theorem char_cons (wanted c : Char) (rest : List Char) :
    char wanted (c :: rest) = if c = wanted then some ((), rest) else none := by
  by_cases h : c = wanted <;> simp [char, h]

/-- A character that may be there is taken if it is. -/
@[simp] theorem char?_cons (wanted c : Char) (rest : List Char) :
    char? wanted (c :: rest) =
      if c = wanted then some (true, rest) else some (false, c :: rest) := by
  by_cases h : c = wanted <;> simp [char?, h]

/-- A literal is read back where it has been written. -/
theorem literal_append (wanted rest : List Char) :
    literal wanted (wanted ++ rest) = some ((), rest) := by
  simp [literal]

@[simp] theorem literal_nil (text : List Char) : literal [] text = some ((), text) := by
  simp [literal]

@[simp] theorem literal_cons_nil (c : Char) (wanted : List Char) :
    literal (c :: wanted) [] = none := rfl

/-- Two literals that differ in one character are told apart there. -/
@[simp] theorem literal_cons_cons (c d : Char) (wanted rest : List Char) :
    literal (c :: wanted) (d :: rest) = if c = d then literal wanted rest else none := by
  by_cases h : c = d <;> simp [literal, h]

/-! ### Classes of characters -/

/-- A text that does not go on with a character of a class. -/
def Stops (class? : Char → Bool) (text : List Char) : Prop :=
  ∀ c ∈ text.head?, class? c = false

theorem stops_nil (class? : Char → Bool) : Stops class? [] := nofun

/-- A character outside of the class stops it. -/
theorem stops_cons {class? : Char → Bool} {c : Char} (outside : class? c = false) :
    Stops class? (c :: rest) := by
  rintro _ ⟨⟩
  exact outside

/-- Where a class stops, nothing of it is taken. -/
theorem takeWhile_stops {class? : Char → Bool} (stops : Stops class? rest) :
    rest.takeWhile class? = [] ∧ rest.dropWhile class? = rest := by
  cases rest with
  | nil => exact ⟨rfl, rfl⟩
  | cons c rest => simp [stops c rfl]

/-- **A class of characters is taken up to the first that is outside of it.** -/
theorem takeWhile_append {class? : Char → Bool} (inside : ∀ c ∈ text, class? c)
    (stops : Stops class? rest) : takeWhile class? (text ++ rest) = some (text, rest) := by
  rw [takeWhile, List.takeWhile_append_of_pos inside, List.dropWhile_append_of_pos inside,
    (takeWhile_stops stops).1, (takeWhile_stops stops).2, List.append_nil]

/-- The same where there has to be at least one character. -/
theorem takeWhile1_append {class? : Char → Bool} (some : text ≠ []) (inside : ∀ c ∈ text, class? c)
    (stops : Stops class? rest) : takeWhile1 class? (text ++ rest) = .some (text, rest) := by
  simp [takeWhile1, takeWhile_append inside stops, some]

/-! ### Repetition -/

/-- A repetition ends where its item fails. -/
theorem many_of_none {p : Scanner α} (stops : p text = none) (fuel : Nat) :
    many p fuel text = some ([], text) := by
  cases fuel with
  | zero => rfl
  | succ fuel => rw [many, stops]

/-- Where its item succeeds it goes on behind it. -/
theorem many_of_some {p : Scanner α} {x : α} (reads : p text = some (x, rest)) (fuel : Nat) :
    many p (fuel + 1) text = (many p fuel rest).map fun r => (x :: r.1, r.2) := by
  rw [many, reads]

/-- **A list of written items is read back if each of them is.** -/
theorem many_flatMap {p : Scanner α} {written : α → List Char} {xs : List α} {fuel : Nat}
    (reads : ∀ x ∈ xs, ∀ more, p (written x ++ more) = some (x, more)) (ends : p rest = none)
    (enough : xs.length ≤ fuel) : many p fuel (xs.flatMap written ++ rest) = some (xs, rest) := by
  induction xs generalizing fuel with
  | nil => exact many_of_none ends fuel
  | cons x xs ih =>
      cases fuel with
      | zero => cases enough
      | succ fuel =>
          have later := ih (fun y hy => reads y (.tail _ hy)) (Nat.le_of_succ_le_succ enough)
          rw [List.flatMap_cons, List.append_assoc,
            many_of_some (reads x List.mem_cons_self _), later]
          rfl

/-- There is enough fuel for items that are written with at least one character each. -/
theorem length_le_flatMap {written : α → List Char} (some : ∀ x, written x ≠ []) (xs : List α) :
    xs.length ≤ (xs.flatMap written).length := by
  induction xs with
  | nil => exact Nat.le_refl 0
  | cons x xs ih =>
      have := List.length_pos_iff.2 (some x)
      rw [List.flatMap_cons, List.length_append, List.length_cons]
      omega

/-- A repetition up to an ending stops where the ending succeeds. -/
theorem manyUntil_of_end {p : Scanner α} {ending : Scanner β} {last : β}
    (ends : ending text = some (last, rest)) (fuel : Nat) :
    manyUntil p ending (fuel + 1) text = some (([], last), rest) := by
  rw [manyUntil, ends]

/-- Where the ending fails it reads one more item. -/
theorem manyUntil_of_some {p : Scanner α} {ending : Scanner β} {x : α}
    (goesOn : ending text = none) (reads : p text = some (x, rest)) (fuel : Nat) :
    manyUntil p ending (fuel + 1) text =
      (manyUntil p ending fuel rest).map fun r => ((x :: r.1.1, r.1.2), r.2) := by
  rw [manyUntil, goesOn]
  dsimp only
  rw [reads]

/-- **A list of written items is read back up to its end**, if each of them is and none begins with
an end. -/
theorem manyUntil_flatMap {p : Scanner α} {ending : Scanner β} {written : α → List Char}
    {xs : List α} {last : β} {after : List Char} {fuel : Nat}
    (goesOn : ∀ x ∈ xs, ∀ more, ending (written x ++ more) = none)
    (reads : ∀ x ∈ xs, ∀ more, p (written x ++ more) = some (x, more))
    (ends : ending rest = some (last, after)) (enough : xs.length < fuel) :
    manyUntil p ending fuel (xs.flatMap written ++ rest) = some ((xs, last), after) := by
  induction xs generalizing fuel with
  | nil =>
      cases fuel with
      | zero => cases enough
      | succ fuel => exact manyUntil_of_end ends fuel
  | cons x xs ih =>
      cases fuel with
      | zero => cases enough
      | succ fuel =>
          have later := ih (fun y hy => goesOn y (.tail _ hy)) (fun y hy => reads y (.tail _ hy))
            (Nat.lt_of_succ_lt_succ enough)
          rw [List.flatMap_cons, List.append_assoc,
            manyUntil_of_some (goesOn x List.mem_cons_self _) (reads x List.mem_cons_self _), later]
          rfl

end CodeSurvey.Scanner
