import CodeSurvey.Proofs.Toml.Strings

/-!
# Numbers are read back

An integer is read back from its decimal digits, and nothing else is read from them.

* `numberOf_toDigits`, `head_toDigits`: the digits of a number spell it, without a zero in front.
* `date_eq_none`, `time_eq_none`, `decimal_eq_none`, `basedInteger_eq_none`: digits alone are no
  date, no time, no decimal and no number in another base.
* `number_toString`: an integer that fits is read back.
* `number_of_other`: what begins with none of the characters of a number is none.
-/

namespace CodeSurvey.Toml

open Scanner

/-! ### Digits -/

/-- Digits in front of what may stand behind a value. -/
structure Digits (found rest : List Char) : Prop where
  inside    : ∀ c ∈ found, c.isDigit = true
  delimited : Delimited rest

/-- What ends a number stops the classes that it is read by. -/
theorem Delimited.stops {rest : List Char} (h : Delimited rest) {class? : Char → Bool}
    (outside : ['\n', ',', ']'].any class? = false) : Stops class? rest := by
  obtain ⟨c, more, rfl, there⟩ := h
  exact stops_cons (Bool.eq_false_iff.2 (List.any_eq_false.1 outside c there))

theorem satisfy_of_stops {class? : Char → Bool} {text : List Char} (stops : Stops class? text) :
    satisfy class? text = none := by
  cases text with
  | nil => rfl
  | cons c text => simp [stops c rfl]

theorem char_of_stops {wanted : Char} {text : List Char} (stops : Stops (· == wanted) text) :
    char wanted text = none := by
  rw [char, bind_apply, satisfy_of_stops stops]
  rfl

theorem literal_of_stops {c : Char} {text : List Char} (stops : Stops (· == c) text)
    (wanted : List Char) : literal (c :: wanted) text = none := by
  cases text with
  | nil => rfl
  | cons d text =>
      have ne : d ≠ c := by simpa using stops d rfl
      simp [ne.symm]

/-- A character that may come next is not taken for another. -/
theorem char?_of_stops {wanted : Char} {text : List Char} (stops : Stops (· == wanted) text) :
    char? wanted text = some (false, text) := by
  cases text with
  | nil => rfl
  | cons c text =>
      have ne : c ≠ wanted := by simpa using stops c rfl
      simp [ne]

namespace Digits

variable {found rest : List Char}

/-- Digits and what follows go on with no other character. -/
theorem stops (h : Digits found rest) {class? : Char → Bool}
    (digits : ∀ c, c.isDigit = true → class? c = false)
    (outside : ['\n', ',', ']'].any class? = false) : Stops class? (found ++ rest) := by
  cases found with
  | nil => exact h.delimited.stops outside
  | cons c found => exact stops_cons (digits c (h.inside c List.mem_cons_self))

/-- Without the first of them they are digits still. -/
theorem drop (h : Digits found rest) (n : Nat) : Digits (found.drop n) rest :=
  ⟨fun c hc => h.inside c (List.mem_of_mem_drop hc), h.delimited⟩

theorem stops_char (h : Digits found rest) {wanted : Char} (other : wanted.isDigit = false)
    (outside : ['\n', ',', ']'].any (· == wanted) = false) :
    Stops (· == wanted) (found ++ rest) := by
  refine h.stops (fun c digit => beq_false_of_ne fun eq => ?_) outside
  rw [eq, other] at digit
  cases digit

/-- Digits read back up to where they end. -/
theorem digits_append (h : Digits found rest) (some : found ≠ []) {fuel : Nat}
    (enough : found.length ≤ fuel) :
    digits Char.isDigit fuel (found ++ rest) = .some (found, rest) := by
  obtain ⟨first, more, rfl⟩ := List.exists_cons_of_ne_nil some
  have ends : laterDigit Char.isDigit rest = none := by
    have noGap : Stops (· == '_') rest := h.delimited.stops (by decide)
    have noDigit : Stops Char.isDigit rest := h.delimited.stops (by decide)
    simp [laterDigit, char?_of_stops noGap, satisfy_of_stops noDigit]
  have reads : ∀ c ∈ more, ∀ left, laterDigit Char.isDigit ([c] ++ left) = .some (c, left) := by
    intro c hc left
    have digit := h.inside c (.tail _ hc)
    have ne : c ≠ '_' := fun eq => by rw [eq] at digit; cases digit
    simp [laterDigit, digit, ne]
  have shorter : more.length ≤ fuel := Nat.le_of_succ_le enough
  have later := many_flatMap reads ends shorter
  rw [List.flatMap_singleton'] at later
  simp [digits, h.inside first List.mem_cons_self, later]

end Digits

/-- A decimal digit has the same value among the hexadecimal ones. -/
theorem hexValue_of_isDigit {c : Char} (digit : c.isDigit = true) :
    hexValue c = c.toNat - '0'.toNat := by
  rw [hexValue, if_pos digit]

theorem numberOf_eq {found : List Char} (inside : ∀ c ∈ found, c.isDigit = true) :
    numberOf 10 found = Nat.ofDigitChars 10 found 0 := by
  rw [numberOf, Nat.ofDigitChars_eq_foldl]
  refine List.foldl_ext _ _ _ fun total c hc => ?_
  rw [hexValue_of_isDigit (inside c hc), Nat.mul_comm]

/-- **The digits of a number spell it.** -/
theorem numberOf_toDigits (n : Nat) : numberOf 10 (Nat.toDigits 10 n) = n := by
  rw [numberOf_eq fun c hc => Nat.isDigit_of_mem_toDigits (by decide) (by decide) hc]
  exact Nat.ofDigitChars_toDigits (by decide) (by decide)

/-- Only zero has a zero in front. -/
theorem head_toDigits {n : Nat} (pos : 0 < n) : (Nat.toDigits 10 n).head? ≠ some '0' := by
  induction n using Nat.strongRecOn with
  | ind n ih =>
      by_cases small : n < 10
      · rw [Nat.toDigits_of_lt_base small]
        simp only [List.head?_cons, ne_eq, Option.some.injEq, Nat.digitChar_eq_zero]
        omega
      · have front := ih (n / 10) (by omega) (by omega)
        rw [Nat.toDigits_of_base_le (by decide) (by omega)]
        rwa [List.head?_append_of_ne_nil _ Nat.toDigits_ne_nil]

/-! ### What digits are not -/

/-- A number of so many digits takes exactly these. -/
theorem fixedNumber_eq_some {n least greatest value : Nat} {text left : List Char}
    (h : fixedNumber n least greatest text = some (value, left)) :
    (text.take n).length = n ∧ (∀ c ∈ text.take n, c.isDigit = true) ∧ left = text.drop n := by
  simp only [fixedNumber, takeExactly, bind_apply, require_apply, pure_apply,
    Option.bind_eq_some_iff] at h
  obtain ⟨⟨found, after⟩, taken, ⟨⟨⟩, rest⟩, within, result⟩ := h
  obtain ⟨fits, same⟩ := Option.ite_none_right_eq_some.1 taken
  obtain ⟨-, kept⟩ := Option.ite_none_right_eq_some.1 within
  cases same
  cases kept
  cases result
  exact ⟨fits.1, List.all_eq_true.1 fits.2, rfl⟩

namespace Digits

variable {found rest : List Char}

/-- A number of so many digits ends within digits. -/
theorem fixedNumber (h : Digits found rest) {n least greatest value : Nat} {left : List Char}
    (read : Toml.fixedNumber n least greatest (found ++ rest) = some (value, left)) :
    left = found.drop n ++ rest := by
  obtain ⟨length, inside, rfl⟩ := fixedNumber_eq_some read
  obtain ⟨c, more, rfl, -⟩ := h.delimited
  have other : c.isDigit = false :=
    (h.delimited.stops (by decide) : Stops Char.isDigit (c :: more)) c rfl
  have le : n ≤ found.length := by
    by_contra less
    -- what stands behind the digits would be one
    have taken : c ∈ (found ++ c :: more).take n := by
      rw [List.take_append, List.mem_append]
      right
      obtain ⟨k, eq⟩ : ∃ k, n - found.length = k + 1 := ⟨n - found.length - 1, by omega⟩
      simp [eq]
    exact absurd (inside c taken) (Bool.eq_false_iff.1 other)
  rw [List.drop_append_of_le_length le]

/-- Digits alone are no date, for a dash would have to come after four of them. -/
theorem date_eq_none (h : Digits found rest) : date (found ++ rest) = none := by
  rw [date, bind_apply]
  cases read : Toml.fixedNumber 4 0 9999 (found ++ rest) with
  | none => rfl
  | some r =>
      obtain ⟨value, left⟩ := r
      have gap : Stops (· == '-') (found.drop 4 ++ rest) :=
        (h.drop 4).stops_char (by decide) (by decide)
      simp [h.fixedNumber read, char_of_stops gap]

/-- Nor are they a time, for want of a colon. -/
theorem time_eq_none (h : Digits found rest) : time (found ++ rest) = none := by
  rw [time, bind_apply]
  cases read : Toml.fixedNumber 2 0 23 (found ++ rest) with
  | none => rfl
  | some r =>
      obtain ⟨value, left⟩ := r
      have gap : Stops (· == ':') (found.drop 2 ++ rest) :=
        (h.drop 2).stops_char (by decide) (by decide)
      simp [h.fixedNumber read, char_of_stops gap]

/-- Nor a number to another base. -/
theorem basedInteger_eq_none (h : Digits found rest) (fuel : Nat) :
    basedInteger fuel (found ++ rest) = none := by
  cases found with
  | nil =>
      have stops : Stops (· == '0') rest := h.delimited.stops (by decide)
      simp [basedInteger, char_of_stops stops]
  | cons first more =>
      have stops : Stops (fun c => c == 'x' || c == 'o' || c == 'b') (more ++ rest) := by
        refine (h.drop 1).stops (fun c digit => ?_) (by decide)
        have ne : ∀ x : Char, x.isDigit = false → c ≠ x := by
          rintro x other rfl
          rw [digit] at other
          cases other
        simp [ne 'x' rfl, ne 'o' rfl, ne 'b' rfl]
      by_cases zero : first = '0'
      · simp [basedInteger, zero, satisfy_of_stops stops]
      · simp [basedInteger, zero]

/-! ### With a sign -/

variable {text : List Char} {isNegative : Bool} {fuel : Nat}

/-- Digits without a leading zero are a whole number. -/
theorem wholeDigits_eq (h : Digits found rest) (some : found ≠ [])
    (proper : found.length = 1 ∨ found.head? ≠ .some '0') (enough : found.length ≤ fuel) :
    wholeDigits fuel (found ++ rest) = .some (found, rest) := by
  have fits : (decide (found.length = 1) || decide (found.head? ≠ .some '0')) = true := by
    simpa using proper
  simp only [wholeDigits, bind_apply, h.digits_append some enough, require_apply, pure_apply, fits,
    Option.bind_some, if_true]

/-- Nor a decimal fraction. -/
theorem decimal_eq_none (h : Digits found rest) (some : found ≠ [])
    (proper : found.length = 1 ∨ found.head? ≠ .some '0') (enough : found.length ≤ fuel)
    (signed : sign text = .some (isNegative, found ++ rest)) : decimal fuel text = none := by
  have whole := h.wholeDigits_eq some proper enough
  have noPoint : Stops (· == '.') rest := h.delimited.stops (by decide)
  have noPower : Stops (fun c => c == 'e' || c == 'E') rest := h.delimited.stops (by decide)
  have noInf : Stops (· == 'i') (found ++ rest) := h.stops_char (by decide) (by decide)
  have noNan : Stops (· == 'n') (found ++ rest) := h.stops_char (by decide) (by decide)
  simp [decimal, signed, literal_of_stops noInf, literal_of_stops noNan, whole, fraction, exponent,
    char_of_stops noPoint, satisfy_of_stops noPower]

/-- With its sign, such a number is the integer if that fits. -/
theorem wholeInteger_eq (h : Digits found rest) (some : found ≠ [])
    (proper : found.length = 1 ∨ found.head? ≠ .some '0') (enough : found.length ≤ fuel)
    (signed : sign text = .some (isNegative, found ++ rest)) {n : Int}
    (same : (if isNegative then -(numberOf 10 found : Int) else numberOf 10 found) = n)
    (fits : -greatestInteger - 1 ≤ n ∧ n ≤ greatestInteger) :
    wholeInteger fuel text = .some (n, rest) := by
  have whole := h.wholeDigits_eq some proper enough
  have kept : fitting n rest = .some (n, rest) := by
    rw [fitting, decide_eq_true fits]
    rfl
  simp [wholeInteger, signed, whole, same, kept]

end Digits

/-- What begins with no digit is no date and no time. -/
theorem moment_of_other {c : Char} (other : c.isDigit = false) (text : List Char) :
    moment (c :: text) = none := by
  have fails : ∀ n least greatest, fixedNumber (n + 1) least greatest (c :: text) = none := by
    intro n least greatest
    simp [fixedNumber, takeExactly, other]
  simp [moment, date, time, fails]

/-! ### Integers -/

/-- Whether an integer fits in 64 bits. -/
def Fits (n : Int) : Prop :=
  -greatestInteger - 1 ≤ n ∧ n ≤ greatestInteger

/-- An integer is written as its digits, after a sign if it is negative. -/
theorem toList_toString_int (n : Int) :
    (toString n).toList = (if 0 ≤ n then [] else ['-']) ++ Nat.toDigits 10 n.natAbs := by
  rw [Int.toString_eq_repr, Int.repr_eq_if]
  split
  · rw [Nat.toList_repr, List.nil_append]
    congr 1
    omega
  · rw [String.toList_append, Nat.toList_repr]
    congr 2
    omega

/-- **An integer that fits is read back.** -/
theorem number_toString {n : Int} (fits : Fits n) {rest : List Char} (delimited : Delimited rest)
    {fuel : Nat} (enough : (toString n).toList.length < fuel) :
    number fuel ((toString n).toList ++ rest) = some (.integer n, rest) := by
  have digits : Digits (Nat.toDigits 10 n.natAbs) rest :=
    ⟨fun c hc => Nat.isDigit_of_mem_toDigits (by decide) (by decide) hc, delimited⟩
  have proper : (Nat.toDigits 10 n.natAbs).length = 1 ∨
      (Nat.toDigits 10 n.natAbs).head? ≠ some '0' := by
    by_cases zero : n.natAbs = 0
    · left
      rw [zero]
      rfl
    · exact .inr (head_toDigits (Nat.pos_of_ne_zero zero))
  have spelled : (numberOf 10 (Nat.toDigits 10 n.natAbs) : Int) = n.natAbs := by
    rw [numberOf_toDigits]
  have some : Nat.toDigits 10 n.natAbs ≠ [] := Nat.toDigits_ne_nil
  rw [toList_toString_int] at enough ⊢
  generalize Nat.toDigits 10 n.natAbs = found at *
  have short : found.length ≤ fuel := by
    rw [List.length_append] at enough
    omega
  by_cases positive : 0 ≤ n
  · have signed : sign (found ++ rest) = .some (false, found ++ rest) := by
      have noMinus : Stops (· == '-') (found ++ rest) := digits.stops_char (by decide) (by decide)
      have noPlus : Stops (· == '+') (found ++ rest) := digits.stops_char (by decide) (by decide)
      simp [sign, char?_of_stops noMinus, char?_of_stops noPlus]
    have whole := digits.wholeInteger_eq some proper short signed
      (show (numberOf 10 found : Int) = n by omega) fits
    simp [positive, number, moment, digits.date_eq_none, digits.time_eq_none,
      digits.decimal_eq_none some proper short signed, digits.basedInteger_eq_none, whole]
  · have signed : sign ('-' :: (found ++ rest)) = .some (true, found ++ rest) := by simp [sign]
    have whole := digits.wholeInteger_eq some proper short signed
      (show -(numberOf 10 found : Int) = n by omega) fits
    simp [positive, number, moment_of_other, basedInteger,
      digits.decimal_eq_none some proper short signed, whole]

/-- **What begins with none of the characters of a number is none.** -/
theorem number_of_other {c : Char} (digit : c.isDigit = false) (other : c ∉ ['-', '+', 'i', 'n'])
    (fuel : Nat) (text : List Char) : number fuel (c :: text) = none := by
  have ne : ∀ x ∈ ['-', '+', 'i', 'n'], c ≠ x := fun x hx eq => other (eq ▸ hx)
  have notZero : c ≠ '0' := fun eq => by rw [eq] at digit; cases digit
  have unsigned : sign (c :: text) = some (false, c :: text) := by
    simp [sign, ne '-' (by simp), ne '+' (by simp)]
  have noDigits : wholeDigits fuel (c :: text) = none := by simp [wholeDigits, digits, digit]
  simp [number, moment_of_other digit, decimal, unsigned, (ne 'i' (by simp)).symm,
    (ne 'n' (by simp)).symm, noDigits, basedInteger, notZero, wholeInteger]

end CodeSurvey.Toml
