import CodeSurvey.Proofs.Text.Scanner
import CodeSurvey.Toml.Scalar
import CodeSurvey.Toml.Writer

/-!
# Strings are read back

Every text is read back from the quotes that it is written in.

* `IsPiece`: how a character may stand in double quotes, and `isPiece_escapeChar` that it does.
* `Spelled`: a text written in pieces, with no three quotes ahead of any of them. Three quotes
  around such a text are its own (`multiString_spelled`).
* `string_writeString`: a written string is read back, whatever its quotes.
-/

namespace CodeSurvey.Toml

open Scanner

/-- What may stand behind a value: the end of its line, or of an item of an array. -/
def Delimited (rest : List Char) : Prop :=
  ∃ c more, rest = c :: more ∧ c ∈ ['\n', ',', ']']

theorem isBlank_iff {c : Char} : isBlank c = true ↔ c = ' ' ∨ c = '\t' := by
  simp [isBlank]

theorem blanks_apply (text : List Char) : blanks text = some ((), text.dropWhile isBlank) := rfl

/-- There are no blanks to be skipped before anything else. -/
theorem blanks_of_stops {text : List Char} (stops : Stops isBlank text) :
    blanks text = some ((), text) := by
  rw [blanks_apply, (takeWhile_stops stops).2]

/-! ### Escape sequences -/

/-- Hexadecimal digits read back. -/
theorem hexValue_hexDigit : ∀ n < 16, hexValue (hexDigit n) = n := by decide

theorem isHexDigit_hexDigit : ∀ n < 16, isHexDigit (hexDigit n) = true := by decide

/-- A character that is written by its code reads back. -/
theorem escapedChar_code {c : Char} (small : c.toNat < 0xD800) (more : List Char) :
    escapedChar ((codeEscape c).tail ++ more) = some (c, more) := by
  have inside : ∀ m, isHexDigit (hexDigit (m % 16)) = true := fun m =>
    isHexDigit_hexDigit _ (Nat.mod_lt m (by decide))
  have value : ∀ m, hexValue (hexDigit (m % 16)) = m % 16 := fun m =>
    hexValue_hexDigit _ (Nat.mod_lt m (by decide))
  have code : ((c.toNat / 4096 % 16 * 16 + c.toNat / 256 % 16) * 16 + c.toNat / 16 % 16) * 16 +
      c.toNat % 16 = c.toNat := by omega
  simp [codeEscape, escapedChar, codedChar, takeExactly, inside, value, code, small,
    Char.ofNat_toNat]

/-- How a character may stand in double quotes. -/
inductive IsPiece (c : Char) : List Char → Prop where
  | plain (isPlain : isPlainText c = true) (ne : c ≠ '\\') : IsPiece c [c]
  | escaped {sequence : List Char}
      (reads : ∀ more, escapedChar (sequence ++ more) = some (c, more)) :
      IsPiece c ('\\' :: sequence)

/-- **Every character but a line end stands for itself in double quotes.** -/
theorem isPiece_escapeChar {isMulti : Bool} {c : Char} (h : c = '\n' → isMulti = false) :
    IsPiece c (escapeChar isMulti c) := by
  have named : ∀ n, (c.toNat == n) = true → c = Char.ofNat n := by
    intro n eq
    rw [← eq_of_beq eq, Char.ofNat_toNat]
  unfold escapeChar
  -- the cases of the writer, in its order; only in the third is `h` of use
  split_ifs with slash tab lineFeed multi carriage backspace formFeed control
  · rw [eq_of_beq slash]
    exact .escaped fun _ => rfl
  · rw [eq_of_beq tab]
    exact .escaped fun _ => rfl
  · rw [h (eq_of_beq lineFeed)] at multi
    cases multi
  · rw [eq_of_beq lineFeed]
    exact .escaped fun _ => rfl
  · rw [eq_of_beq carriage]
    exact .escaped fun _ => rfl
  · rw [named _ backspace]
    exact .escaped fun _ => rfl
  · rw [named _ formFeed]
    exact .escaped fun _ => rfl
  · have small : c.toNat < 0xD800 := by
      simp only [isControl, Bool.or_eq_true, decide_eq_true_eq, beq_iff_eq] at control
      omega
    exact .escaped (escapedChar_code small)
  · refine .plain ?_ (by simpa using slash)
    simp only [isControl, Bool.or_eq_true, decide_eq_true_eq, beq_iff_eq, not_or] at control
    simp only [isPlainText, Bool.or_eq_true, Bool.and_eq_true, decide_eq_true_eq]
    omega

/-- A character is never written as nothing. -/
theorem IsPiece.ne_nil {c : Char} {image : List Char} (h : IsPiece c image) : image ≠ [] := by
  cases h <;> simp

/-! ### One line -/

/-- A character in double quotes on one line. -/
def basicImage (c : Char) : List Char :=
  if c = '"' then ['\\', '"'] else escapeChar false c

/-- A text in quotes is written character by character. -/
theorem escapeText_false (text : List Char) (quotes : Nat) :
    escapeText false text quotes = text.flatMap basicImage := by
  induction text generalizing quotes with
  | nil => rfl
  | cons c text ih =>
      rw [escapeText, List.flatMap_cons, basicImage]
      by_cases quote : c = '"' <;> simp [quote, ih]

/-- Each of them is written in one of the ways that read back. -/
theorem isPiece_basicImage (c : Char) : IsPiece c (basicImage c) := by
  rw [basicImage]
  split
  · rename_i quote
    rw [quote]
    exact .escaped fun _ => rfl
  · exact isPiece_escapeChar fun _ => rfl

/-- **A character reads back from the way it is written**, unless that is a bare quote. -/
theorem IsPiece.basicPiece {c : Char} {image : List Char} (h : IsPiece c image) (ne : image ≠ ['"'])
    (more : List Char) :
    char '"' (image ++ more) = none ∧ Toml.basicPiece (image ++ more) = some (c, more) := by
  cases h with
  | plain isPlain notSlash =>
      have notQuote : c ≠ '"' := fun eq => ne (by rw [eq])
      simp [Toml.basicPiece, isPlain, notSlash, notQuote]
  | escaped reads => simp [Toml.basicPiece, reads]

theorem basicImage_ne_quote (c : Char) : basicImage c ≠ ['"'] := by
  intro bare
  have piece : IsPiece c ['"'] := bare ▸ isPiece_basicImage c
  cases piece
  simp [basicImage] at bare

theorem basicPiece_basicImage (c : Char) (more : List Char) :
    char '"' (basicImage c ++ more) = none ∧ basicPiece (basicImage c ++ more) = some (c, more) :=
  (isPiece_basicImage c).basicPiece (basicImage_ne_quote c) more

/-- What is written is no shorter than the text. -/
theorem length_le_escapeText (text : List Char) (quotes : Nat) :
    text.length ≤ (escapeText false text quotes).length := by
  rw [escapeText_false]
  exact length_le_flatMap (fun c => (isPiece_basicImage c).ne_nil) text

/-- **A text in quotes reads back.** -/
theorem basicString_escapeText {text : List Char} {fuel : Nat} (enough : text.length < fuel)
    (rest : List Char) :
    basicString fuel ('"' :: (escapeText false text 0 ++ '"' :: rest)) =
      some (String.ofList text, rest) := by
  have ends : char '"' ('"' :: rest) = some ((), rest) := by simp
  have body := manyUntil_flatMap (fun c _ more => (basicPiece_basicImage c more).1)
    (fun c _ more => (basicPiece_basicImage c more).2) ends enough
  rw [← escapeText_false text 0] at body
  simp [basicString, body]

/-- So does a text in single quotes, if there is none in it. -/
theorem literalString_append {text : List Char}
    (plain : ∀ c ∈ text, (isPlainText c && c != '\'') = true) (rest : List Char) :
    literalString ('\'' :: (text ++ '\'' :: rest)) = some (String.ofList text, rest) := by
  have stops : Stops (fun c => isPlainText c && c != '\'') ('\'' :: rest) :=
    stops_cons (by decide)
  simp [literalString, takeWhile_append plain stops]

/-! ### Several lines -/

/-- How many of a character stand ahead. -/
def runAhead (quote : Char) (text : List Char) : Nat :=
  (text.takeWhile (· == quote)).length

/-- A text written in pieces, with at most two quotes ahead of each. -/
inductive Spelled (quote : Char) (piece : Scanner (List Char)) : List Char → List Char → Prop where
  | nil : Spelled quote piece [] []
  | cons {c first : Char} {image written text : List Char}
      (reads : ∀ more, piece (first :: (image ++ more)) = some ([c], more))
      (few : runAhead quote (first :: (image ++ written)) ≤ 2)
      (later : Spelled quote piece written text) :
      Spelled quote piece (first :: (image ++ written)) (c :: text)

section

variable {quote : Char} {piece : Scanner (List Char)} {written text rest : List Char}

/-- A character that is written as it is. -/
theorem Spelled.bare {c : Char} (reads : ∀ more, piece (c :: more) = some ([c], more))
    (few : runAhead quote (c :: written) ≤ 2) (later : Spelled quote piece written text) :
    Spelled quote piece (c :: written) (c :: text) :=
  @Spelled.cons quote piece c c [] written text reads few later

/-- Two quotes at most before the last three belong to the text. -/
theorem multiEnd_replicate (stops : rest.head? ≠ some quote) {n : Nat} (few : n ≤ 2) :
    multiEnd quote (List.replicate n quote ++ (List.replicate 3 quote ++ rest)) =
      some (List.replicate n quote, rest) := by
  have other : ∀ c ∈ rest.head?, quote ≠ c := by
    rintro c there rfl
    exact stops there
  rcases rest with _ | ⟨c, rest⟩
  · match n with
    | 0 | 1 | 2 => simp [multiEnd, List.replicate_succ]
  · have ne := other c rfl
    match n with
    | 0 | 1 | 2 => simp [multiEnd, List.replicate_succ, ne]

/-- Fewer quotes than an ending needs are no ending. -/
theorem literal_replicate_of_runAhead {n : Nat} (few : runAhead quote text < n) :
    literal (List.replicate n quote) text = none := by
  induction n generalizing text with
  | zero => cases few
  | succ n ih =>
      cases text with
      | nil => rfl
      | cons c text =>
          rw [List.replicate_succ, literal_cons_cons]
          split
          · rename_i same
            subst same
            refine ih ?_
            simpa [runAhead] using few
          · rfl

/-- So a text of several lines does not end at two quotes. -/
theorem multiEnd_of_runAhead (few : runAhead quote text ≤ 2) : multiEnd quote text = none := by
  have fails : ∀ n, 3 ≤ n → literal (List.replicate n quote) text = none := fun n le =>
    literal_replicate_of_runAhead (by omega)
  simp only [multiEnd, orElse_apply, bind_apply, fails 5 (by omega), fails 4 (by omega),
    fails 3 (by omega), Option.bind_none, Option.or_none]

/-- Quotes ahead are all of a text, or end within it. -/
theorem eq_replicate_or_runAhead (quote : Char) (text : List Char) :
    text = List.replicate (runAhead quote text) quote ∨
      ∀ more, runAhead quote (text ++ more) = runAhead quote text := by
  induction text with
  | nil => exact .inl rfl
  | cons c text ih =>
      by_cases same : c = quote
      · subst same
        have longer : ∀ more, runAhead c (c :: more) = runAhead c more + 1 := by simp [runAhead]
        refine ih.imp (fun all => ?_) (fun ends more => ?_)
        · rw [longer, List.replicate_succ, ← all]
        · rw [List.cons_append, longer, longer, ends]
      · exact .inr fun more => by simp [runAhead, same]

variable (own : ∀ more, piece (quote :: more) = some ([quote], more))
include own

/-- A quote inside such a text stands for itself. -/
theorem Spelled.of_quote (h : Spelled quote piece (quote :: written) text) :
    ∃ later, text = quote :: later ∧ Spelled quote piece written later := by
  cases h with
  | @cons c _ image written text reads few later =>
      have eq := (reads []).symm.trans (own (image ++ []))
      have none : image = [] := by simpa using (congrArg (Option.map Prod.snd) eq).symm
      subst none
      obtain ⟨⟩ : c = quote := by simpa using eq
      exact ⟨text, rfl, later⟩

/-- So do several of them. -/
theorem Spelled.eq_replicate {n : Nat} (h : Spelled quote piece (List.replicate n quote) text) :
    text = List.replicate n quote := by
  induction n generalizing text with
  | zero =>
      cases h
      rfl
  | succ n ih =>
      obtain ⟨later, rfl, rest⟩ := Spelled.of_quote own h
      rw [ih rest, List.replicate_succ]

/-- **A text in three quotes ends where it was ended.** -/
theorem manyUntil_spelled (h : Spelled quote piece written text) (stops : rest.head? ≠ some quote)
    {fuel : Nat} (enough : written.length < fuel) :
    ∃ pieces last, manyUntil piece (multiEnd quote) fuel
        (written ++ (List.replicate 3 quote ++ rest)) = some ((pieces, last), rest) ∧
      pieces.flatten ++ last = text := by
  induction h generalizing fuel with
  | nil =>
      obtain ⟨fuel, rfl⟩ := Nat.exists_eq_add_of_lt enough
      have ends := multiEnd_replicate stops (Nat.zero_le 2)
      exact ⟨[], [], manyUntil_of_end ends _, rfl⟩
  | @cons c first image written text reads few later ih =>
      obtain ⟨fuel, rfl⟩ := Nat.exists_eq_add_of_lt enough
      -- two quotes ahead are taken for the end only if the three of the end follow them
      rcases eq_replicate_or_runAhead quote (first :: (image ++ written)) with all | ends
      · -- nothing but quotes is left, and the end takes them
        have ends := multiEnd_replicate stops few
        rw [← all] at ends
        refine ⟨[], _, manyUntil_of_end ends _, ?_⟩
        have spelled := Spelled.cons reads few later
        rw [all] at spelled
        rw [spelled.eq_replicate own, ← all]
        rfl
      · have ahead := ends (List.replicate 3 quote ++ rest)
        have goesOn := multiEnd_of_runAhead (Nat.le_trans (Nat.le_of_eq ahead) few)
        have read := reads (written ++ (List.replicate 3 quote ++ rest))
        rw [← List.append_assoc, ← List.cons_append] at read
        have shorter : written.length < (first :: (image ++ written)).length + fuel := by
          rw [List.length_cons, List.length_append]
          omega
        obtain ⟨pieces, last, body, whole⟩ := ih shorter
        refine ⟨[c] :: pieces, last, ?_, by rw [← whole]; rfl⟩
        rw [manyUntil_of_some goesOn read, body]
        rfl

end

/-- A line end at the start of a text in three quotes is one that the text has. -/
theorem Spelled.lineEnd_eq_none {quote : Char} {other : Scanner (List Char)}
    {written text more : List Char} (h : Spelled quote (textLineEnd <|> other) written text)
    (within : '\n' ∉ text) (stops : lineEnd more = none) : lineEnd (written ++ more) = none := by
  cases h with
  | nil => exact stops
  | @cons c first image written text reads =>
      have read := reads (written ++ more)
      rw [← List.append_assoc, ← List.cons_append, orElse_apply] at read
      cases ends : lineEnd (first :: (image ++ written) ++ more) with
      | none => rfl
      | some r =>
          rw [textLineEnd, bind_apply, ends] at read
          have : c = '\n' := by simpa [eq_comm] using congrArg (Option.map Prod.fst) read
          exact absurd (this ▸ List.mem_cons_self) within

/-- The line end at the start of a text in three quotes, if the text has several lines. -/
def opening (text : List Char) : List Char :=
  if '\n' ∈ text then ['\n'] else []

/-- **Three quotes around a text written in pieces are its own.** -/
theorem multiString_spelled {quote : Char} {other : Scanner (List Char)}
    {written text rest : List Char} {fuel : Nat}
    (own : ∀ more, (textLineEnd <|> other) (quote :: more) = some ([quote], more))
    (inLine : ∀ more, lineEnd (List.replicate 3 quote ++ more) = none)
    (h : Spelled quote (textLineEnd <|> other) written text) (stops : rest.head? ≠ some quote)
    (enough : written.length < fuel) :
    multiString quote (textLineEnd <|> other) fuel (List.replicate 3 quote ++
        (opening text ++ (written ++ (List.replicate 3 quote ++ rest)))) =
      some (String.ofList text, rest) := by
  obtain ⟨pieces, last, body, whole⟩ := manyUntil_spelled own h stops enough
  have opened : (lineEnd <|> pure ())
      (opening text ++ (written ++ (List.replicate 3 quote ++ rest))) =
        some ((), written ++ (List.replicate 3 quote ++ rest)) := by
    rw [orElse_apply, opening]
    split
    · simp [lineEnd]
    · rename_i within
      rw [List.nil_append, h.lineEnd_eq_none within (inLine rest)]
      rfl
  rw [multiString, bind_apply, literal_append]
  dsimp only [Option.bind_some]
  rw [bind_apply, opened]
  dsimp only [Option.bind_some]
  rw [bind_apply, body]
  dsimp only [Option.bind_some]
  rw [whole]
  rfl

/-! ### In three double quotes -/

theorem lineEnd_of_plain {c : Char} (isPlain : isPlainText c = true) (more : List Char) :
    lineEnd (c :: more) = none := by
  have line : c ≠ '\n' := fun eq => absurd isPlain (by rw [eq]; decide)
  have carriage : c ≠ '\r' := fun eq => absurd isPlain (by rw [eq]; decide)
  simp [lineEnd, line, carriage.symm]

/-- A backslash before an escape sequence joins no lines. -/
theorem lineJoin_of_escapedChar {text : List Char} {r : Char × List Char}
    (h : escapedChar text = some r) (fuel : Nat) : lineJoin fuel ('\\' :: text) = none := by
  cases text with
  | nil => cases h
  | cons c text =>
      have refused : ∀ x, escapedChar (x :: text) = none → c ≠ x := by
        rintro x fails rfl
        rw [fails] at h
        cases h
      have solid : isBlank c = false := by
        simp [isBlank, refused ' ' rfl, refused '\t' rfl]
      have stays : blanks (c :: text) = some ((), c :: text) := blanks_of_stops (stops_cons solid)
      simp [lineJoin, stays, lineEnd, refused '\n' rfl, (refused '\r' rfl).symm]

/-- In a text of several lines a character reads back as well. -/
theorem IsPiece.multiBasicPiece {c : Char} {image : List Char} (h : IsPiece c image) (fuel : Nat)
    (more : List Char) : Toml.multiBasicPiece fuel (image ++ more) = some ([c], more) := by
  cases h with
  | plain isPlain notSlash =>
      simp [Toml.multiBasicPiece, textLineEnd, lineEnd_of_plain isPlain, lineJoin, isPlain,
        notSlash]
  | @escaped sequence reads =>
      simp [Toml.multiBasicPiece, textLineEnd, lineEnd, lineJoin_of_escapedChar (reads more), reads]

theorem quote_multiBasicPiece (fuel : Nat) (more : List Char) :
    multiBasicPiece fuel ('"' :: more) = some (['"'], more) :=
  IsPiece.multiBasicPiece (.plain (by decide) (by decide)) fuel more

/-- How a text in three double quotes goes on: with a bare quote if fewer than two stand before it,
else with a piece that begins with none. -/
theorem escapeText_true (c : Char) (text : List Char) (quotes : Nat) :
    (c = '"' ∧ quotes < 2 ∧
        escapeText true (c :: text) quotes = '"' :: escapeText true text (quotes + 1)) ∨
      ∃ first image, first ≠ '"' ∧
        (∀ fuel more, multiBasicPiece fuel (first :: (image ++ more)) = some ([c], more)) ∧
        escapeText true (c :: text) quotes = first :: (image ++ escapeText true text 0) := by
  by_cases quote : c = '"'
  · subst quote
    by_cases few : quotes < 2
    · exact .inl ⟨rfl, few, by simp [escapeText, few]⟩
    · have escaped : IsPiece '"' ['\\', '"'] := .escaped fun _ => rfl
      exact .inr ⟨'\\', ['"'], by decide, escaped.multiBasicPiece, by simp [escapeText, few]⟩
  · right
    have split : escapeText true (c :: text) quotes =
        escapeChar true c ++ escapeText true text 0 := by simp [escapeText, quote]
    rw [split]
    by_cases line : c = '\n'
    · subst line
      exact ⟨'\n', [], by decide, fun _ _ => rfl, rfl⟩
    · have piece : IsPiece c (escapeChar true c) := isPiece_escapeChar fun eq => absurd eq line
      have reads := piece.multiBasicPiece
      generalize escapeChar true c = image at piece reads
      cases piece with
      | plain => exact ⟨c, [], quote, reads, rfl⟩
      | @escaped sequence => exact ⟨'\\', sequence, by decide, reads, rfl⟩

/-- With so many quotes before it, a text has at most the rest of two ahead. -/
theorem runAhead_escapeText (text : List Char) (quotes : Nat) :
    runAhead '"' (escapeText true text quotes) ≤ 2 - quotes := by
  induction text generalizing quotes with
  | nil => exact Nat.zero_le _
  | cons c text ih =>
      rcases escapeText_true c text quotes with ⟨-, few, eq⟩ | ⟨first, image, other, -, eq⟩
      · have := ih (quotes + 1)
        simp only [eq, runAhead, List.takeWhile_cons, beq_self_eq_true, if_true,
          List.length_cons] at this ⊢
        omega
      · simp [eq, runAhead, other]

/-- A text of several lines is spelled piece by piece, with quotes escaped in time. -/
theorem spelled_escapeText (fuel : Nat) (text : List Char) (quotes : Nat) :
    Spelled '"' (multiBasicPiece fuel) (escapeText true text quotes) text := by
  induction text generalizing quotes with
  | nil => exact .nil
  | cons c text ih =>
      have few := Nat.le_trans (runAhead_escapeText (c :: text) quotes) (Nat.sub_le 2 quotes)
      rcases escapeText_true c text quotes with ⟨rfl, -, eq⟩ | ⟨first, image, -, reads, eq⟩
      · rw [eq] at few ⊢
        exact .bare (quote_multiBasicPiece fuel) few (ih _)
      · rw [eq] at few ⊢
        exact .cons (reads fuel) few (ih 0)

/-! ### In three single quotes -/

/-- No run of quotes is longer than the longest. -/
theorem le_longestRun (wanted : Char) (text : List Char) (current best : Nat) :
    max (runAhead wanted text + current) best ≤ longestRun wanted text current best := by
  induction text generalizing current best with
  | nil => simp [longestRun, runAhead]
  | cons c text ih =>
      rw [longestRun]
      split
      · rename_i same
        have later := ih (current + 1) best
        simp only [runAhead, List.takeWhile_cons, same, if_true, List.length_cons] at later ⊢
        omega
      · rename_i other
        have later := ih 0 (max current best)
        simp only [runAhead, List.takeWhile_cons, other] at later ⊢
        simp only [Bool.false_eq_true, if_false, List.length_nil]
        omega

theorem multiLiteralPiece_cons {c : Char} (h : isPlainText c = true ∨ c = '\n') (more : List Char) :
    multiLiteralPiece (c :: more) = some ([c], more) := by
  rcases h with isPlain | rfl
  · simp [multiLiteralPiece, textLineEnd, lineEnd_of_plain isPlain, isPlain]
  · rfl

/-- A text without too many quotes in a row can be spelled as it is. -/
theorem spelled_self {text : List Char} (plain : ∀ c ∈ text, isPlainText c = true ∨ c = '\n')
    {current best : Nat} (few : longestRun '\'' text current best ≤ 2) :
    Spelled '\'' multiLiteralPiece text text := by
  induction text generalizing current best with
  | nil => exact .nil
  | cons c text ih =>
      have ahead : runAhead '\'' (c :: text) ≤ 2 := by
        have := le_longestRun '\'' (c :: text) current best
        omega
      have later : Spelled '\'' multiLiteralPiece text text := by
        rw [longestRun] at few
        split at few
        · exact ih (fun x hx => plain x (.tail _ hx)) few
        · exact ih (fun x hx => plain x (.tail _ hx)) few
      exact .bare (multiLiteralPiece_cons (plain c List.mem_cons_self)) ahead later

/-! ### Any quotes -/

/-- The quotes that a text may be written in. -/
inductive Quoted (text : List Char) : List Char → Prop where
  | basic : Quoted text ('"' :: (escapeText false text 0 ++ ['"']))
  | literal (plain : ∀ c ∈ text, (isPlainText c && c != '\'') = true) :
      Quoted text ('\'' :: (text ++ ['\'']))
  | multiBasic :
      Quoted text
        (List.replicate 3 '"' ++ (opening text ++ (escapeText true text 0 ++ List.replicate 3 '"')))
  | multiLiteral (plain : ∀ c ∈ text, isPlainText c = true ∨ c = '\n')
      (few : longestRun '\'' text 0 0 ≤ 2) :
      Quoted text (List.replicate 3 '\'' ++ (opening text ++ (text ++ List.replicate 3 '\'')))

theorem Delimited.head_ne {rest : List Char} (h : Delimited rest) {c : Char}
    (other : c ∉ ['\n', ',', ']']) : rest.head? ≠ some c := by
  obtain ⟨x, more, rfl, there⟩ := h
  rintro ⟨⟩
  exact other there

/-- A single quote is no three quotes. -/
theorem not_isPrefixOf_quotes {quote : Char} {text rest : List Char}
    (inside : text.head? ≠ some quote) (stops : rest.head? ≠ some quote) :
    [quote, quote, quote].isPrefixOf (quote :: (text ++ quote :: rest)) = false := by
  rcases text with _ | ⟨c, text⟩
  · rcases rest with _ | ⟨d, rest⟩
    · simp
    · have : quote ≠ d := fun eq => stops (by rw [eq]; rfl)
      simp [List.isPrefixOf, this]
  · have : quote ≠ c := fun eq => inside (by rw [eq]; rfl)
    simp [List.isPrefixOf, this]

theorem head_escapeText_ne (text : List Char) : (escapeText false text 0).head? ≠ some '"' := by
  rw [escapeText_false]
  cases text with
  | nil => exact nofun
  | cons c text =>
      rw [List.flatMap_cons]
      intro there
      obtain ⟨rest, eq⟩ := List.head?_eq_some_iff.1 there
      have fails := (basicPiece_basicImage c (text.flatMap basicImage)).1
      rw [eq] at fails
      cases fails

/-- **A text in quotes is read back.** -/
theorem string_quoted {text written rest : List Char} (h : Quoted text written)
    (delimited : Delimited rest) {fuel : Nat} (enough : written.length < fuel) :
    string fuel (written ++ rest) = some (String.ofList text, rest) := by
  -- one quote is tried after three of them, and more than three take from what follows
  have doubles : rest.head? ≠ some '"' := delimited.head_ne (by decide)
  have singles : rest.head? ≠ some '\'' := delimited.head_ne (by decide)
  cases h with
  | basic =>
      have short : text.length < fuel := by
        have := length_le_escapeText text 0
        simp only [List.length_cons, List.length_append] at enough
        omega
      have notMulti := not_isPrefixOf_quotes (head_escapeText_ne text) doubles
      have read := basicString_escapeText short rest
      rw [List.cons_append, List.append_assoc, List.singleton_append, string, notMulti,
        if_neg (by simp), if_neg (by simp [List.isPrefixOf]), orElse_apply, read]
      rfl
  | literal plain =>
      have inside : text.head? ≠ some '\'' := fun there =>
        absurd (plain '\'' (List.mem_of_mem_head? there)) (by decide)
      have notMulti := not_isPrefixOf_quotes inside singles
      have read := literalString_append plain rest
      have notBasic : basicString fuel ('\'' :: (text ++ '\'' :: rest)) = none := rfl
      rw [List.cons_append, List.append_assoc, List.singleton_append, string, notMulti,
        if_neg (by simp [List.isPrefixOf]), if_neg (by simp), orElse_apply, notBasic, read]
      rfl
  | multiBasic =>
      have short : (escapeText true text 0).length < fuel := by
        simp only [List.length_append] at enough
        omega
      have read := multiString_spelled (quote_multiBasicPiece fuel) (fun _ => rfl)
        (spelled_escapeText fuel text 0) doubles short
      rw [List.append_assoc, List.append_assoc, List.append_assoc, string, if_pos (by rfl)]
      exact read
  | multiLiteral plain few =>
      have short : text.length < fuel := by
        simp only [List.length_append] at enough
        omega
      have read := multiString_spelled (fun more => multiLiteralPiece_cons (.inl (by decide)) more)
        (fun _ => rfl) (spelled_self plain few) singles short
      rw [List.append_assoc, List.append_assoc, List.append_assoc, string, if_neg (by simp),
        if_pos (by rfl)]
      exact read

theorem isPlainText_of_not_control {c : Char}
    (h : (isControl c && c != '\n' && c != '\t') = false) : isPlainText c = true ∨ c = '\n' := by
  by_cases line : c = '\n'
  · exact .inr line
  by_cases tab : c = '\t'
  · exact .inl (by rw [tab]; decide)
  · left
    simp [isControl, line, tab] at h
    simp [isPlainText, h]

/-- A character without a run does not occur. -/
theorem notMem_of_longestRun {wanted : Char} {text : List Char} {current best : Nat}
    (never : longestRun wanted text current best = 0) : wanted ∉ text := by
  induction text generalizing current best with
  | nil => exact List.not_mem_nil
  | cons c text ih =>
      rw [longestRun] at never
      split at never
      · have := le_longestRun wanted text (current + 1) best
        omega
      · rename_i other
        have ne : wanted ≠ c := fun eq => other (by rw [eq]; exact beq_self_eq_true c)
        exact List.not_mem_cons_of_ne_of_not_mem ne (ih never)

theorem toList_opening (content : String) :
    (if content.toList.contains '\n' = true then "\n" else "").toList = opening content.toList := by
  rw [opening]
  by_cases within : '\n' ∈ content.toList <;> simp [within]

/-- A written string stands in quotes that hold it. -/
theorem quoted_writeString (content : String) :
    Quoted content.toList (writeString content).toList := by
  have opened := toList_opening content
  have inDouble : Quoted content.toList
      ("\"" ++ String.ofList (escapeText false content.toList 0) ++ "\"").toList := by
    simpa using Quoted.basic
  have inDoubles : Quoted content.toList
      ("\"\"\"" ++ (if content.toList.contains '\n' = true then "\n" else "") ++
        String.ofList (escapeText true content.toList 0) ++ "\"\"\"").toList := by
    have quoted := @Quoted.multiBasic content.toList
    rw [← opened] at quoted
    simpa [List.replicate] using quoted
  -- the writer tries the quotes in order of their plainness, and escapes where none will do
  unfold writeString
  extract_lets text hasLineEnd hasControl hasEscape doubles singles opening
  have plain : hasControl = false → ∀ c ∈ text, isPlainText c = true ∨ c = '\n' := fun none c hc =>
    isPlainText_of_not_control (by simpa using List.any_eq_false.1 none c hc)
  split_ifs with plainest single double triple
  · exact inDouble
  · simp only [Bool.and_eq_true, Bool.not_eq_true', decide_eq_true_eq] at single
    obtain ⟨⟨oneLine, control⟩, never⟩ := single
    have inLine : '\n' ∉ text := by simpa [hasLineEnd] using oneLine
    have quoted := @Quoted.literal text fun c hc => by
      have notLine : c ≠ '\n' := fun eq => inLine (eq ▸ hc)
      have notQuote : c ≠ '\'' := fun eq => notMem_of_longestRun never (eq ▸ hc)
      simp [(plain control c hc).resolve_right notLine, notQuote]
    simpa using quoted
  · exact inDoubles
  · simp only [Bool.and_eq_true, Bool.not_eq_true', decide_eq_true_eq] at triple
    have quoted := Quoted.multiLiteral (plain triple.1) triple.2
    rw [← opened] at quoted
    simpa [List.replicate, opening, hasLineEnd] using quoted
  · exact inDoubles
  · exact inDouble

/-- **A written string is read back**, whatever its text and its quotes. -/
theorem string_writeString (content : String) {rest : List Char} (delimited : Delimited rest)
    {fuel : Nat} (enough : (writeString content).toList.length < fuel) :
    string fuel ((writeString content).toList ++ rest) = some (content, rest) := by
  have read := string_quoted (quoted_writeString content) delimited enough
  rwa [String.ofList_toList] at read

end CodeSurvey.Toml
