import CodeSurvey.Proofs.Toml.Numbers
import CodeSurvey.Toml.Reader

/-!
# Values are read back

Texts, integers that fit, truth values, and arrays of those are read back as they were written.

* `scalar_writeScalar`: a plain value is read back.
* `many_arrayItem`: so are the items of an array that has one on each line.
* `value_writeValue`: a value on the right of an equals sign is read back.
-/

namespace CodeSurvey.Toml

open Scanner

/-! ### Plain values -/

/-- A plain value that the format can hold. -/
def IsScalar : Value → Prop
  | .text _    => True
  | .integer n => Fits n
  | .boolean _ => True
  | _          => False

/-- What starts like no text and no truth value is read as a number. -/
theorem scalar_of_number {c : Char} (other : c ∉ ['"', '\'', 't', 'f']) (fuel : Nat)
    (text : List Char) : scalar fuel (c :: text) = number fuel (c :: text) := by
  simp only [List.mem_cons, List.not_mem_nil, or_false, not_or] at other
  obtain ⟨double, single, t, f⟩ := other
  simp only [scalar, bind_apply, peek_apply, Option.bind_some, List.head?_cons]

/-- What starts with a quote is read as a text. -/
theorem scalar_of_quote {c : Char} (quote : c = '"' ∨ c = '\'') {fuel : Nat} {text rest : List Char}
    {content : String} (read : string fuel (c :: text) = some (content, rest)) :
    scalar fuel (c :: text) = some (.text content, rest) := by
  rcases quote with rfl | rfl <;> simp [scalar, read]

/-- **What begins with none of the characters of a plain value is none.** -/
theorem scalar_of_other {c : Char} (digit : c.isDigit = false)
    (other : c ∉ ['"', '\'', 't', 'f', '-', '+', 'i', 'n']) (fuel : Nat) (text : List Char) :
    scalar fuel (c :: text) = none := by
  have outside : ∀ x ∈ ['"', '\'', 't', 'f', '-', '+', 'i', 'n'], c ≠ x := fun x hx eq =>
    other (eq ▸ hx)
  rw [scalar_of_number (fun there => outside c (by grind) rfl),
    number_of_other digit fun there => outside c (by grind) rfl]

/-- An integer is written with a digit or a sign first. -/
theorem head_toString_int {n : Int} {c : Char} {more : List Char}
    (h : (toString n).toList = c :: more) : c.isDigit = true ∨ c = '-' := by
  rw [toList_toString_int] at h
  split at h
  · have there : c ∈ Nat.toDigits 10 n.natAbs := by
      rw [List.nil_append] at h
      rw [h]
      exact List.mem_cons_self
    exact .inl (Nat.isDigit_of_mem_toDigits (by decide) (by decide) there)
  · exact .inr (List.cons.inj h).1.symm

/-- A text is written with a quote first. -/
theorem Quoted.head {text written : List Char} (h : Quoted text written) :
    ∃ c more, written = c :: more ∧ (c = '"' ∨ c = '\'') := by
  cases h with
  | basic => exact ⟨_, _, rfl, .inl rfl⟩
  | literal => exact ⟨_, _, rfl, .inr rfl⟩
  | multiBasic => exact ⟨_, _, rfl, .inl rfl⟩
  | multiLiteral => exact ⟨_, _, rfl, .inr rfl⟩

/-- **A plain value is read back.** -/
theorem scalar_writeScalar {v : Value} (h : IsScalar v) {rest : List Char}
    (delimited : Delimited rest) {fuel : Nat} (enough : (writeScalar v).toList.length < fuel) :
    scalar fuel ((writeScalar v).toList ++ rest) = some (v, rest) := by
  cases v with
  | text content =>
      have read := string_writeString content delimited enough
      obtain ⟨c, more, eq, quote⟩ := (quoted_writeString content).head
      rw [writeScalar, eq]
      rw [eq] at read
      exact scalar_of_quote quote read
  | integer n =>
      have read := number_toString h delimited enough
      have some : (toString n).toList ≠ [] := by
        rw [toList_toString_int]
        exact List.append_ne_nil_of_right_ne_nil _ Nat.toDigits_ne_nil
      obtain ⟨c, more, eq⟩ := List.exists_cons_of_ne_nil some
      have first := head_toString_int eq
      rw [writeScalar]
      rw [eq, List.cons_append] at read ⊢
      rw [scalar_of_number ?_, read]
      rcases first with digit | rfl
      · intro there
        have none : ['"', '\'', 't', 'f'].any Char.isDigit = false := by decide
        exact List.any_eq_false.1 none c there digit
      · decide
  | boolean b =>
      cases b <;> rfl
  | decimal | moment | array | table => exact h.elim

/-! ### Between values -/

/-- A text that goes on with no blank, no line end and no comment. -/
def Solid (text : List Char) : Prop :=
  ∀ c ∈ text.head?, c ∉ [' ', '\t', '\n', '\r', '#']

theorem solid_cons {c : Char} (h : c ∉ [' ', '\t', '\n', '\r', '#']) (text : List Char) :
    Solid (c :: text) := by
  rintro _ ⟨⟩
  exact h

section

variable {text rest : List Char} {fuel : Nat}

/-- Nothing that may stand between values starts a solid text. -/
theorem Solid.stops (h : Solid text) {class? : Char → Bool}
    (within : ∀ c, class? c = true → c ∈ [' ', '\t', '\n', '\r', '#']) : Stops class? text := by
  intro c there
  by_contra inside
  exact h c there (within c (by simpa using inside))

theorem Solid.blanks (h : Solid text) : Toml.blanks text = some ((), text) :=
  blanks_of_stops (h.stops fun c blank => by
    rcases isBlank_iff.1 blank with rfl | rfl <;> decide)

theorem comment_of_stops (stops : Stops (· == '#') text) : comment text = some ((), text) := by
  simp [comment, char?_of_stops stops]

theorem Solid.comment (h : Solid text) : Toml.comment text = some ((), text) :=
  comment_of_stops (h.stops fun c hash => by simp [eq_of_beq hash])

/-- In particular no line ends there. -/
theorem Solid.lineEnd (h : Solid text) : Toml.lineEnd text = none := by
  have noLine : Stops (· == '\n') text := h.stops fun c line => by simp [eq_of_beq line]
  have noCarriage : Stops (· == '\r') text := h.stops fun c line => by simp [eq_of_beq line]
  simp [Toml.lineEnd, char_of_stops noLine, literal_of_stops noCarriage]

theorem Solid.blankLine (h : Solid text) : Toml.blankLine text = none := by
  simp [Toml.blankLine, h.comment, h.lineEnd]

/-- There are no empty lines to be skipped either. -/
theorem Solid.blankLines (h : Solid text) (fuel : Nat) :
    Toml.blankLines fuel text = some ((), text) := by
  simp [Toml.blankLines, h.blanks, many_of_none h.blankLine, h.comment]

/-- A line end is taken with the blanks of the next line. -/
theorem blankLines_line (solid : Solid (text.dropWhile isBlank)) (some : 0 < fuel) :
    blankLines fuel ('\n' :: text) = .some ((), text.dropWhile isBlank) := by
  obtain ⟨fuel, rfl⟩ := Nat.exists_eq_add_one.2 some
  have line : blankLine ('\n' :: text) = .some ((), text.dropWhile isBlank) := by
    simp [blankLine, comment, lineEnd, blanks_apply]
  have none : blanks ('\n' :: text) = .some ((), '\n' :: text) :=
    blanks_of_stops (stops_cons (by decide))
  simp [blankLines, none, many_of_some line, many_of_none solid.blankLine, solid.comment]

/-- A plain value begins with nothing that may stand between values, or around those inside one. -/
theorem head_of_scalar {r : Value × List Char} (h : scalar fuel text = some r) :
    ∀ c ∈ text.head?, c ∉ [' ', '\t', '\n', '\r', '#', '[', '\x7b', ']'] := by
  intro c first there
  obtain ⟨more, rfl⟩ := List.head?_eq_some_iff.1 first
  have outside : [' ', '\t', '\n', '\r', '#', '[', '\x7b', ']'].any (fun x =>
      x.isDigit || ['"', '\'', 't', 'f', '-', '+', 'i', 'n'].contains x) = false := by decide
  obtain ⟨digit, unlisted⟩ := Bool.or_eq_false_iff.1
    (Bool.eq_false_iff.2 (List.any_eq_false.1 outside c there))
  rw [scalar_of_other digit (by simpa using unlisted)] at h
  cases h

/-- A plain value starts a solid text. -/
theorem solid_of_scalar {r : Value × List Char} (h : scalar fuel text = some r) : Solid text := by
  intro c first there
  exact head_of_scalar h c first (by
    simp only [List.mem_cons] at there ⊢
    tauto)

/-- Without a bracket in front, a value is a plain one. -/
theorem value_eq_scalar (noArray : text.head? ≠ some '[') (noTable : text.head? ≠ some '\x7b')
    (depth : Nat) : value fuel depth text = scalar fuel text := by
  cases depth with
  | zero => rfl
  | succ depth => simp only [value, valueStep, bind_apply, peek_apply, Option.bind_some]

/-- A plain value is read as a value. -/
theorem value_of_scalar {r : Value × List Char} (h : scalar fuel text = some r) (depth : Nat) :
    value fuel depth text = some r := by
  have first := head_of_scalar h
  rw [value_eq_scalar (fun eq => first _ eq (by decide)) (fun eq => first _ eq (by decide)), h]

/-- No value starts with the end of an array. -/
theorem value_of_close (fuel depth : Nat) (rest : List Char) :
    value fuel depth (']' :: rest) = none := by
  rw [value_eq_scalar (by simp) (by simp), scalar_of_other (by decide) (by decide)]

end

/-! ### Arrays -/

section

variable {rest : List Char} {fuel depth : Nat}

theorem delimited_cons {c : Char} (h : c ∈ ['\n', ',', ']']) (more : List Char) :
    Delimited (c :: more) :=
  ⟨c, more, rfl, h⟩

/-- The lines of the items of an array, and its end. -/
def itemLines (items : List Value) (rest : List Char) : List Char :=
  (items.flatMap fun item => "    ".toList ++ ((writeScalar item).toList ++ ",\n".toList)) ++
    ']' :: rest

theorem solid_writeScalar {v : Value} (h : IsScalar v) (delimited : Delimited rest) :
    Solid ((writeScalar v).toList ++ rest) :=
  solid_of_scalar (scalar_writeScalar h delimited (Nat.lt_succ_self _))

/-- After its indentation an item is followed by a comma and by the lines of the others. -/
theorem dropWhile_itemLines_cons {item : Value} (h : IsScalar item) (items : List Value)
    (rest : List Char) : (itemLines (item :: items) rest).dropWhile isBlank =
      (writeScalar item).toList ++ (',' :: '\n' :: itemLines items rest) := by
  have solid : Solid ((writeScalar item).toList ++ (',' :: '\n' :: itemLines items rest)) :=
    solid_writeScalar h (delimited_cons (by decide) _)
  have indented : itemLines (item :: items) rest =
      "    ".toList ++ ((writeScalar item).toList ++ (',' :: '\n' :: itemLines items rest)) := by
    simp [itemLines]
  have blank : ∀ c ∈ "    ".toList, isBlank c = true := List.all_eq_true.1 rfl
  have read := Option.some.inj (solid.blanks.symm.trans (blanks_apply _))
  rw [indented, List.dropWhile_append_of_pos blank]
  exact (Prod.mk.inj read).2.symm

/-- The lines of an array are solid once their indentation has been skipped. -/
theorem solid_itemLines {items : List Value} (plain : ∀ item ∈ items, IsScalar item)
    (rest : List Char) : Solid ((itemLines items rest).dropWhile isBlank) := by
  cases items with
  | nil => exact solid_cons (by decide) rest
  | cons item items =>
      have h := plain item List.mem_cons_self
      rw [dropWhile_itemLines_cons h]
      exact solid_writeScalar h (delimited_cons (by decide) _)

/-- **The items of an array are read back** from the lines that they stand on. -/
theorem many_arrayItem {items : List Value} (plain : ∀ item ∈ items, IsScalar item)
    (enough : (itemLines items rest).length ≤ fuel) {n : Nat} (count : items.length ≤ n) :
    many (arrayItem fuel (value fuel depth)) n ((itemLines items rest).dropWhile isBlank) =
      some (items, ']' :: rest) := by
  induction items generalizing n with
  | nil =>
      refine many_of_none ?_ n
      change arrayItem fuel (value fuel depth) (']' :: rest) = none
      simp [arrayItem, value_of_close]
  | cons item items ih =>
      obtain ⟨n, rfl⟩ := Nat.exists_eq_add_one.2 (Nat.lt_of_lt_of_le (Nat.succ_pos _) count)
      have h := plain item List.mem_cons_self
      have others : ∀ item ∈ items, IsScalar item := fun i hi => plain i (.tail _ hi)
      have length : (writeScalar item).toList.length < fuel ∧
          (itemLines items rest).length ≤ fuel := by
        simp [itemLines] at enough ⊢
        omega
      have read : value fuel depth ((writeScalar item).toList ++
          (',' :: '\n' :: itemLines items rest)) =
            some (item, ',' :: '\n' :: itemLines items rest) :=
        value_of_scalar (scalar_writeScalar h (delimited_cons (by decide) _) length.1) depth
      have comma : Solid (',' :: '\n' :: itemLines items rest) := solid_cons (by decide) _
      have line := blankLines_line (solid_itemLines others rest) (Nat.zero_lt_of_lt length.1)
      have item' : arrayItem fuel (value fuel depth) ((writeScalar item).toList ++
          (',' :: '\n' :: itemLines items rest)) =
            some (item, (itemLines items rest).dropWhile isBlank) := by
        simp [arrayItem, read, comma.blankLines, line]
      rw [dropWhile_itemLines_cons h, many_of_some item',
        ih others length.2 (Nat.le_of_succ_le_succ count)]
      rfl

end

/-! ### Values of keys -/

/-- A value that may stand on the right of an equals sign in a written document. -/
inductive IsFlat : Value → Prop where
  | scalar {v : Value} (h : IsScalar v) : IsFlat v
  | array {items : List Value} (plain : ∀ item ∈ items, IsScalar item) : IsFlat (.array items)

/-- A plain value is written in its place. -/
theorem writeValue_of_scalar {v : Value} (h : IsScalar v) : writeValue v = writeScalar v := by
  cases v with
  | array => exact h.elim
  | text | integer | boolean | decimal | moment | table => rfl

section

variable {rest : List Char} {fuel : Nat} (depth : Nat)

/-- An array without line ends has one item at most. -/
theorem array_singleton {item : Value} (h : IsScalar item)
    (enough : (writeScalar item).toList.length < fuel) :
    array fuel (value fuel depth) ('[' :: ((writeScalar item).toList ++ ']' :: rest)) =
      some (.array [item], rest) := by
  have closing : Solid (']' :: rest) := solid_cons (by decide) rest
  have delimited : Delimited (']' :: rest) := delimited_cons (by decide) rest
  have read := value_of_scalar (scalar_writeScalar h delimited enough) depth
  have item' : arrayItem fuel (value fuel depth) ((writeScalar item).toList ++ ']' :: rest) =
      some (item, ']' :: rest) := by
    simp [arrayItem, read, closing.blankLines]
  have ends : arrayItem fuel (value fuel depth) (']' :: rest) = none := by
    simp [arrayItem, value_of_close]
  obtain ⟨n, rfl⟩ := Nat.exists_eq_add_one.2 (Nat.zero_lt_of_lt enough)
  simp [array, (solid_writeScalar h delimited).blankLines, many_of_some item', many_of_none ends]

/-- **An array reads back from its lines.** -/
theorem array_itemLines {items : List Value} (plain : ∀ item ∈ items, IsScalar item)
    (enough : (itemLines items rest).length < fuel) :
    array fuel (value fuel depth) ('[' :: '\n' :: itemLines items rest) =
      some (.array items, rest) := by
  have count : items.length ≤ fuel := by
    have := length_le_flatMap (fun item => by simp : ∀ item : Value,
      "    ".toList ++ ((writeScalar item).toList ++ ",\n".toList) ≠ []) items
    rw [itemLines, List.length_append] at enough
    omega
  have opened := blankLines_line (solid_itemLines plain rest) (Nat.zero_lt_of_lt enough)
  simp [array, opened, many_arrayItem plain (Nat.le_of_lt enough) count]

/-- A value that is written starts a solid text. -/
theorem solid_writeValue {v : Value} (h : IsFlat v) (delimited : Delimited rest) :
    Solid ((writeValue v).toList ++ rest) := by
  cases h with
  | scalar h =>
      rw [writeValue_of_scalar h]
      exact solid_writeScalar h delimited
  | @array items =>
      obtain ⟨more, eq⟩ : ∃ more, (writeValue (.array items)).toList = '[' :: more := by
        match items with
        | [] | [_] | _ :: _ :: _ => simp [writeValue]
      rw [eq]
      exact solid_cons (by decide) _

theorem toList_itemLines (items : List Value) :
    (String.join (items.map fun i => s!"    {writeScalar i},\n")).toList =
      items.flatMap fun item => "    ".toList ++ ((writeScalar item).toList ++ ",\n".toList) := by
  rw [String.toList_join, List.flatMap_map]
  refine List.flatMap_congr fun item _ => ?_
  change ("    " ++ writeScalar item ++ ",\n").toList = _
  rw [String.toList_append, String.toList_append, List.append_assoc]

theorem array_nil (rest : List Char) :
    array fuel (value fuel depth) ('[' :: ']' :: rest) = some (.array [], rest) := by
  have closing : Solid (']' :: rest) := solid_cons (by decide) rest
  have ends : arrayItem fuel (value fuel depth) (']' :: rest) = none := by
    simp [arrayItem, value_of_close]
  simp [array, closing.blankLines, many_of_none ends]

/-- **A value on the right of an equals sign is read back.** -/
theorem value_writeValue {v : Value} (h : IsFlat v) (delimited : Delimited rest)
    (enough : ((writeValue v).toList ++ rest).length < fuel) :
    value fuel (depth + 1) ((writeValue v).toList ++ rest) = some (v, rest) := by
  have bracket : ∀ text, value fuel (depth + 1) ('[' :: text) =
      array fuel (value fuel depth) ('[' :: text) := fun _ => rfl
  cases h with
  | scalar h =>
      rw [writeValue_of_scalar h] at enough ⊢
      rw [List.length_append] at enough
      exact value_of_scalar (scalar_writeScalar h delimited (by omega)) _
  | @array items plain =>
      match items, plain with
      | [], _ => exact array_nil depth rest
      | [item], plain =>
          have read : array fuel (value fuel depth)
              ('[' :: ((writeScalar item).toList ++ ']' :: rest)) = some (.array [item], rest) := by
            refine array_singleton depth (plain item List.mem_cons_self) ?_
            simp [writeValue] at enough
            omega
          simpa [writeValue, bracket] using read
      | first :: second :: items, plain =>
          have spelled : (writeValue (.array (first :: second :: items))).toList ++ rest =
              '[' :: '\n' :: itemLines (first :: second :: items) rest := by
            rw [writeValue, String.toList_append, String.toList_append, toList_itemLines]
            · simp [itemLines]
            all_goals exact nofun
          rw [spelled] at enough ⊢
          rw [bracket]
          exact array_itemLines depth plain (by simp at enough ⊢; omega)

end

end CodeSurvey.Toml
