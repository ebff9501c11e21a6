import CodeSurvey.Proofs.Toml.Values

/-!
# Documents are read back

The lines of a written document are read back one by one.

* `key_dotted`: a key of bare parts is read back.
* `expressionLine_spells`: so is a line, be it empty, a header or an entry.
* `read_writeSections`: the lines of a written document are its headers and entries, with an empty
  line between two sections and another at the end.
-/

namespace CodeSurvey.Toml

open Scanner

/-! ### Keys -/

/-- A part of a key that needs no quotes. -/
def IsBare (part : String) : Prop :=
  part.toList ≠ [] ∧ part.toList.all isBareKey = true

instance (part : String) : Decidable (IsBare part) :=
  inferInstanceAs (Decidable (_ ∧ _))

/-- What may stand behind a key. -/
structure EndsKey (rest : List Char) : Prop where
  stops : Stops isBareKey rest
  ends  : Stops (· == '.') (rest.dropWhile isBlank)

/-- The parts of a key after the first. -/
def dotted (parts : List String) : List Char :=
  parts.flatMap fun part => '.' :: part.toList

section

variable {rest : List Char} {fuel : Nat}

/-- A bare name reads back as a key, up to where the name ends. -/
theorem simpleKey_bare {part : String} (bare : IsBare part) (stops : Stops isBareKey rest)
    (fuel : Nat) : simpleKey fuel (part.toList ++ rest) = some (part, rest) := by
  have read := takeWhile1_append bare.1 (List.all_eq_true.1 bare.2) stops
  simp [simpleKey, read, String.ofList_toList]

theorem stops_dotted (h : EndsKey rest) (parts : List String) :
    Stops isBareKey (dotted parts ++ rest) := by
  cases parts with
  | nil => exact h.stops
  | cons => exact stops_cons (by decide)

/-- A bare part begins with a character of its own. -/
theorem IsBare.stops {part : String} (bare : IsBare part) {class? : Char → Bool}
    (outside : ∀ c, class? c = true → isBareKey c = false) (rest : List Char) :
    Stops class? (part.toList ++ rest) := by
  obtain ⟨c, more, eq⟩ := List.exists_cons_of_ne_nil bare.1
  have first : isBareKey c = true :=
    List.all_eq_true.1 bare.2 c (by rw [eq]; exact List.mem_cons_self)
  rw [eq]
  refine stops_cons ?_
  by_contra inside
  rw [outside c (Bool.of_not_eq_false inside)] at first
  cases first

theorem IsBare.stops_char {part : String} (bare : IsBare part) {c : Char}
    (outside : isBareKey c = false) (rest : List Char) : Stops (· == c) (part.toList ++ rest) :=
  bare.stops (fun _ same => by rwa [eq_of_beq same]) rest

theorem IsBare.blanks {part : String} (bare : IsBare part) (rest : List Char) :
    Toml.blanks (part.toList ++ rest) = some ((), part.toList ++ rest) := by
  refine blanks_of_stops (bare.stops (fun c blank => ?_) rest)
  rcases isBlank_iff.1 blank with rfl | rfl <;> decide

/-- So does one after a dot. -/
theorem laterKey_bare {part : String} (bare : IsBare part) (stops : Stops isBareKey rest)
    (fuel : Nat) : laterKey fuel ('.' :: (part.toList ++ rest)) = some (part, rest) := by
  have none : blanks ('.' :: (part.toList ++ rest)) = some ((), '.' :: (part.toList ++ rest)) :=
    blanks_of_stops (stops_cons (by decide))
  simp [laterKey, none, bare.blanks, simpleKey_bare bare stops]

/-- The parts of a dotted key read back one after another. -/
theorem many_laterKey (h : EndsKey rest) {parts : List String} (bare : ∀ part ∈ parts, IsBare part)
    {n : Nat} (enough : parts.length ≤ n) :
    many (laterKey fuel) n (dotted parts ++ rest) = some (parts, rest) := by
  induction parts generalizing n with
  | nil =>
      refine many_of_none ?_ n
      simp [dotted, laterKey, blanks_apply, char_of_stops h.ends]
  | cons part parts ih =>
      obtain ⟨n, rfl⟩ := Nat.exists_eq_add_one.2 (Nat.lt_of_lt_of_le (Nat.succ_pos _) enough)
      have read := laterKey_bare (bare part List.mem_cons_self) (stops_dotted h parts) fuel
      have later := ih (fun p hp => bare p (.tail _ hp)) (Nat.le_of_succ_le_succ enough)
      have split : dotted (part :: parts) ++ rest =
          '.' :: (part.toList ++ (dotted parts ++ rest)) := by simp [dotted]
      rw [split, many_of_some read, later]
      rfl

/-- **A key of bare parts is read back.** -/
theorem key_dotted (h : EndsKey rest) {first : String} {parts : List String}
    (bare : ∀ part ∈ first :: parts, IsBare part) (few : parts.length < greatestDepth)
    (enough : parts.length ≤ fuel) :
    key fuel (first.toList ++ (dotted parts ++ rest)) =
      some (((first :: parts).dropLast, (first :: parts).getLastD first), rest) := by
  have read := simpleKey_bare (bare first List.mem_cons_self) (stops_dotted h parts) fuel
  have later : many (laterKey fuel) fuel (dotted parts ++ rest) = some (parts, rest) :=
    many_laterKey h (fun p hp => bare p (.tail _ hp)) enough
  have fits : (first :: parts).length ≤ greatestDepth := few
  simp only [key, bind_apply, read, Option.bind_some, later, require_apply, fits, decide_true,
    if_true, pure_apply]

/-- A single name is a key without a table. -/
theorem key_bare (h : EndsKey rest) {name : String} (bare : IsBare name) (fuel : Nat) :
    key fuel (name.toList ++ rest) = some (([], name), rest) := by
  have own : ∀ part ∈ [name], IsBare part := by simpa using bare
  have read := key_dotted h own (show 0 < greatestDepth by decide) (Nat.zero_le fuel)
  simpa [dotted] using read

end

/-! ### Lines -/

/-- A text that a written document spells a line with. -/
inductive Spells : Line → List Char → Prop where
  | nothing : Spells .nothing []
  | table {first : String} {parts : List String} (bare : ∀ part ∈ first :: parts, IsBare part)
      (few : parts.length < greatestDepth) :
      Spells (.table (first :: parts).dropLast ((first :: parts).getLastD first))
        ('[' :: (first.toList ++ (dotted parts ++ [']'])))
  | pair {name : String} {v : Value} (bare : IsBare name) (h : IsFlat v) :
      Spells (.pair [] name v) (name.toList ++ (' ' :: '=' :: ' ' :: (writeValue v).toList))

section

variable {rest : List Char} {size : Nat}

theorem blanks_of_char {c : Char} (outside : isBlank c = false) (rest : List Char) :
    blanks (c :: rest) = some ((), c :: rest) :=
  blanks_of_stops (stops_cons outside)

theorem comment_line (rest : List Char) : comment ('\n' :: rest) = some ((), '\n' :: rest) :=
  comment_of_stops (stops_cons (by decide))

theorem blanks_line (rest : List Char) : blanks ('\n' :: rest) = some ((), '\n' :: rest) :=
  blanks_of_char (by decide) rest

/-- An empty line says nothing. -/
theorem expressionLine_nothing (size : Nat) (rest : List Char) :
    expressionLine size ('\n' :: rest) = some (.nothing, '\n' :: rest) := by
  simp [expressionLine, blanks_line, comment_line]

/-- The header of a table reads back with all parts of its name. -/
theorem header_dotted {first : String} {parts : List String}
    (bare : ∀ part ∈ first :: parts, IsBare part) (few : parts.length < greatestDepth)
    (enough : parts.length ≤ size) (rest : List Char) :
    header size ('[' :: (first.toList ++ (dotted parts ++ ']' :: rest))) =
      some (.table (first :: parts).dropLast ((first :: parts).getLastD first), rest) := by
  have own := bare first List.mem_cons_self
  have ends : EndsKey (']' :: rest) := ⟨stops_cons (by decide), stops_cons (by decide)⟩
  have read := key_dotted ends bare few enough
  have single := char?_of_stops (own.stops_char (by decide : isBareKey '[' = false)
    (dotted parts ++ ']' :: rest))
  have closed := blanks_of_char (by decide : isBlank ']' = false) rest
  simp only [header, bind_apply, char_cons, if_true, Option.bind_some, single, own.blanks, read,
    closed, Bool.false_eq_true, if_false, pure_apply]

/-- So does its line. -/
theorem expressionLine_table {first : String} {parts : List String}
    (bare : ∀ part ∈ first :: parts, IsBare part) (few : parts.length < greatestDepth)
    (enough : parts.length ≤ size) (rest : List Char) :
    expressionLine size ('[' :: (first.toList ++ (dotted parts ++ ']' :: '\n' :: rest))) =
      some (.table (first :: parts).dropLast ((first :: parts).getLastD first), '\n' :: rest) := by
  have read := header_dotted bare few enough ('\n' :: rest)
  have opened := blanks_of_char (by decide : isBlank '[' = false)
    (first.toList ++ (dotted parts ++ ']' :: '\n' :: rest))
  simp only [expressionLine, bind_apply, opened, Option.bind_some, peek_apply, List.head?_cons,
    read, blanks_line, comment_line, pure_apply]

/-- A key with its value reads back. -/
theorem keyValue_written {name : String} {v : Value} (bare : IsBare name) (h : IsFlat v)
    (enough : ((writeValue v).toList ++ '\n' :: rest).length < size) :
    keyValue size (value size greatestDepth)
        (name.toList ++ (' ' :: '=' :: ' ' :: ((writeValue v).toList ++ '\n' :: rest))) =
      some ((([], name), v), '\n' :: rest) := by
  have ends : EndsKey (' ' :: '=' :: ' ' :: ((writeValue v).toList ++ '\n' :: rest)) :=
    ⟨stops_cons (by decide), stops_cons (by decide)⟩
  have delimited : Delimited ('\n' :: rest) := delimited_cons (by decide) rest
  have read := value_writeValue 78 h delimited enough
  have before : blanks (' ' :: '=' :: ' ' :: ((writeValue v).toList ++ '\n' :: rest)) =
      some ((), '=' :: ' ' :: ((writeValue v).toList ++ '\n' :: rest)) := rfl
  have after : blanks (' ' :: ((writeValue v).toList ++ '\n' :: rest)) =
      some ((), (writeValue v).toList ++ '\n' :: rest) := (solid_writeValue h delimited).blanks
  simp only [keyValue, bind_apply, key_bare ends bare, Option.bind_some, before, char_cons, if_true,
    after, greatestDepth, read, pure_apply]

/-- So does the line that they stand on. -/
theorem expressionLine_pair {name : String} {v : Value} (bare : IsBare name) (h : IsFlat v)
    (enough : ((writeValue v).toList ++ '\n' :: rest).length < size) :
    expressionLine size
        (name.toList ++ (' ' :: '=' :: ' ' :: ((writeValue v).toList ++ '\n' :: rest))) =
      some (.pair [] name v, '\n' :: rest) := by
  have read := keyValue_written bare h enough
  have opened := bare.blanks (' ' :: '=' :: ' ' :: ((writeValue v).toList ++ '\n' :: rest))
  have ne : ∀ x, isBareKey x = false → (name.toList ++
      (' ' :: '=' :: ' ' :: ((writeValue v).toList ++ '\n' :: rest))).head? ≠ some x := by
    intro x outside there
    exact absurd (bare.stops_char outside _ x there) (by simp)
  generalize name.toList ++ (' ' :: '=' :: ' ' :: ((writeValue v).toList ++ '\n' :: rest)) = text
    at *
  cases text with
  | nil => cases read
  | cons c text =>
      have noHeader : c ≠ '[' := fun eq => ne '[' (by decide) (by rw [eq]; rfl)
      have noComment : c ≠ '#' := fun eq => ne '#' (by decide) (by rw [eq]; rfl)
      have noLine : c ≠ '\n' := fun eq => ne '\n' (by decide) (by rw [eq]; rfl)
      have noCarriage : c ≠ '\r' := fun eq => ne '\r' (by decide) (by rw [eq]; rfl)
      simp only [expressionLine, bind_apply, opened, Option.bind_some, peek_apply, List.head?_cons,
        read, blanks_line, comment_line, pure_apply]

/-- **A line is read back.** -/
theorem expressionLine_spells {line : Line} {written : List Char} (h : Spells line written)
    (enough : (written ++ '\n' :: rest).length < size) :
    expressionLine size (written ++ '\n' :: rest) = some (line, '\n' :: rest) := by
  cases h with
  | nothing => exact expressionLine_nothing size rest
  | @table first parts bare few =>
      have short : parts.length ≤ size := by
        have := length_le_flatMap (fun part : String => List.cons_ne_nil '.' part.toList) parts
        simp only [dotted, List.length_append, List.length_cons] at enough
        omega
      simpa using expressionLine_table bare few short rest
  | @pair name v bare h =>
      have short : ((writeValue v).toList ++ '\n' :: rest).length < size := by
        simp only [List.length_append, List.length_cons] at enough ⊢
        omega
      simpa using expressionLine_pair bare h short

end

/-- The text of lines. -/
def textOf (lines : List (Line × List Char)) : List Char :=
  lines.flatMap fun line => line.2 ++ ['\n']

theorem textOf_cons (line : Line × List Char) (lines : List (Line × List Char)) :
    textOf (line :: lines) = line.2 ++ '\n' :: textOf lines := by
  simp [textOf]

theorem textOf_append (lines later : List (Line × List Char)) :
    textOf (lines ++ later) = textOf lines ++ textOf later :=
  List.flatMap_append

/-- **Lines are read back**, and an empty one after the last line end. -/
theorem documentLines_textOf {lines : List (Line × List Char)} {size fuel : Nat}
    (spelled : ∀ line ∈ lines, Spells line.1 line.2) (fits : (textOf lines).length < size)
    (enough : lines.length < fuel) :
    documentLines size fuel (textOf lines) = some (lines.map Prod.fst ++ [.nothing], []) := by
  induction lines generalizing fuel with
  | nil =>
      obtain ⟨fuel, rfl⟩ := Nat.exists_eq_add_one.2 enough
      rfl
  | cons line lines ih =>
      obtain ⟨fuel, rfl⟩ := Nat.exists_eq_add_one.2 (Nat.zero_lt_of_lt enough)
      rw [textOf_cons] at fits ⊢
      have shorter : (textOf lines).length < size := by
        simp only [List.length_append, List.length_cons] at fits
        omega
      have read := expressionLine_spells (spelled line List.mem_cons_self) fits
      have later := ih (fun l hl => spelled l (.tail _ hl)) shorter (Nat.lt_of_succ_lt_succ enough)
      simp [documentLines, read, lineEnd, later]

/-! ### Sections -/

/-- The line of a header; the first section has none. -/
def headerLines : List String → List (Line × List Char)
  | []             => []
  | first :: parts =>
    [(.table (first :: parts).dropLast ((first :: parts).getLastD first),
      '[' :: (first.toList ++ (dotted parts ++ [']'])))]

/-- The line of an entry. -/
def entryLine (entry : String × Value) : Line × List Char :=
  (.pair [] entry.1 entry.2, entry.1.toList ++ (' ' :: '=' :: ' ' :: (writeValue entry.2).toList))

/-- The lines of a section. -/
def sectionLines (path : List String) (entries : List (String × Value)) :
    List (Line × List Char) :=
  headerLines path ++ entries.map entryLine

/-- The lines of sections, each given by the path of its header and by its entries. -/
def linesOf : List (List String × List (String × Value)) → List (Line × List Char)
  | []                => []
  | [s]               => sectionLines s.1 s.2
  | s :: next :: rest => sectionLines s.1 s.2 ++ (.nothing, []) :: linesOf (next :: rest)

/-- A section whose keys need no quotes. -/
structure IsPlainSection (path : List String) (entries : List (String × Value)) : Prop where
  bare    : ∀ part ∈ path, IsBare part
  few     : path.length ≤ greatestDepth
  keys    : ∀ entry ∈ entries, IsBare entry.1
  written : ∀ entry ∈ entries, IsFlat entry.2

section

variable {path : List String} {entries : List (String × Value)}

/-- The name of a section is spelled with dots between its parts. -/
theorem toList_dotted (first : String) (parts : List String) :
    (String.intercalate "." (first :: parts)).toList = first.toList ++ dotted parts := by
  induction parts generalizing first with
  | nil => simp [dotted]
  | cons part parts ih =>
      rw [String.intercalate_cons_cons, String.toList_append, ih]
      simp [dotted]

/-- The text of a section is that of its lines. -/
theorem toList_writeSection (bare : ∀ part ∈ path, IsBare part) (entries : List (String × Value)) :
    (writeSection (String.intercalate "." path) entries).toList =
      textOf (sectionLines path entries) := by
  have body : (String.join (entries.map fun entry => writeEntry entry.1 entry.2)).toList =
      textOf (entries.map entryLine) := by
    rw [String.toList_join, List.flatMap_map, textOf, List.flatMap_map]
    refine List.flatMap_congr fun entry _ => ?_
    change (entry.1 ++ " = " ++ writeValue entry.2 ++ "\n").toList = _
    simp [entryLine]
  rw [writeSection, String.toList_append, sectionLines, textOf_append]
  refine congrArg₂ _ ?_ body
  cases path with
  | nil => rfl
  | cons first parts =>
      have spelled := toList_dotted first parts
      have some : String.intercalate "." (first :: parts) ≠ "" := by
        intro empty
        rw [empty] at spelled
        exact (bare first List.mem_cons_self).1 (List.append_eq_nil_iff.1 spelled.symm).1
      generalize String.intercalate "." (first :: parts) = name at *
      rw [if_neg some]
      change ("[" ++ name ++ "]\n").toList = _
      simp [headerLines, textOf, spelled]

/-- Every line of a section spells what it says. -/
theorem spells_section (h : IsPlainSection path entries) :
    ∀ line ∈ sectionLines path entries, Spells line.1 line.2 := by
  intro line there
  rcases List.mem_append.1 there with header | below
  · cases path with
    | nil => cases header
    | cons first parts =>
        obtain rfl := List.mem_singleton.1 header
        exact .table h.bare h.few
  · obtain ⟨entry, listed, rfl⟩ := List.mem_map.1 below
    exact .pair (h.keys entry listed) (h.written entry listed)

end

section

variable {sections : List (List String × List (String × Value))}

/-- Sections are written line by line, an empty line before each but the first. -/
theorem toList_writeSections : ∀ {sections : List (List String × List (String × Value))},
    (∀ s ∈ sections, IsPlainSection s.1 s.2) →
      (writeSections (sections.map fun s => (String.intercalate "." s.1, s.2))).toList =
        textOf (linesOf sections)
  | [], _ => rfl
  | [s], plain => by
      rw [linesOf, ← toList_writeSection (plain s List.mem_cons_self).bare]
      simp [writeSections]
  | s :: next :: rest, plain => by
      have later := toList_writeSections fun t ht => plain t (List.mem_cons_of_mem s ht)
      rw [linesOf, textOf_append, textOf_cons, ← later,
        ← toList_writeSection (plain s List.mem_cons_self).bare]
      simp [writeSections, String.intercalate_cons_cons]

/-- **Every line that is written spells what it says.** -/
theorem spells_linesOf : ∀ {sections : List (List String × List (String × Value))},
    (∀ s ∈ sections, IsPlainSection s.1 s.2) → ∀ line ∈ linesOf sections, Spells line.1 line.2
  | [], _ => nofun
  | [s], plain => spells_section (plain s List.mem_cons_self)
  | s :: next :: rest, plain => by
      intro line there
      rcases List.mem_append.1 there with own | later
      · exact spells_section (plain s List.mem_cons_self) line own
      · rcases List.mem_cons.1 later with rfl | later
        · exact .nothing
        · exact spells_linesOf (fun t ht => plain t (.tail _ ht)) line later

/-- A written line begins with no mark. -/
theorem Spells.stops {line : Line} {written : List Char} (h : Spells line written)
    (rest : List Char) : Stops (fun c => c.toNat == 0xFEFF) (written ++ '\n' :: rest) := by
  cases h with
  | nothing => exact stops_cons (by decide)
  | table => exact stops_cons (by decide)
  | pair bare =>
      rw [List.append_assoc]
      refine bare.stops (fun c mark => ?_) _
      have code : c = Char.ofNat 0xFEFF := by rw [← eq_of_beq mark, Char.ofNat_toNat]
      rw [code]
      decide

/-- What is written starts with no byte order mark. -/
theorem dropMark_textOf {lines : List (Line × List Char)}
    (spelled : ∀ line ∈ lines, Spells line.1 line.2) : dropMark (textOf lines) = textOf lines := by
  have stops : Stops (fun c => c.toNat == 0xFEFF) (textOf lines) := by
    cases lines with
    | nil => exact stops_nil _
    | cons line lines =>
        rw [textOf_cons]
        exact (spelled line List.mem_cons_self).stops _
  cases text : textOf lines with
  | nil => rfl
  | cons c rest =>
      rw [text] at stops
      rw [dropMark, if_neg (by simpa using stops c rfl)]

/-- **Written sections are read back line by line.** -/
theorem read_writeSections (plain : ∀ s ∈ sections, IsPlainSection s.1 s.2) :
    read (writeSections (sections.map fun s => (String.intercalate "." s.1, s.2))) =
      (assemble ((linesOf sections).map Prod.fst ++ [.nothing]) [] []).map fun slots =>
        .table (finishEntries slots) := by
  have spelled := spells_linesOf plain
  have count : (linesOf sections).length ≤ (textOf (linesOf sections)).length :=
    length_le_flatMap (fun line => by simp) _
  have found := documentLines_textOf spelled (Nat.lt_succ_self _) (Nat.lt_succ_of_le count)
  simp only [read, toList_writeSections plain, dropMark_textOf spelled, found]

end

end CodeSurvey.Toml
