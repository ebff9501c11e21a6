import CodeSurvey.Document.Merge
import CodeSurvey.Proofs.Text.Lines

/-!
# Merging a document again

What is left of a document after it has been merged and is read again: the parts that people wrote
come back without the carriage returns that stood before their line ends, and after them come the
parts of the new text that look as if people wrote them.

* `Tidied`: the lines of a part as it is written down, against the lines it was read from.
* `handwritten_mergeDocument`: what people wrote in a merged document.
* `mergeDocument_again`: merging twice is merging once, if nothing gets lost or comes in.
* `mergeDocument_fixed_iff`: merging the same text again changes nothing exactly then.
-/

namespace CodeSurvey

open Text

/-! ### Section headers -/

theorem not_isSectionChar {c : Char} (blank : isBlank c) : isSectionChar c = false := by
  rw [Bool.eq_false_iff]
  intro h
  simp only [isBlank, Bool.or_eq_true, Bool.and_eq_true, decide_eq_true_eq, beq_iff_eq] at blank
  change (decide (65 ≤ c.val ∧ c.val ≤ 90) || (decide (97 ≤ c.val) && decide (c.val ≤ 122)) ||
    (decide (48 ≤ c.val) && decide (c.val ≤ 57)) || c == '_') = true at h
  simp only [Bool.or_eq_true, Bool.and_eq_true, decide_eq_true_eq, UInt32.le_iff_toNat_le,
    beq_iff_eq] at h
  change (((65 ≤ c.toNat ∧ c.toNat ≤ 90) ∨ (97 ≤ c.toNat ∧ c.toNat ≤ 122)) ∨
    (48 ≤ c.toNat ∧ c.toNat ≤ 57)) ∨ c = '_' at h
  rcases h with h | rfl
  · omega
  · simp at blank

/-- A character outside of a class ends what is taken. -/
theorem takeWhile_stop {p : Char → Bool} {c : Char} (stops : p c = false) (rest : List Char) :
    ∀ text : List Char, (text ++ c :: rest).takeWhile p = text.takeWhile p ∧
      (text ++ c :: rest).dropWhile p = text.dropWhile p ++ c :: rest
  | [] => by simp [stops]
  | d :: text => by
      have ih := takeWhile_stop stops rest text
      simp only [List.cons_append, List.takeWhile_cons, List.dropWhile_cons, ih.1]
      split
      · exact ⟨trivial, ih.2⟩
      · exact ⟨trivial, rfl⟩

/-- Blanks at the end of a line do not change the section that it starts. -/
theorem sectionName?_append {line blanks : List Char} (h : ∀ c ∈ blanks, isBlank c) :
    sectionName? (String.ofList (line ++ blanks)) = sectionName? (String.ofList line) := by
  cases blanks with
  | nil => rw [List.append_nil]
  | cons b blanks =>
      have blank := h b List.mem_cons_self
      have notColon : b ≠ ':' := by
        rintro rfl
        exact absurd blank (by decide)
      have notAt : b ≠ '@' := by
        rintro rfl
        exact absurd blank (by decide)
      cases line with
      | nil => simp [sectionName?, notAt]
      | cons c line =>
          by_cases starts : c = '@'
          · subst starts
            obtain ⟨take, drop⟩ := takeWhile_stop (not_isSectionChar blank) blanks line
            simp only [sectionName?, String.toList_ofList, List.cons_append, take, drop]
            cases line.takeWhile isSectionChar with
            | nil => rfl
            | cons first name =>
                cases line.dropWhile isSectionChar with
                | nil => simp [notColon]
                | cons d rest => by_cases colon : d = ':' <;> simp [colon]
          · simp [sectionName?, starts]

/-- A blank line starts no section. -/
theorem sectionName?_blank {line : List Char} (h : ∀ c ∈ line, isBlank c) :
    sectionName? (String.ofList line) = none := by
  have blank : sectionName? (String.ofList ([] ++ line)) = sectionName? (String.ofList []) :=
    sectionName?_append h
  exact blank

/-- A text whose first line starts a section. -/
def StartsWithSection (text : String) : Prop :=
  ∃ line rest, lines text = line :: rest ∧ (sectionName? line).isSome

/-- A text that starts with a section has nothing before it. -/
theorem StartsWithSection.splitSections {text : String} (h : StartsWithSection text) :
    (splitSections (lines text)).1 = [] := by
  obtain ⟨line, rest, eq, header⟩ := h
  rw [eq, CodeSurvey.splitSections]
  dsimp only
  rw [if_pos header]

/-- A text that begins with the header of a module starts with a section. -/
theorem startsWithSection_header {text : String} {rest : List Char}
    (h : text.toList = "@module:".toList ++ rest) : StartsWithSection text := by
  obtain ⟨more, later, eq⟩ := linesAfter_keeps (c := ':') (by decide) "eludom@".toList rest []
  have first : lines text =
      String.ofList ("@module:".toList ++ more) :: later.map String.ofList := by
    rw [lines, h]
    exact congrArg (List.map String.ofList) eq
  have starts : (sectionName? (String.ofList ("@module:".toList ++ more))).isSome := by
    simp only [sectionName?, String.toList_ofList]
    rfl
  exact ⟨_, _, first, starts⟩

/-! ### Tidied lines -/

/-- Lines with blanks dropped from the ends of some, and blank ones dropped at the end of all. -/
inductive Tidied : List String → List String → Prop where
  | nil {lines : List String} (blank : ∀ line ∈ lines, ∀ c ∈ line.toList, isBlank c) :
      Tidied lines []
  | cons {line blanks : List Char} {lines tidied : List String} (blank : ∀ c ∈ blanks, isBlank c)
      (rest : Tidied lines tidied) :
      Tidied (.ofList (line ++ blanks) :: lines) (.ofList line :: tidied)

/-- Tidied lines start the same sections. -/
theorem Tidied.sectionNames {lines tidied : List String} (h : Tidied lines tidied) :
    ∀ name ∈ tidied.map sectionName?, name ∈ lines.map sectionName? := by
  induction h with
  | nil => simp
  | cons blank _ ih =>
      intro name member
      rw [List.map_cons, sectionName?_append blank]
      rcases List.mem_cons.1 member with rfl | later
      · exact List.mem_cons_self
      · exact .tail _ (ih name later)

/-- Only blanks are dropped from the end of a line. -/
theorem dropReturn_blanks (line : List Char) :
    ∃ blanks, line = (dropReturn line.reverse).reverse ++ blanks ∧ ∀ c ∈ blanks, isBlank c := by
  rcases List.eq_nil_or_concat line with rfl | ⟨front, c, rfl⟩
  · exact ⟨[], rfl, by simp⟩
  · by_cases ret : c = '\r'
    · subst ret
      exact ⟨['\r'], by simp [dropReturn], by simp [isBlank_return]⟩
    · exact ⟨[], by simp [dropReturn, ret], by simp⟩

theorem dropBlanksEnd_blanks (line : List Char) :
    ∃ blanks, line = dropBlanksEnd line ++ blanks ∧ ∀ c ∈ blanks, isBlank c :=
  ⟨line.rtakeWhile isBlank, (List.rdropWhile_append_rtakeWhile ..).symm, fun _ =>
    List.mem_rtakeWhile_imp⟩

/-- The lines of a part as it is written down. -/
theorem tidied_lines : ∀ part : List String, (∀ line ∈ part, '\n' ∉ line.toList) →
    Tidied part (lines (trimEnd (unlines part)))
  | [], _ => .nil (by simp)
  | line :: part, plain => by
      have ih := tidied_lines part fun l hl => plain l (.tail _ hl)
      have here := plain line List.mem_cons_self
      have whole : (unlines (line :: part)).toList =
          line.toList ++ ['\n'] ++ (unlines part).toList := by simp
      rw [trimEnd, whole, dropBlanksEnd_append]
      split
      · next blank =>
          -- nothing but blanks comes after the line, so it is the last one, if it is left at all
          rw [List.all_eq_true] at blank
          rw [dropBlanksEnd_append, if_pos (by simp [isBlank_newline]), lines]
          obtain ⟨blanks, eq, ends⟩ := dropBlanksEnd_blanks line.toList
          have short : '\n' ∉ dropBlanksEnd line.toList := fun h =>
            here (eq ▸ List.mem_append_left _ h)
          have blankLine : ∀ l ∈ part, ∀ c ∈ l.toList, isBlank c := fun l hl c hc => blank c (by
            rw [toList_unlines]
            exact List.mem_flatMap.2 ⟨l, hl, List.mem_append_left _ hc⟩)
          have rest : Tidied part [] := .nil blankLine
          rw [String.toList_ofList]
          by_cases gone : dropBlanksEnd line.toList = []
          · rw [gone]
            refine .nil fun l hl c hc => ?_
            rcases List.mem_cons.1 hl with rfl | later
            · exact dropBlanksEnd_eq_nil_iff.1 gone c hc
            · exact blankLine l later c hc
          · rw [linesAfter_plain short (by simpa using gone)]
            have cons : Tidied (.ofList (dropBlanksEnd line.toList ++ blanks) :: part)
                [.ofList (dropBlanksEnd line.toList)] := .cons ends rest
            rw [← eq, String.ofList_toList] at cons
            exact cons
      · -- the line stays, but for the carriage return at its end
        obtain ⟨blanks, eq, ends⟩ := dropReturn_blanks line.toList
        have cons : Tidied (.ofList ((dropReturn line.toList.reverse).reverse ++ blanks) :: part)
            (.ofList (dropReturn line.toList.reverse).reverse :: lines (trimEnd (unlines part))) :=
          .cons ends ih
        rw [← eq, String.ofList_toList] at cons
        have cut : linesAfter [] (line.toList ++ ['\n'] ++ dropBlanksEnd (unlines part).toList) =
            (dropReturn line.toList.reverse).reverse ::
              linesAfter [] (dropBlanksEnd (unlines part).toList) := by
          rw [List.append_assoc, List.singleton_append, linesAfter_append,
            linesAfter_line _ _ here, List.append_nil, List.singleton_append]
        rw [lines, String.toList_ofList, cut, List.map_cons]
        rw [lines, trimEnd, String.toList_ofList] at cons
        exact cons

/-! ### Parts -/

section

variable {line : String} {lines more : List String}

/-- Lines without a header are all before the first section. -/
theorem splitSections_plain : ∀ {lines : List String}, (∀ l ∈ lines, sectionName? l = none) →
    splitSections lines = (lines, [])
  | [], _ => rfl
  | line :: later, h => by
      have rest : splitSections later = (later, []) :=
        splitSections_plain fun l hl => h l (.tail _ hl)
      simp [splitSections, rest, h line List.mem_cons_self]

/-- A header takes the lines after it up to the next one. -/
theorem splitSections_section (starts : (sectionName? line).isSome)
    (plain : ∀ l ∈ lines, sectionName? l = none) :
    splitSections (line :: lines) = ([], [line :: lines]) := by
  simp [splitSections, splitSections_plain plain, starts]

/-- Lines that start with a section are cut apart from those before them. -/
theorem splitSections_append (starts : (splitSections more).1 = []) : ∀ lines : List String,
    splitSections (lines ++ more) =
      ((splitSections lines).1, (splitSections lines).2 ++ (splitSections more).2)
  | [] => Prod.ext starts rfl
  | line :: later => by
      have rest := splitSections_append starts later
      simp only [List.cons_append, splitSections, rest]
      split <;> rfl

/-- A section starts with its header and has no other. -/
def IsSection (part : List String) : Prop :=
  ∃ line rest, part = line :: rest ∧ (sectionName? line).isSome ∧
    ∀ l ∈ rest, sectionName? l = none

/-- **Every part starts with a header**, but for what comes before the first. -/
theorem splitSections_parts : ∀ lines : List String,
    (∀ l ∈ (splitSections lines).1, l ∈ lines ∧ sectionName? l = none) ∧
      ∀ part ∈ (splitSections lines).2, (∀ l ∈ part, l ∈ lines) ∧ IsSection part
  | [] => by simp [splitSections]
  | line :: later => by
      obtain ⟨before, sections⟩ := splitSections_parts later
      have longer : ∀ part ∈ (splitSections later).2,
          (∀ l ∈ part, l ∈ line :: later) ∧ IsSection part := fun part hp =>
        ⟨fun l hl => .tail _ ((sections part hp).1 l hl), (sections part hp).2⟩
      simp only [splitSections]
      split
      · next starts =>
          refine ⟨by simp, fun part hp => ?_⟩
          rcases List.mem_cons.1 hp with rfl | hp
          · refine ⟨fun l hl => ?_, line, _, rfl, starts, fun l hl => (before l hl).2⟩
            rcases List.mem_cons.1 hl with rfl | hl
            · exact List.mem_cons_self
            · exact .tail _ (before l hl).1
          · exact longer part hp
      · next plain =>
          refine ⟨fun l hl => ?_, longer⟩
          rcases List.mem_cons.1 hl with rfl | hl
          · exact ⟨List.mem_cons_self, by simpa using plain⟩
          · exact ⟨.tail _ (before l hl).1, (before l hl).2⟩

/-- Every header starts a section. -/
theorem section_of_header (header : (sectionName? line).isSome) :
    ∀ {lines : List String}, line ∈ lines → ∃ rest, line :: rest ∈ (splitSections lines).2
  | first :: later, h => by
      rcases List.mem_cons.1 h with rfl | h
      · refine ⟨(splitSections later).1, ?_⟩
        rw [splitSections]
        dsimp only
        rw [if_pos header]
        exact List.mem_cons_self
      · obtain ⟨rest, member⟩ := section_of_header header h
        refine ⟨rest, ?_⟩
        rw [splitSections]
        dsimp only
        split
        · exact .tail _ member
        · exact member

end

/-! ### Parts as they are written down -/

/-- The text of a part, unless it is blank. -/
def tidy (part : List String) : Option String :=
  if isBlankText (unlines part) then none else some (trimEnd (unlines part))

/-- A text that ends in no blank. -/
def EndsFilled (text : String) : Prop :=
  ∃ front c, text.toList = front ++ [c] ∧ isBlank c = false

/-- The lines that a part gives when it is read again: its own, and the empty one after it. -/
def block (text : String) : List String :=
  lines text ++ [""]

/-- What is tidied ends with something other than blanks. -/
theorem tidy_eq_some {part : List String} {text : String} (h : tidy part = some text) :
    text = trimEnd (unlines part) ∧ EndsFilled text := by
  rw [tidy] at h
  split at h
  · cases h
  · next filled =>
      cases h
      refine ⟨rfl, ?_⟩
      have left : dropBlanksEnd (unlines part).toList ≠ [] := by
        rw [Ne, dropBlanksEnd_eq_nil_iff]
        rwa [isBlankText, List.all_eq_true] at filled
      refine ⟨(dropBlanksEnd (unlines part).toList).dropLast, _, ?_,
        Bool.eq_false_iff.2 (List.rdropWhile_last_not isBlank _ left)⟩
      rw [trimEnd, String.toList_ofList]
      exact (List.dropLast_append_getLast left).symm

/-- A section is never blank. -/
theorem tidy_section {part : List String} (h : IsSection part) : (tidy part).isSome := by
  obtain ⟨line, rest, rfl, header, -⟩ := h
  have filled : ¬isBlankText (unlines (line :: rest)) := by
    intro blank
    rw [isBlankText, List.all_eq_true, toList_unlines] at blank
    have none : sectionName? (String.ofList line.toList) = none := sectionName?_blank fun c hc =>
      blank c (List.mem_flatMap.2 ⟨line, List.mem_cons_self, List.mem_append_left _ hc⟩)
    rw [String.ofList_toList] at none
    rw [none] at header
    cases header
  rw [tidy, if_neg filled]
  rfl

namespace EndsFilled

variable {text : String} (h : EndsFilled text)

include h

theorem last : ∃ front c, text.toList = front ++ [c] ∧ isBlank c = false ∧ c ≠ '\n' ∧ c ≠ '\r' := by
  obtain ⟨front, c, eq, filled⟩ := h
  refine ⟨front, c, eq, filled, ?_, ?_⟩
  · rintro rfl
    exact absurd isBlank_newline (by simp [filled])
  · rintro rfl
    exact absurd isBlank_return (by simp [filled])

theorem linesAfter_newline :
    linesAfter [] (text.toList ++ ['\n']) = linesAfter [] text.toList := by
  obtain ⟨front, c, eq, -, plain, kept⟩ := h.last
  rw [eq]
  exact Text.linesAfter_newline plain kept front []

/-- An empty line after such a text keeps it apart from what follows. -/
theorem lines_append (rest : String) :
    lines (text ++ "\n\n" ++ rest) = block text ++ lines rest := by
  have cut : linesAfter [] (text.toList ++ '\n' :: '\n' :: rest.toList) =
      linesAfter [] text.toList ++ [] :: linesAfter [] rest.toList := by
    rw [linesAfter_append, h.linesAfter_newline]
    rfl
  have spelled : (text ++ "\n\n" ++ rest).toList =
      text.toList ++ '\n' :: '\n' :: rest.toList := by simp
  rw [lines, spelled, cut, block, lines, lines, List.map_append, List.append_assoc]
  rfl

/-- It still ends so without its carriage returns. -/
theorem dropReturns : EndsFilled (.ofList (Text.dropReturns text.toList)) := by
  obtain ⟨front, c, eq, filled, plain, -⟩ := h.last
  refine ⟨Text.dropReturns front, c, ?_, filled⟩
  rw [String.toList_ofList, eq, dropReturns_append (by simp [plain])]
  simp [Text.dropReturns]

/-- A part that is read again has lost the carriage returns before its line ends. -/
theorem tidy_block : tidy (block text) = some (.ofList (Text.dropReturns text.toList)) := by
  have whole : (unlines (block text)).toList = Text.dropReturns text.toList ++ ['\n', '\n'] := by
    have read := toList_unlines_lines text
    have newline : lines (text ++ "\n") = lines text := by
      rw [lines, String.toList_append]
      exact congrArg _ h.linesAfter_newline
    obtain ⟨front, c, eq, -, -, kept⟩ := h.last
    rw [newline, dropReturns_append (by simp [eq, kept])] at read
    rw [block, toList_unlines, List.flatMap_append, ← toList_unlines, read]
    simp [Text.dropReturns]
  obtain ⟨front, c, eq, filled⟩ := h.dropReturns
  rw [String.toList_ofList] at eq
  rw [tidy, isBlankText, trimEnd, whole, eq, if_neg (by simp [filled]), dropBlanksEnd_append,
    if_pos (by simp [isBlank_newline])]
  simp [dropBlanksEnd, filled]

end EndsFilled

/-! ### What people wrote -/

/-- What stands before all sections, as it is written down. -/
def IsPreamble (text : String) : Prop :=
  EndsFilled text ∧ ∀ line ∈ lines text, sectionName? line = none

/-- A section that people wrote, as it is written down. -/
def IsWritten (text : String) : Prop :=
  EndsFilled text ∧ IsSection (lines text) ∧ isGenerated (lines text) = false

/-- What comes before the first section has no header when it is tidied. -/
theorem isPreamble_tidy {part : List String} {text : String}
    (short : ∀ line ∈ part, '\n' ∉ line.toList) (plain : ∀ line ∈ part, sectionName? line = none)
    (h : tidy part = some text) : IsPreamble text := by
  obtain ⟨rfl, filled⟩ := tidy_eq_some h
  refine ⟨filled, fun line hl => ?_⟩
  obtain ⟨l, hl, eq⟩ := List.mem_map.1
    ((tidied_lines part short).sectionNames _ (List.mem_map_of_mem hl))
  rw [← eq, plain l hl]

/-- A section that people wrote stays one. -/
theorem isWritten_tidy {part : List String} {text : String}
    (short : ∀ line ∈ part, '\n' ∉ line.toList) (starts : IsSection part)
    (kept : isGenerated part = false) (h : tidy part = some text) : IsWritten text := by
  obtain ⟨rfl, filled⟩ := tidy_eq_some h
  obtain ⟨line, rest, rfl, header, plain⟩ := starts
  have tidied := tidied_lines (line :: rest) short
  refine ⟨filled, ?_⟩
  generalize lines (trimEnd (unlines (line :: rest))) = read at tidied ⊢
  cases tidied with
  | nil blank =>
      have none := sectionName?_blank (blank line List.mem_cons_self)
      rw [String.ofList_toList] at none
      simp [none] at header
  | @cons start blanks _ tidied blank tail =>
      rw [isGenerated, List.head?_cons, Option.bind_some] at kept ⊢
      rw [sectionName?_append blank] at header kept
      refine ⟨⟨_, tidied, rfl, header, fun l hl => ?_⟩, kept⟩
      obtain ⟨m, hm, eq⟩ := List.mem_map.1 (tail.sectionNames _ (List.mem_map_of_mem hl))
      rw [← eq, plain m hm]

theorem not_isGenerated {lines : List String} (plain : ∀ line ∈ lines, sectionName? line = none) :
    isGenerated lines = false := by
  cases lines with
  | nil => rfl
  | cons line lines => simp [isGenerated, plain line List.mem_cons_self]

/-- **What people wrote** is what comes before the first section, and every section that is not
generated. -/
theorem handwritten_eq (text : String) :
    handwritten text = (tidy (splitSections (lines text)).1).toList ++
      ((splitSections (lines text)).2.filter fun part => !isGenerated part).filterMap tidy := by
  have kept := not_isGenerated fun line hl => ((splitSections_parts (lines text)).1 line hl).2
  have whole : handwritten text = (((splitSections (lines text)).1 ::
      (splitSections (lines text)).2).filter fun part => !isGenerated part).filterMap tidy := rfl
  rw [whole, List.filter_cons, kept, Bool.not_false, if_pos rfl, List.filterMap_cons]
  cases tidy (splitSections (lines text)).1 <;> rfl

/-- What people wrote is what stands before all sections, if anything, and sections. -/
theorem handwritten_parts (text : String) : ∃ (first : Option String) (rest : List String),
    handwritten text = first.toList ++ rest ∧ (∀ part ∈ first, IsPreamble part) ∧
      ∀ part ∈ rest, IsWritten part := by
  obtain ⟨before, sections⟩ := splitSections_parts (lines text)
  refine ⟨tidy (splitSections (lines text)).1,
    ((splitSections (lines text)).2.filter fun part => !isGenerated part).filterMap tidy,
    handwritten_eq text, ?_, ?_⟩
  · intro part hp
    exact isPreamble_tidy (fun line hl => lines_short text line (before line hl).1)
      (fun line hl => (before line hl).2) hp
  · intro part hp
    obtain ⟨raw, hr, tidied⟩ := List.mem_filterMap.1 hp
    obtain ⟨hr, kept⟩ := List.mem_filter.1 hr
    obtain ⟨inside, starts⟩ := sections raw hr
    exact isWritten_tidy (fun line hl => lines_short text line (inside line hl)) starts
      (by simpa using kept) tidied

/-- Nothing in a text that starts with a section was written by people exactly if all its headers
are those of generated sections. -/
theorem handwritten_eq_nil_iff {text : String} (starts : (splitSections (lines text)).1 = []) :
    handwritten text = [] ↔
      ∀ line ∈ lines text, ∀ name ∈ sectionName? line, name ∈ generatedSections := by
  obtain ⟨-, sections⟩ := splitSections_parts (lines text)
  have before : tidy [] = none := rfl
  rw [handwritten_eq, starts, before, Option.toList_none, List.nil_append,
    List.filterMap_eq_nil_iff]
  constructor
  · intro none line there name header
    have starts : (sectionName? line).isSome := Option.isSome_iff_exists.2 ⟨name, header⟩
    obtain ⟨rest, part⟩ := section_of_header starts there
    -- another header would start a section that is kept, and no section is blank
    by_contra other
    have kept : isGenerated (line :: rest) = false := by
      rw [isGenerated, List.head?_cons, Option.bind_some, header]
      simpa using other
    have blank := none _ (List.mem_filter.2 ⟨part, by rw [kept, Bool.not_false]⟩)
    have filled := tidy_section (sections _ part).2
    rw [blank] at filled
    cases filled
  · intro generated part member
    obtain ⟨member, kept⟩ := List.mem_filter.1 member
    obtain ⟨inside, line, rest, rfl, header, -⟩ := sections part member
    obtain ⟨name, header⟩ := Option.isSome_iff_exists.1 header
    have listed := generated line (inside line List.mem_cons_self) name header
    rw [isGenerated, List.head?_cons, Option.bind_some, header] at kept
    simp [listed] at kept

/-! ### Merged documents -/

/-- A merged document has it first, and then what is generated. -/
theorem mergeDocument_eq (existing generated : String) :
    mergeDocument existing generated =
      String.join ((handwritten existing).map (· ++ "\n\n")) ++ generated := by
  have joined : ∀ (part : String) (parts : List String),
      String.intercalate "\n\n" (part :: parts) ++ "\n\n" =
        String.join ((part :: parts).map (· ++ "\n\n")) := by
    intro part parts
    induction parts generalizing part with
    | nil => simp
    | cons next parts ih =>
        have later := ih next
        simp only [String.intercalate_cons_cons, List.map_cons, String.join_cons,
          String.append_assoc] at later ⊢
        rw [later]
  rw [mergeDocument.eq_def]
  cases handwritten existing with
  | nil => simp
  | cons part parts => rw [← joined]

/-- The lines of a merged document are those of its parts, one after another. -/
theorem lines_join {parts : List String} (h : ∀ part ∈ parts, EndsFilled part) (rest : String) :
    lines (String.join (parts.map (· ++ "\n\n")) ++ rest) = parts.flatMap block ++ lines rest := by
  induction parts with
  | nil => simp
  | cons part parts ih =>
      have first := h part List.mem_cons_self
      have later := ih fun p hp => h p (.tail _ hp)
      rw [List.map_cons, List.flatMap_cons, List.append_assoc, ← later, ← first.lines_append]
      simp [String.append_assoc]

/-- A section that is read back is a section again. -/
theorem IsWritten.splitSections {text : String} (h : IsWritten text) :
    splitSections (block text) = ([], [block text]) := by
  obtain ⟨-, ⟨line, rest, eq, header, plain⟩, -⟩ := h
  rw [block, eq, List.cons_append]
  refine splitSections_section header fun l hl => ?_
  rcases List.mem_append.1 hl with hl | hl
  · exact plain l hl
  · rw [List.mem_singleton.1 hl]
    rfl

theorem IsWritten.isGenerated_block {text : String} (h : IsWritten text) :
    isGenerated (block text) = false := by
  obtain ⟨-, ⟨line, rest, eq, -, -⟩, kept⟩ := h
  rw [eq] at kept
  rw [block, eq]
  exact kept

theorem IsPreamble.splitSections {text : String} (h : IsPreamble text) :
    splitSections (block text) = (block text, []) := by
  refine splitSections_plain fun l hl => ?_
  rcases List.mem_append.1 hl with hl | hl
  · exact h.2 l hl
  · rw [List.mem_singleton.1 hl]
    rfl

/-- So are several of them, up to where the generated text starts. -/
theorem splitSections_blocks {parts more : List String} (h : ∀ part ∈ parts, IsWritten part)
    (starts : (splitSections more).1 = []) :
    splitSections (parts.flatMap block ++ more) =
      ([], parts.map block ++ (splitSections more).2) := by
  induction parts with
  | nil => exact Prod.ext starts rfl
  | cons part parts ih =>
      have later := ih fun p hp => h p (.tail _ hp)
      rw [List.flatMap_cons, List.append_assoc, splitSections_append (by rw [later]), later,
        (h part List.mem_cons_self).splitSections]
      rfl

/-- **The parts of a merged document**: those that people wrote, as they are written down, and the
sections of the new text. -/
theorem splitSections_mergeDocument (existing : String) {generated : String}
    (starts : (splitSections (lines generated)).1 = []) : ∃ (first : Option String)
      (rest : List String), handwritten existing = first.toList ++ rest ∧
        (∀ part ∈ first, IsPreamble part) ∧ (∀ part ∈ rest, IsWritten part) ∧
        splitSections (lines (mergeDocument existing generated)) =
          (first.toList.flatMap block, rest.map block ++ (splitSections (lines generated)).2) := by
  obtain ⟨first, rest, eq, preamble, written⟩ := handwritten_parts existing
  refine ⟨first, rest, eq, preamble, written, ?_⟩
  have filled : ∀ part ∈ handwritten existing, EndsFilled part := by
    intro part hp
    rw [eq] at hp
    rcases List.mem_append.1 hp with hp | hp
    · exact (preamble part (by simpa using hp)).1
    · exact (written part hp).1
  have sections := splitSections_blocks written starts
  rw [mergeDocument_eq, lines_join filled, eq]
  cases first with
  | none => exact sections
  | some part =>
      rw [Option.toList_some, List.flatMap_append, List.flatMap_singleton, List.append_assoc,
        splitSections_append (by rw [sections]), sections, (preamble part rfl).splitSections]
      rfl

theorem filter_isGenerated_blocks {parts : List String} (h : ∀ part ∈ parts, IsWritten part) :
    (parts.map block).filter isGenerated = [] := by
  refine List.filter_eq_nil_iff.2 fun lines hl => ?_
  obtain ⟨part, hp, rfl⟩ := List.mem_map.1 hl
  rw [(h part hp).isGenerated_block]
  decide

/-- **What people wrote in a merged document**: what they wrote before, without the carriage returns
before line ends, and what of the new text looks as if they wrote it. -/
theorem handwritten_mergeDocument (existing : String) {generated : String}
    (starts : (splitSections (lines generated)).1 = []) :
    handwritten (mergeDocument existing generated) =
      (handwritten existing).map (fun part => .ofList (dropReturns part.toList)) ++
        handwritten generated := by
  obtain ⟨first, rest, eq, preamble, written, parts⟩ := splitSections_mergeDocument existing starts
  have kept : (rest.map block).filter (fun part => !isGenerated part) = rest.map block := by
    refine List.filter_eq_self.2 fun lines hl => ?_
    obtain ⟨part, hp, rfl⟩ := List.mem_map.1 hl
    rw [(written part hp).isGenerated_block, Bool.not_false]
  have tidied : (rest.map block).filterMap tidy =
      rest.map fun part => .ofList (dropReturns part.toList) := by
    rw [List.filterMap_map, ← List.filterMap_eq_map]
    refine List.filterMap_congr fun part hp => ?_
    rw [Function.comp_apply, Function.comp_apply]
    exact (written part hp).1.tidy_block
  rw [handwritten_eq, parts, eq, handwritten_eq generated, starts, List.filter_append, kept,
    List.filterMap_append, tidied]
  cases first with
  | none => rfl
  | some part =>
      rw [Option.toList_some, List.flatMap_singleton, (preamble part rfl).1.tidy_block]
      rfl

/-! ### Merging again -/

/-- A text comes back as it was when it is merged again: no line of the new text looks like the
header of a section that people wrote, and no carriage return stands before a line end in what
they did write. -/
structure Settled (existing generated : String) : Prop where
  headers : ∀ line ∈ lines generated, ∀ name ∈ sectionName? line, name ∈ generatedSections
  returns : ∀ part ∈ handwritten existing, ¬HasReturn part.toList

section

variable {existing generated : String} (starts : (splitSections (lines generated)).1 = [])

include starts

/-- What people wrote is kept as it is, if no carriage return stands before a line end in it. -/
theorem handwritten_mergeDocument_of_plain
    (plain : ∀ part ∈ handwritten existing, ¬HasReturn part.toList) :
    handwritten (mergeDocument existing generated) =
      handwritten existing ++ handwritten generated := by
  rw [handwritten_mergeDocument existing starts]
  congr 1
  conv => rhs; rw [← List.map_id (handwritten existing)]
  refine List.map_congr_left fun part hp => ?_
  rw [(dropReturns_eq_iff _).2 (plain part hp), String.ofList_toList, id]

/-- **A settled document keeps what people wrote** word for word. -/
theorem handwritten_of_settled (settled : Settled existing generated) :
    handwritten (mergeDocument existing generated) = handwritten existing := by
  rw [handwritten_mergeDocument_of_plain starts settled.returns,
    (handwritten_eq_nil_iff starts).2 settled.headers, List.append_nil]

/-- **Merging twice is merging once**, if nothing gets lost or comes in. -/
theorem mergeDocument_again (settled : Settled existing generated) (next : String) :
    mergeDocument (mergeDocument existing generated) next = mergeDocument existing next := by
  rw [mergeDocument_eq, handwritten_of_settled starts settled, ← mergeDocument_eq]

omit starts in
/-- Dropping carriage returns makes no text longer. -/
theorem length_flatMap_dropReturns_le : ∀ parts : List String,
    (parts.flatMap fun part => dropReturns part.toList ++ ['\n', '\n']).length ≤
      (parts.flatMap fun part => part.toList ++ ['\n', '\n']).length
  | [] => Nat.le_refl _
  | part :: parts => by
      have first := length_dropReturns_le part.toList
      have later := length_flatMap_dropReturns_le parts
      simp only [List.flatMap_cons, List.length_append] at later ⊢
      omega

omit starts in
/-- Parts that stand together in the same text with and without their carriage returns have none. -/
theorem dropReturns_of_flatMap : ∀ {parts : List String},
    (parts.flatMap fun part => dropReturns part.toList ++ ['\n', '\n']) =
      (parts.flatMap fun part => part.toList ++ ['\n', '\n']) →
    ∀ part ∈ parts, dropReturns part.toList = part.toList
  | [], _, _, h => by cases h
  | first :: rest, same, part, h => by
      have shorter := length_flatMap_dropReturns_le rest
      have shorterFirst := length_dropReturns_le first.toList
      have lengths := congrArg List.length same
      simp only [List.flatMap_cons, List.length_append] at lengths
      obtain ⟨same, later⟩ := List.append_inj same (by simp only [List.length_append]; omega)
      rcases List.mem_cons.1 h with rfl | h
      · exact List.append_cancel_right same
      · exact dropReturns_of_flatMap later part h

omit starts in
/-- Parts that come in would be seen in the text. -/
theorem eq_nil_of_flatMap {parts more : List String}
    (same : (parts.flatMap fun part => dropReturns part.toList ++ ['\n', '\n']) ++
      (more.flatMap fun part => part.toList ++ ['\n', '\n']) =
        parts.flatMap fun part => part.toList ++ ['\n', '\n']) : more = [] := by
  -- without any carriage returns the parts are the same on both sides
  have seen := congrArg (List.filter (· ≠ '\r')) same
  simp only [List.filter_append, List.filter_flatMap, filter_dropReturns] at seen
  have none := List.append_right_eq_self.1 seen
  cases more with
  | nil => rfl
  | cons part more => simp at none

/-- **Merging the same text again changes nothing exactly if nothing gets lost or comes in.** -/
theorem mergeDocument_fixed_iff :
    mergeDocument (mergeDocument existing generated) generated =
      mergeDocument existing generated ↔ Settled existing generated := by
  constructor
  · intro fixed
    rw [mergeDocument_eq, handwritten_mergeDocument existing starts, mergeDocument_eq,
      ← String.toList_inj, String.toList_append, String.toList_append] at fixed
    have same := List.append_cancel_right fixed
    simp only [String.toList_join, List.flatMap_map, List.map_append, List.flatMap_append,
      List.map_map, Function.comp_def, String.toList_append, String.toList_ofList] at same
    have none := eq_nil_of_flatMap same
    rw [none, List.flatMap_nil, List.append_nil] at same
    refine ⟨(handwritten_eq_nil_iff starts).1 none, fun part hp => ?_⟩
    exact (dropReturns_eq_iff _).1 (dropReturns_of_flatMap same part hp)
  · exact fun settled => mergeDocument_again starts settled generated

end

end CodeSurvey
