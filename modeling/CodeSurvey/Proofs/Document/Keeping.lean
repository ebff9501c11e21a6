import CodeSurvey.Proofs.Document.Writing

/-!
# Updates keep what people wrote

A document that is updated again and again keeps the parts that people wrote, in their order, and
no generated section of an earlier update.

* `not_hasReturn_handwritten`: if no line of a text ends in a carriage return, then none stands
  before a line end in a part that people wrote, and none gets lost when the part is read again.
* `handwritten_foldl`: so what people wrote comes through any number of updates, and after it comes
  what looks as if they wrote it in each of the updates.
* `generatedParts_mergeDocument`: the generated sections are those of the last update.
* `mergeDocument_keeps`: all of that, for one update and for a run of them.
-/

namespace CodeSurvey

open Text

/-- No line of a text ends in a carriage return. -/
def EndsPlain (text : String) : Prop :=
  ∀ line ∈ lines text, line.toList.getLast? ≠ some '\r'

/-- The generated sections of a text, as lines. -/
def generatedParts (text : String) : List (List String) :=
  (splitSections (lines text)).2.filter isGenerated

/-! ### Carriage returns -/

theorem dropReturn_reverse {line : List Char} (plain : line.getLast? ≠ some '\r') :
    dropReturn line.reverse = line.reverse := by
  rw [← List.head?_reverse] at plain
  cases eq : line.reverse with
  | nil => rfl
  | cons c rest =>
      have kept : c ≠ '\r' := by
        rw [eq, List.head?_cons] at plain
        exact fun same => plain (congrArg some same)
      simp [dropReturn, kept]

/-- Lines that end in no carriage return give a text without one before a line end. -/
theorem not_hasReturn_unlines {ls : List String} (short : ∀ line ∈ ls, '\n' ∉ line.toList)
    (plain : ∀ line ∈ ls, line.toList.getLast? ≠ some '\r') : ¬HasReturn (unlines ls).toList := by
  rw [← dropReturns_eq_iff, toList_unlines]
  induction ls with
  | nil => rfl
  | cons line ls ih =>
      have later := ih (fun l hl => short l (.tail _ hl)) fun l hl => plain l (.tail _ hl)
      rw [List.flatMap_cons, List.append_assoc, List.singleton_append,
        dropReturns_line _ _ (short line List.mem_cons_self), later,
        dropReturn_reverse (plain line List.mem_cons_self), List.reverse_reverse]

/-- A part that people wrote is made of lines of the text. -/
theorem exists_lines_of_handwritten {text part : String} (h : part ∈ handwritten text) :
    ∃ ls, (∀ line ∈ ls, line ∈ lines text) ∧ part = trimEnd (unlines ls) := by
  obtain ⟨before, sections⟩ := splitSections_parts (lines text)
  rw [handwritten_eq] at h
  rcases List.mem_append.1 h with h | h
  · exact ⟨_, fun line hl => (before line hl).1, (tidy_eq_some (Option.mem_toList.1 h)).1⟩
  · obtain ⟨ls, there, tidied⟩ := List.mem_filterMap.1 h
    exact ⟨ls, (sections ls (List.mem_filter.1 there).1).1, (tidy_eq_some tidied).1⟩

theorem not_hasReturn_handwritten {text : String} (plain : EndsPlain text) :
    ∀ part ∈ handwritten text, ¬HasReturn part.toList := by
  intro part h returned
  obtain ⟨ls, own, rfl⟩ := exists_lines_of_handwritten h
  refine not_hasReturn_unlines (fun line hl => lines_short text line (own line hl))
    (fun line hl => plain line (own line hl)) ?_
  -- trimming leaves the front of the text
  obtain ⟨blanks, eq, -⟩ := dropBlanksEnd_blanks (unlines ls).toList
  rw [trimEnd, String.toList_ofList] at returned
  exact returned.trans (eq ▸ List.prefix_append _ blanks).isInfix

/-! ### Runs of updates -/

/-- Parts without a carriage return before a line end stay in front. -/
theorem prefix_handwritten_mergeDocument {existing generated : String} {parts : List String}
    (starts : StartsWithSection generated) (plain : ∀ part ∈ parts, ¬HasReturn part.toList)
    (h : parts <+: handwritten existing) :
    parts <+: handwritten (mergeDocument existing generated) := by
  obtain ⟨more, eq⟩ := h
  have same : parts.map (fun part => .ofList (dropReturns part.toList)) = parts := by
    conv => rhs; rw [← List.map_id parts]
    refine List.map_congr_left fun part hp => ?_
    rw [(dropReturns_eq_iff _).2 (plain part hp), String.ofList_toList, id]
  rw [handwritten_mergeDocument existing starts.splitSections, ← eq, List.map_append, same,
    List.append_assoc]
  exact List.prefix_append ..

theorem prefix_handwritten_foldl {parts updates : List String} {existing : String}
    (plain : ∀ part ∈ parts, ¬HasReturn part.toList) (starts : ∀ g ∈ updates, StartsWithSection g)
    (h : parts <+: handwritten existing) :
    parts <+: handwritten (updates.foldl mergeDocument existing) := by
  induction updates generalizing existing with
  | nil => exact h
  | cons g updates ih =>
      have first := prefix_handwritten_mergeDocument (starts g List.mem_cons_self) plain h
      exact ih (fun g hg => starts g (.tail _ hg)) first

/-- **What people wrote after a run of updates.** -/
theorem handwritten_foldl {updates : List String} {existing last : String}
    (starts : StartsWithSection last)
    (plain : ∀ part ∈ handwritten existing, ¬HasReturn part.toList)
    (earlier : ∀ g ∈ updates, StartsWithSection g ∧ EndsPlain g) :
    handwritten (mergeDocument (updates.foldl mergeDocument existing) last) =
      handwritten existing ++ (updates ++ [last]).flatMap handwritten := by
  induction updates generalizing existing with
  | nil => simpa using handwritten_mergeDocument_of_plain starts.splitSections plain
  | cons g updates ih =>
      obtain ⟨first, ends⟩ := earlier g List.mem_cons_self
      have merged := handwritten_mergeDocument_of_plain first.splitSections plain
      have stays : ∀ part ∈ handwritten (mergeDocument existing g), ¬HasReturn part.toList := by
        rw [merged, List.forall_mem_append]
        exact ⟨plain, not_hasReturn_handwritten ends⟩
      have later := ih stays fun g hg => earlier g (.tail _ hg)
      rw [List.foldl_cons, later, merged, List.cons_append, List.flatMap_cons, List.append_assoc]

/-- **No generated section of an earlier text is left.** -/
theorem generatedParts_mergeDocument (existing : String) {generated : String}
    (starts : StartsWithSection generated) :
    generatedParts (mergeDocument existing generated) = generatedParts generated := by
  obtain ⟨first, rest, -, -, written, parts⟩ :=
    splitSections_mergeDocument existing starts.splitSections
  rw [generatedParts, parts, List.filter_append, filter_isGenerated_blocks written, List.nil_append,
    generatedParts]

/-- **Merging keeps every part that people wrote.** For a text of which no line ends in a carriage
return:

* an update that starts with a section leaves the parts that people wrote as they are, puts what
  looks like such a part in the update after them, ends in the update, and leaves no other
  generated section;
* so does a run of updates: the parts stay in front in their order, each once, and the generated
  sections are those of the last update. Only what looks as if people wrote it in an update can
  lose a carriage return in the next one.

The documents of directories all start with a section. -/
theorem mergeDocument_keeps {existing : String} (plain : EndsPlain existing) :
    (∀ generated, StartsWithSection generated →
      handwritten (mergeDocument existing generated) =
        handwritten existing ++ handwritten generated ∧
      (∃ kept, mergeDocument existing generated = kept ++ generated) ∧
      generatedParts (mergeDocument existing generated) = generatedParts generated) ∧
    (∀ updates last, (∀ g ∈ updates ++ [last], StartsWithSection g) →
      let text := (updates ++ [last]).foldl mergeDocument existing
      handwritten existing <+: handwritten text ∧
      ((∀ g ∈ updates, EndsPlain g) →
        handwritten text = handwritten existing ++ (updates ++ [last]).flatMap handwritten) ∧
      (∃ kept, text = kept ++ last) ∧ generatedParts text = generatedParts last) ∧
    ∀ (model : ProjectModel) (output : OutputConfig) (directory : Path) (generated : String),
      (directory, generated) ∈ directoryDocuments model output → StartsWithSection generated := by
  have parts := not_hasReturn_handwritten plain
  refine ⟨fun generated starts => ⟨?_, ⟨_, mergeDocument_eq existing generated⟩, ?_⟩,
    fun updates last starts => ?_, fun _ _ _ _ document => (section_of_document document).2⟩
  · exact handwritten_mergeDocument_of_plain starts.splitSections parts
  · exact generatedParts_mergeDocument existing starts
  · obtain ⟨earlier, starts⟩ := List.forall_mem_append.1 starts
    replace starts := starts last (List.mem_singleton_self last)
    simp only [List.foldl_append, List.foldl_cons, List.foldl_nil]
    refine ⟨?_, fun plains => ?_, ⟨_, mergeDocument_eq _ last⟩,
      generatedParts_mergeDocument _ starts⟩
    · exact prefix_handwritten_mergeDocument starts parts
        (prefix_handwritten_foldl parts earlier List.prefix_rfl)
    · exact handwritten_foldl starts parts fun g hg => ⟨earlier g hg, plains g hg⟩

/-- A note and two sections that people wrote, with a stale generated one between them. -/
def notedText : String :=
  "# notes\r\n\n@use: parse \n\n@path: old.py\n\n@todo:\n- retry\n"

/-- What is generated later. -/
def freshText : String :=
  "@module: b\n@path: b.py\n"

theorem mergeDocument_keeps_notes : EndsPlain notedText ∧ StartsWithSection freshText ∧
    let text := [freshText, freshText].foldl mergeDocument notedText
    handwritten text = ["# notes", "@use: parse", "@todo:\n- retry"] ∧
      generatedParts text = generatedParts freshText := by
  have plain : EndsPlain notedText := by
    unfold EndsPlain
    decide +kernel
  have ends : EndsPlain freshText := by
    unfold EndsPlain
    decide +kernel
  have starts : StartsWithSection freshText := startsWithSection_header rfl
  obtain ⟨-, kept, -, fresh⟩ :=
    (mergeDocument_keeps plain).2.1 [freshText] freshText (by simp [starts])
  refine ⟨plain, starts, ?_, fresh⟩
  have written : handwritten notedText ++ ([freshText] ++ [freshText]).flatMap handwritten =
      ["# notes", "@use: parse", "@todo:\n- retry"] := by
    decide +kernel
  exact (kept (by simp [ends])).trans written

end CodeSurvey
