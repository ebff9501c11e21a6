import CodeSurvey.Text.Lines
import Mathlib.Data.List.DropRight

/-!
# Lines and their ends

What reading a text as lines and putting the lines together does to it: a carriage return right
before a line end is lost, once a time.

* `lines_append`: a line end cuts a text in two.
* `toList_unlines_lines`: lines put together are the text without the carriage returns that stood
  before its line ends.
* `dropReturns_eq_iff`: nothing is lost exactly if there were none.
* `dropBlanksEnd_append`: what trimming does to two texts in a row.
-/

namespace CodeSurvey.Text

/-- A text without the carriage returns right before its line ends. -/
def dropReturns : List Char → List Char
  | []        => []
  | c :: rest =>
    if c = '\r' ∧ rest.head? = some '\n' then dropReturns rest else c :: dropReturns rest

/-- Whether a carriage return stands right before a line end. -/
def HasReturn (text : List Char) : Prop :=
  ['\r', '\n'] <:+: text

/-! ### Lines -/

/-- A line end separates what is before it from what is behind. -/
theorem linesAfter_append (rest : List Char) : ∀ (text line : List Char),
    linesAfter line (text ++ '\n' :: rest) =
      linesAfter line (text ++ ['\n']) ++ linesAfter [] rest
  | [], line => by simp [linesAfter]
  | c :: text, line => by
      by_cases h : c = '\n'
      · subst h
        simp [linesAfter, linesAfter_append rest text]
      · simp only [List.cons_append, linesAfter, linesAfter_append rest text]

/-- A line end cuts a text in two. -/
theorem lines_append (text rest : String) :
    lines (text ++ "\n" ++ rest) = lines (text ++ "\n") ++ lines rest := by
  simp only [lines, String.toList_append, List.append_assoc]
  exact (congrArg _ (linesAfter_append rest.toList text.toList [])).trans List.map_append

/-- The last line end makes no line, unless a carriage return is before it. -/
theorem linesAfter_newline {c : Char} (plain : c ≠ '\n') (kept : c ≠ '\r') :
    ∀ (text line : List Char),
      linesAfter line (text ++ [c] ++ ['\n']) = linesAfter line (text ++ [c])
  | [], line => by simp [linesAfter, kept, dropReturn]
  | d :: text, line => by
      by_cases h : d = '\n'
      · subst h
        simp only [List.cons_append, linesAfter, linesAfter_newline plain kept text]
      · simp only [List.cons_append, linesAfter, linesAfter_newline plain kept text]

/-- A text without line ends is one line, but for its last carriage return. -/
theorem linesAfter_line : ∀ (text line : List Char), '\n' ∉ text →
    linesAfter line (text ++ ['\n']) = [(dropReturn (text.reverse ++ line)).reverse]
  | [], line, _ => by simp [linesAfter]
  | c :: text, line, h => by
      have plain : c ≠ '\n' := fun e => h (e ▸ List.mem_cons_self)
      rw [List.cons_append, linesAfter,
        linesAfter_line text (c :: line) fun later => h (.tail _ later)]
      · simp
      · exact plain

/-- Without a line end at its end it keeps that as well. -/
theorem linesAfter_plain : ∀ {text line : List Char}, '\n' ∉ text → line.reverse ++ text ≠ [] →
    linesAfter line text = [line.reverse ++ text]
  | [], line, _, filled => by simpa [linesAfter] using filled
  | c :: text, line, h, _ => by
      have plain : c ≠ '\n' := fun e => h (e ▸ List.mem_cons_self)
      rw [linesAfter, linesAfter_plain (fun later => h (.tail _ later)) (by simp)]
      · simp
      · exact plain

/-- What has been read of a line stays at its start. -/
theorem linesAfter_keeps {c : Char} (plain : c ≠ '\r') (line : List Char) :
    ∀ (text extra : List Char), ∃ more later,
      linesAfter (extra ++ c :: line) text = ((c :: line).reverse ++ more) :: later
  | [], extra => ⟨extra.reverse, [], by simp [linesAfter]⟩
  | d :: text, extra => by
      by_cases ends : d = '\n'
      · subst ends
        rw [linesAfter]
        cases extra with
        | nil => exact ⟨[], linesAfter [] text, by simp [dropReturn, plain]⟩
        | cons e extra =>
            by_cases ret : e = '\r'
            · subst ret
              exact ⟨extra.reverse, linesAfter [] text, by simp [dropReturn]⟩
            · exact ⟨(e :: extra).reverse, linesAfter [] text, by simp [dropReturn, ret]⟩
      · rw [linesAfter]
        · exact linesAfter_keeps plain line text (d :: extra)
        · exact ends

theorem mem_of_mem_dropReturn {c : Char} {line : List Char} (h : c ∈ dropReturn line) :
    c ∈ line := by
  rw [dropReturn.eq_def] at h
  split at h
  · exact .tail _ h
  · exact h

/-- No line has a line end in it. -/
theorem linesAfter_short : ∀ (text line : List Char), '\n' ∉ line →
    ∀ l ∈ linesAfter line text, '\n' ∉ l
  | [], line, h, l, hl => by
      rw [linesAfter] at hl
      split at hl
      · cases hl
      · rw [List.mem_singleton.1 hl]
        simpa using h
  | c :: text, line, h, l, hl => by
      by_cases ends : c = '\n'
      · subst ends
        rw [linesAfter] at hl
        rcases List.mem_cons.1 hl with rfl | hl
        · exact fun found => h (mem_of_mem_dropReturn (List.mem_reverse.1 found))
        · exact linesAfter_short text [] (by simp) l hl
      · rw [linesAfter] at hl
        · exact linesAfter_short text (c :: line) (by simp [h, Ne.symm ends]) l hl
        · exact ends

/-- No line has a line end in it. -/
theorem lines_short (text : String) : ∀ line ∈ lines text, '\n' ∉ line.toList := by
  intro line h
  obtain ⟨l, hl, rfl⟩ := List.mem_map.1 h
  rw [String.toList_ofList]
  exact linesAfter_short text.toList [] (by simp) l hl

/-! ### Carriage returns -/

/-- A carriage return is dropped at the end only. -/
theorem dropReturn_append {line : List Char} (more : List Char) (h : line ≠ []) :
    dropReturn (line ++ more) = dropReturn line ++ more := by
  cases line with
  | nil => exact absurd rfl h
  | cons c line =>
      by_cases ret : c = '\r'
      · subst ret
        rfl
      · simp [dropReturn, ret]

/-- A line loses the carriage return at its end. -/
theorem dropReturns_line (rest : List Char) : ∀ line : List Char, '\n' ∉ line →
    dropReturns (line ++ '\n' :: rest) =
      (dropReturn line.reverse).reverse ++ '\n' :: dropReturns rest
  | [], _ => by simp [dropReturns, dropReturn]
  | [c], h => by
      by_cases ret : c = '\r'
      · subst ret
        simp [dropReturns, dropReturn]
      · simp [dropReturns, dropReturn, ret]
  | c :: d :: line, h => by
      have plain : d ≠ '\n' := fun e => h (e ▸ .tail _ List.mem_cons_self)
      have ih := dropReturns_line rest (d :: line) fun later => h (.tail _ later)
      rw [List.cons_append, dropReturns, if_neg (by simp [plain]), ih, List.reverse_cons (a := c),
        dropReturn_append _ (by simp), List.reverse_append]
      simp

/-- **Lines and line ends make up the text**, but for carriage returns. -/
theorem flatMap_linesAfter : ∀ (text line : List Char), '\n' ∉ line →
    (linesAfter line (text ++ ['\n'])).flatMap (· ++ ['\n']) =
      dropReturns (line.reverse ++ text ++ ['\n'])
  | [], line, h => by
      rw [List.append_nil, dropReturns_line [] line.reverse (by simpa using h)]
      simp [linesAfter, dropReturns]
  | c :: text, line, h => by
      by_cases ends : c = '\n'
      · subst ends
        have ih := flatMap_linesAfter text [] (by simp)
        rw [List.append_assoc, List.cons_append,
          dropReturns_line (text ++ ['\n']) line.reverse (by simpa using h)]
        simp [linesAfter, ih]
      · have ih := flatMap_linesAfter text (c :: line) (by simp [h, Ne.symm ends])
        simp only [List.cons_append, linesAfter, ih]
        simp

@[simp] theorem toList_unlines (ls : List String) :
    (unlines ls).toList = ls.flatMap fun line => line.toList ++ ['\n'] := by
  simp [unlines, String.toList_join, List.flatMap_map]

/-- Lines put together are the text without the carriage returns that stood before its line ends. -/
theorem toList_unlines_lines (text : String) :
    (unlines (lines (text ++ "\n"))).toList = dropReturns (text.toList ++ ['\n']) := by
  have h := flatMap_linesAfter text.toList [] (by simp)
  simpa [lines, List.flatMap_map] using h

/-- Carriage returns are dropped on either side, unless one stands between. -/
theorem dropReturns_append : ∀ {text more : List Char},
    (text.getLast? = some '\r' → more.head? ≠ some '\n') →
    dropReturns (text ++ more) = dropReturns text ++ dropReturns more
  | [], _, _ => rfl
  | [c], more, h => by
      have split : ¬(c = '\r' ∧ more.head? = some '\n') := fun ⟨ret, ends⟩ =>
        h (by simp [ret]) ends
      simp [dropReturns, split]
  | c :: d :: text, more, h => by
      have ih : dropReturns (d :: text ++ more) = dropReturns (d :: text) ++ dropReturns more :=
        dropReturns_append (by simpa using h)
      rw [List.cons_append, dropReturns, ih, dropReturns.eq_def (c :: d :: text)]
      by_cases ret : c = '\r' ∧ d = '\n'
      · simp [ret]
      · simp [ret]

theorem length_dropReturns_le : ∀ text : List Char, (dropReturns text).length ≤ text.length
  | [] => Nat.le_refl _
  | c :: rest => by
      have := length_dropReturns_le rest
      rw [dropReturns]
      split <;> simp only [List.length_cons] <;> omega

/-- Nothing is lost exactly if no carriage return stands before a line end. -/
theorem dropReturns_eq_iff : ∀ text : List Char, dropReturns text = text ↔ ¬HasReturn text
  | [] => by simp [dropReturns, HasReturn]
  | c :: rest => by
      have ih := dropReturns_eq_iff rest
      have shorter := length_dropReturns_le rest
      rw [HasReturn, List.infix_cons_iff, ← HasReturn, dropReturns]
      split
      · next ret =>
          obtain ⟨rfl, ends⟩ := ret
          obtain ⟨later, rfl⟩ := List.head?_eq_some_iff.1 ends
          constructor
          · intro same
            have := congrArg List.length same
            simp only [List.length_cons] at this shorter
            omega
          · exact fun none => absurd (.inl ⟨later, rfl⟩) none
      · next kept =>
          rw [List.cons.injEq, ih]
          constructor
          · rintro ⟨-, none⟩ (⟨later, same⟩ | later)
            · cases same
              exact kept ⟨rfl, rfl⟩
            · exact none later
          · exact fun none => ⟨rfl, fun later => none (.inr later)⟩

/-- Nothing but carriage returns is lost. -/
theorem filter_dropReturns : ∀ text : List Char,
    (dropReturns text).filter (· ≠ '\r') = text.filter (· ≠ '\r')
  | [] => rfl
  | c :: rest => by
      have ih := filter_dropReturns rest
      rw [dropReturns]
      split
      · next ret =>
          rw [ih, ret.1]
          rfl
      · rw [List.filter_cons, List.filter_cons, ih]

/-! ### Blanks -/

theorem isBlank_return : isBlank '\r' = true := by decide

theorem isBlank_newline : isBlank '\n' = true := by decide

/-- What trimming does to two texts in a row. -/
theorem dropBlanksEnd_append (text more : List Char) :
    dropBlanksEnd (text ++ more) =
      if more.all isBlank then dropBlanksEnd text else text ++ dropBlanksEnd more := by
  rw [dropBlanksEnd, List.reverse_append, List.dropWhile_append]
  split
  · next gone =>
      rw [List.isEmpty_iff, List.dropWhile_eq_nil_iff] at gone
      rw [if_pos (by simpa using gone), dropBlanksEnd]
  · next left =>
      rw [List.isEmpty_iff, List.dropWhile_eq_nil_iff] at left
      rw [if_neg (by simpa using left), List.reverse_append, List.reverse_reverse, dropBlanksEnd]

/-- Nothing is left exactly of a blank text. -/
theorem dropBlanksEnd_eq_nil_iff {text : List Char} :
    dropBlanksEnd text = [] ↔ ∀ c ∈ text, isBlank c := by
  simp [dropBlanksEnd, List.dropWhile_eq_nil_iff]

end CodeSurvey.Text
