import CodeSurvey.Proofs.Python.Sites
import CodeSurvey.Proofs.Text.Lines

/-!
# Lines of parsed sources

The lines in a parsed source are lines of its text. The scanner counts the line ends that it passes,
and it makes a token only where some text is left, so there is a line for the token to be on.

* `Cursor.Within`: what the scanner keeps about its place.
* `within_lexLine`, `lines_lex`: so every token is on a line of the text.
* `parse_places`: and so is everything that the parser takes from tokens.
-/

namespace CodeSurvey.Python

open TokenParser

/-! ### Counting lines -/

open Text (linesAfter)

/-- Of a line that has begun, it does not matter how. -/
theorem length_linesAfter (text : List Char) {c d : Char} {line line' : List Char} :
    (linesAfter (c :: line) text).length = (linesAfter (d :: line') text).length := by
  induction text generalizing c d line line' with
  | nil => rfl
  | cons e text ih =>
      by_cases ends : e = '\n'
      · subst ends
        simp only [linesAfter, List.length_cons]
      · simp only [linesAfter]
        exact ih

/-- A line that has begun is a line. -/
theorem length_linesAfter_le (text : List Char) (c : Char) :
    (linesAfter [] text).length ≤ (linesAfter [c] text).length := by
  cases text with
  | nil => exact Nat.zero_le _
  | cons d text =>
      by_cases ends : d = '\n'
      · subst ends
        simp only [linesAfter, List.length_cons, Nat.le_refl]
      · simp only [linesAfter]
        exact (length_linesAfter text).le

theorem length_linesAfter_pos {text : List Char} (filled : text ≠ []) :
    0 < (linesAfter [] text).length := by
  have begun : ∀ (text line : List Char) (c : Char), 0 < (linesAfter (c :: line) text).length := by
    intro text
    induction text with
    | nil => exact fun _ _ => Nat.zero_lt_one
    | cons d text ih =>
        intro line c
        by_cases ends : d = '\n'
        · subst ends
          exact Nat.zero_lt_succ _
        · simp only [linesAfter]
          exact ih (c :: line) d
  cases text with
  | nil => exact absurd rfl filled
  | cons c text =>
      by_cases ends : c = '\n'
      · subst ends
        exact Nat.zero_lt_succ _
      · simp only [linesAfter]
        exact begun text [] c

/-! ### The scanner -/

/-- A place in a text of so many lines: the lines from there on are not too many. -/
structure Cursor.Within (count : Nat) (cursor : Cursor) : Prop where
  counted : 1 ≤ cursor.line
  left    : cursor.line + (linesAfter [] cursor.rest).length ≤ count + 1

namespace Cursor.Within

variable {count : Nat} {cursor : Cursor}

theorem start (text : List Char) : (Cursor.start text).Within (linesAfter [] text).length :=
  ⟨Nat.le_refl 1, by rw [Cursor.start, Nat.add_comm]⟩

/-- **Passing characters keeps the count.** -/
theorem skip (h : cursor.Within count) (n : Nat) : (cursor.skip n).Within count := by
  fun_induction Cursor.skip n cursor with
  | case1 => exact h
  | case2 => exact h
  | case3 n c rest line offset ih =>
      refine ih ⟨?_, ?_⟩
      · have := h.counted
        dsimp only at *
        split <;> omega
      · have left := h.left
        dsimp only at *
        by_cases ends : c = '\n'
        · subst ends
          simp only [linesAfter, List.length_cons] at left
          simp only [beq_self_eq_true, if_true]
          omega
        · have longer := length_linesAfter_le rest c
          rw [linesAfter] at left
          · simp only [beq_iff_eq, ends, if_false]
            omega
          · exact ends

/-- There is a line for what starts at a place with some text left. -/
theorem line_le (h : cursor.Within count) (filled : cursor.rest ≠ []) : cursor.line ≤ count := by
  have := h.left
  have := length_linesAfter_pos filled
  omega

theorem indentation (h : cursor.Within count) (fuel indent : Nat) :
    (Python.indentation fuel indent cursor).2.Within count := by
  fun_induction Python.indentation fuel indent cursor <;> simp_all [skip]

end Cursor.Within

/-- The tokens are on lines of a text of so many lines. -/
def OnLines (count : Nat) (tokens : List Token) : Prop :=
  ∀ token ∈ tokens, 1 ≤ token.line ∧ token.line ≤ count

/-- **The tokens of a logical line are on lines of the text**, and so is what follows it. -/
theorem within_lexLine {count : Nat} (fuel : Nat) (modes : List Mode) (gap : List Char)
    (before : List Token) (cursor : Cursor) (h : cursor.Within count)
    (made : OnLines count before) :
    OnLines count (lexLine fuel modes gap before cursor).1 ∧
      (lexLine fuel modes gap before cursor).2.1.Within count := by
  have reversed : ∀ {tokens : List Token}, OnLines count tokens → OnLines count tokens.reverse :=
    fun made token there => made token (List.mem_reverse.1 there)
  fun_induction lexLine fuel modes gap before cursor with
  | case1 => exact ⟨reversed made, h⟩
  | case2 => exact ⟨reversed made, h⟩
  | case3 _ _ _ _ _ n => exact ⟨reversed made, h.skip n⟩
  | case4 _ _ _ _ _ n _ ih => exact ih (h.skip n) made
  | case5 fuel modes gap before cursor lexeme n after step token ih =>
      refine ih (h.skip n) ?_
      intro other there
      rcases List.mem_cons.1 there with rfl | there
      · exact ⟨h.counted, h.line_le (step_pos step).2⟩
      · exact made other there

theorem lines_lexLines {count : Nat} (size fuel : Nat) {cursor : Cursor}
    (h : cursor.Within count) : ∀ line ∈ lexLines size fuel cursor, OnLines count line.tokens := by
  induction fuel generalizing cursor with
  | zero => exact List.forall_mem_nil _
  | succ fuel ih =>
      rw [lexLines]
      have indented := h.indentation size 0
      generalize indentation size 0 cursor = start at indented
      obtain ⟨indent, first⟩ := start
      obtain ⟨made, next⟩ := within_lexLine size [.code 0] [] [] first indented
        (List.forall_mem_nil _)
      dsimp only
      generalize lexLine size [.code 0] [] [] first = scanned at made next
      obtain ⟨tokens, after, broken⟩ := scanned
      intro line there
      split at there
      · cases there
      · split at there
        · rw [List.mem_singleton.1 there]
          exact made
        · split at there
          · exact ih next line there
          · rcases List.mem_cons.1 there with rfl | there
            · exact made
            · exact ih next line there

/-- **Every token is on a line of the text.** -/
theorem lines_lex (source : String) :
    ∀ line ∈ lex source, OnLines (Text.lineCount source) line.tokens :=
  lines_lexLines _ _ (.start source.toList)

/-! ### Sources -/

/-- One for everything that is not on a line of a text of so many lines. -/
def Worth.beyond (count : Nat) : Worth where
  site _ := 0
  line n := if 1 ≤ n ∧ n ≤ count then 0 else 1

theorem tokensWorth_beyond {count : Nat} {tokens : List Token} (h : OnLines count tokens) :
    tokensWorth (.beyond count) tokens = 0 := by
  induction tokens with
  | nil => rfl
  | cons token rest ih =>
      obtain ⟨first, later⟩ := List.forall_mem_cons.1 h
      have worthless : (Worth.beyond count).line token.line = 0 := if_pos first
      rw [tokensWorth_cons, ih later, Worth.token, worthless]
      rfl

theorem linesWorth_beyond {count : Nat} {lines : Lines}
    (h : ∀ line ∈ lines, OnLines count line.tokens) : linesWorth (.beyond count) lines = 0 := by
  induction lines with
  | nil => rfl
  | cons line rest ih =>
      obtain ⟨first, later⟩ := List.forall_mem_cons.1 h
      rw [linesWorth, ih later, tokensWorth_beyond first]

/-- **All lines in a parsed source are lines of its text.** -/
theorem parse_places {source : String} {nodes : List Node} (parsed : parse source = .ok nodes) :
    ∀ line ∈ Node.placesIn nodes, 1 ≤ line ∧ line ≤ Text.lineCount source := by
  cases read : block ((lex source).length + 1) 0 (lex source) with
  | error n =>
      rw [parse, read] at parsed
      cases parsed
  | ok result =>
      rw [parse, read] at parsed
      cases parsed
      have weighs := block_reads (a := .beyond (Text.lineCount source)) _ _ _ _ _ read
      rw [linesWorth_beyond (lines_lex source), weightIn] at weighs
      have none : ((Node.placesIn result.1).map
          (Worth.beyond (Text.lineCount source)).line).sum = 0 := by
        omega
      intro line there
      have nothing := List.sum_eq_zero_iff_forall_eq_nat.1 none _ (List.mem_map_of_mem there)
      by_contra outside
      exact absurd ((if_neg outside).symm.trans nothing) Nat.one_ne_zero

end CodeSurvey.Python
