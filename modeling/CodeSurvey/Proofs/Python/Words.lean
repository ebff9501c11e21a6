import CodeSurvey.Python.Module
import Mathlib.Data.List.TakeWhile

/-!
# Words of a source

A word that the scanner reads starts with a letter or an underscore and goes on with such and with
digits, so it may be a name: it is not empty and has no dot in it.

* `isWord_take`: what the scanner measures as a word is one.
* `wordy_lex`: so are the words among the tokens of a source.
-/

namespace CodeSurvey.Python

/-- A text that may be a name: there is something, and no dot in it. -/
def IsWord (text : String) : Prop :=
  text ≠ "" ∧ '.' ∉ text.toList

/-- The words among the tokens may be names. -/
def Wordy (tokens : List Token) : Prop :=
  ∀ token ∈ tokens, ∀ text, token.lexeme = .word text → IsWord text

/-- What the scanner takes for a word is one. -/
theorem isWord_take {text : List Char} (h : wordLength text ≠ 0) :
    IsWord (String.ofList (text.take (wordLength text))) := by
  cases text with
  | nil => exact absurd rfl h
  | cons c rest =>
      rw [wordLength] at h ⊢
      split at h
      · rename_i starts
        have read : (c :: rest).take (1 + (rest.takeWhile Text.continuesIdentifier).length) =
            c :: rest.takeWhile Text.continuesIdentifier := by
          rw [Nat.add_comm, List.take_succ_cons,
            ← List.prefix_iff_eq_take.1 (List.takeWhile_prefix _)]
        rw [if_pos starts, read]
        refine ⟨fun empty => ?_, fun dot => ?_⟩
        · exact List.cons_ne_nil _ _ (String.ofList_inj.1 empty)
        · rw [String.toList_ofList, List.mem_cons] at dot
          rcases dot with rfl | dot
          · exact absurd starts (by decide)
          · exact absurd (List.mem_takeWhile_imp dot) (by decide)
      · exact absurd rfl h

/-! ### The scanner -/

section

variable {fuel n : Nat} {before : List Token} {text : List Char} {mode : Mode}
  {modes after : List Mode} {word : String}

theorem stringStep_ne_word {style : StringStyle} {opening : Nat} :
    stringStep fuel style opening text modes ≠ .token (.word word) n after := by
  intro h
  rw [stringStep.eq_def] at h
  split at h
  · cases h
  · dsimp only at h
    split at h <;> cases h

/-- No symbol is taken for a word. -/
theorem symbolStep_ne_word :
    symbolStep before text mode modes ≠ .token (.word word) n after := by
  intro h
  rw [symbolStep.eq_def] at h
  split at h
  · cases h
  · cases h
  · split at h <;> cases h
  · split at h <;> cases h
  · cases h
  · cases h

/-- In code only a run of name characters becomes a word. -/
theorem codeStep_isWord
    (h : codeStep fuel before text mode modes = .token (.word word) n after) : IsWord word := by
  rw [codeStep.eq_def] at h
  split at h
  · split at h <;> cases h
  · dsimp only at h
    -- blanks, ends and faults are no tokens
    split at h
    · cases h
    split at h
    · split at h <;> cases h
    split at h
    · cases h
    split at h
    · split at h <;> cases h
    split at h
    · exact absurd h stringStep_ne_word
    · split at h
      · rename_i filled
        cases h
        exact isWord_take filled
      · split at h
        · cases h
        · exact absurd h symbolStep_ne_word

/-- **A word that the scanner reads may be a name.** -/
theorem step_isWord (h : step fuel before text modes = .token (.word word) n after) :
    IsWord word := by
  rw [step.eq_def] at h
  split at h
  · rw [textStep.eq_def] at h
    split at h <;> cases h
  · rw [specStep.eq_def] at h
    dsimp only at h
    split at h <;> cases h
  · exact codeStep_isWord h
  · cases h

end

/-- The tokens of a line have words where they were made from words; the induction is on the fuel of
the scanner. -/
theorem wordy_lexLine (fuel : Nat) (modes : List Mode) (gap : List Char) (before : List Token)
    (cursor : Cursor) (read : Wordy before) : Wordy (lexLine fuel modes gap before cursor).1 := by
  have reversed : ∀ {tokens : List Token}, Wordy tokens → Wordy tokens.reverse :=
    fun read token there => read token (List.mem_reverse.1 there)
  fun_induction lexLine fuel modes gap before cursor with
  | case1 => exact reversed read
  | case2 => exact reversed read
  | case3 => exact reversed read
  | case4 _ _ _ _ _ _ _ ih => exact ih read
  | case5 fuel modes gap before cursor lexeme n after made token ih =>
      refine ih fun other there text eq => ?_
      rcases List.mem_cons.1 there with rfl | there
      · obtain rfl : lexeme = .word text := eq
        exact step_isWord made
      · exact read other there text eq

theorem wordy_lexLines (size fuel : Nat) (cursor : Cursor) :
    ∀ line ∈ lexLines size fuel cursor, Wordy line.tokens := by
  induction fuel generalizing cursor with
  | zero => exact List.forall_mem_nil _
  | succ fuel ih =>
      rw [lexLines]
      generalize indentation size 0 cursor = start
      obtain ⟨indent, first⟩ := start
      have made := wordy_lexLine size [.code 0] [] [] first (List.forall_mem_nil _)
      dsimp only
      generalize lexLine size [.code 0] [] [] first = scanned at made
      obtain ⟨tokens, next, broken⟩ := scanned
      intro line there
      split at there
      · cases there
      · split at there
        · rw [List.mem_singleton.1 there]
          exact made
        · split at there
          · exact ih next line there
          · rcases List.mem_cons.1 there with rfl | there
            · exact made
            · exact ih next line there

/-- **The words of a source may be names.** -/
theorem wordy_lex (source : String) : ∀ line ∈ lex source, Wordy line.tokens :=
  wordy_lexLines _ _ _

end CodeSurvey.Python
