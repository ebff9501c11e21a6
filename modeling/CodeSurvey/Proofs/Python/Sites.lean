import CodeSurvey.Proofs.Python.Statements

/-!
# Sites of parsed sources

The forms of a parsed source have sites of their own. A statement spends the tokens of its lines,
the scanner makes each token at an offset of its own, so no site is paid for twice.

* `block_reads`: the statements of a block weigh no more than the lines they take.
* `atSite_lex`: no two tokens of a source start at one offset.
* `parse_forms_nodup`: no two forms of a parsed source have one site.
-/

namespace CodeSurvey.Python

open TokenParser

/-- What the tokens of some lines are worth. -/
def linesWorth (a : Worth) : Lines → Nat
  | []            => 0
  | line :: lines => tokensWorth a line.tokens + linesWorth a lines

/-! ### Reading lines -/

/-- The result of reading some lines weighs no more than those it takes, with so much credit. -/
def Reads {α : Type} (a : Worth) (credit : Nat) (w : α → Nat) (lines : Lines)
    (reading : Reading (α × Lines)) : Prop :=
  ∀ x rest, reading = .ok (x, rest) →
    w x + linesWorth a rest ≤ credit + linesWorth a lines

/-- The same of a line that is read whole. -/
def ReadsLine {α : Type} (a : Worth) (w : α → Nat) (line : LogicalLine) (reading : Reading α) :
    Prop :=
  ∀ x, reading = .ok x → w x ≤ tokensWorth a line.tokens

variable {α β : Type} {a : Worth} {c : Nat} {w : α → Nat} {w' : β → Nat} {line : LogicalLine}
  {lines : Lines}

namespace Reads

/-- What is there without reading on is paid out of the credit. -/
theorem ok {x : α} (h : w x ≤ c) : Reads a c w lines (.ok (x, lines)) := by
  rintro _ _ ⟨⟩
  omega

theorem error {n : Nat} : Reads a c w lines (.error n) := by
  rintro x rest ⟨⟩

theorem mono {c' : Nat} {v : α → Nat} {reading : Reading (α × Lines)}
    (h : Reads a c w lines reading) (more : c ≤ c') (less : ∀ x, v x ≤ w x) :
    Reads a c' v lines reading := by
  intro x rest eq
  have := h x rest eq
  have := less x
  omega

/-- What has been read is credit for what follows, beside what was left of the credit before. -/
theorem bind (left : Nat) {c' : Nat} {reading : Reading (α × Lines)}
    {f : α × Lines → Reading (β × Lines)} (first : Reads a c' w lines reading)
    (enough : left + c' ≤ c) (next : ∀ x rest, Reads a (left + w x) w' rest (f (x, rest))) :
    Reads a c w' lines (reading >>= f) := by
  intro y final eq
  cases reading with
  | error n => cases eq
  | ok result =>
      obtain ⟨x, rest⟩ := result
      have := first x rest rfl
      have := next x rest y final eq
      omega

/-- A line that has been read leaves credit for the lines after it. -/
theorem ofLine (left : Nat) {reading : Reading α} {f : α → Reading (β × Lines)}
    (first : ReadsLine a w line reading) (enough : left + tokensWorth a line.tokens ≤ c)
    (next : ∀ x, Reads a (left + w x) w' lines (f x)) : Reads a c w' lines (reading >>= f) := by
  intro y final eq
  cases reading with
  | error n => cases eq
  | ok x =>
      have := first x rfl
      have := next x y final eq
      omega

/-- The first line is taken whole. -/
theorem cons {reading : Reading (α × Lines)}
    (h : Reads a (c + tokensWorth a line.tokens) w lines reading) :
    Reads a c w (line :: lines) reading := by
  intro x rest eq
  have := h x rest eq
  rw [linesWorth]
  omega

theorem ite {condition : Prop} [Decidable condition] {left right : Reading (α × Lines)}
    (yes : Reads a c w lines left) (no : Reads a c w lines right) :
    Reads a c w lines (if condition then left else right) := by
  split
  · exact yes
  · exact no

end Reads

/-- A parser of one line spends what is on it. -/
theorem onLine_reads {p : Nat → TokenParser Node → TokenParser α}
    (h : ∀ {size : Nat} {expr : TokenParser Node}, Spends a 0 (weight a) expr → NamesFirst expr →
      Spends a 0 w (p size expr)) (line : LogicalLine) : ReadsLine a w line (onLine p line) := by
  intro x eq
  rw [onLine.eq_def] at eq
  dsimp only at eq
  split at eq
  · cases eq
  · split at eq
    · next result _ read =>
        cases eq
        have whole : Spends a 0 w (do
            let result ← p (line.tokens.length + 1)
              (expression (line.tokens.length + 1) (line.tokens.length + 1))
            finish
            pure result) :=
          .bind (h (expression_spends _ _) (expression_namesFirst _ _)) fun _ =>
            .bind finish_spends fun _ => .pure (by simp)
        have := whole _ _ _ read
        omega
    · cases eq

section

variable {inner : BlockParser}
  (inners : ∀ top lines, Reads a 0 (weightIn a) lines (inner top lines))

include inners

/-- A body pays for itself on its own lines, or behind the colon. -/
theorem body_reads (top : Nat) (behind : Option (List Node)) (lines : Lines) :
    Reads a (weightIn a (behind.getD [])) (weightIn a) lines (body inner top behind lines) := by
  rw [body.eq_def]
  split
  · exact .ok (by simp)
  · exact .ok (by simp)
  · exact .ite ((inners _ _).mono (Nat.zero_le _) fun _ => Nat.le_refl _) (.ok (by simp))

/-- A clause pays with its line and its body. -/
theorem clause_reads {head : Nat → TokenParser Node → TokenParser α}
    (heads : ∀ {size : Nat} {expr : TokenParser Node}, Spends a 0 (weight a) expr →
      Spends a 0 w (head size expr)) (top : Nat) (line : LogicalLine) (lines : Lines) :
    Reads a (tokensWorth a line.tokens) (fun result => w result.1 + weightIn a result.2) lines
      (clause inner head top line lines) := by
  have read : ReadsLine a _ line (onLine (headed head) line) :=
    onLine_reads (fun h first => headed_spends h first (heads h)) line
  refine .ofLine 0 read (by simp) fun result => ?_
  refine .bind (w result.1) (body_reads inners top result.2 lines) (by simp) fun nodes rest => ?_
  exact .ok (Nat.le_refl _)

/-- An `else` that is not there takes no line. -/
theorem optionalClause_reads (text : String) (top : Nat) (lines : Lines) :
    Reads a 0 (weightIn a) lines (optionalClause inner text top lines) := by
  rw [optionalClause.eq_def]
  split
  · refine .ite (.cons ?_) (.ok (by simp))
    refine .bind 0 (clause_reads inners (fun _ => bareHead_free text) top _ _) (by simp) ?_
    exact fun result after => .ok (by simp)
  · exact .ok (by simp)

/-- Clauses of one kind pay one after another; the induction is on how many there may be. -/
theorem clauses_reads {text : String} {head : Nat → TokenParser Node → TokenParser (List Node)}
    (heads : ∀ {size : Nat} {expr : TokenParser Node}, Spends a 0 (weight a) expr →
      Spends a 0 (weightIn a) (head size expr)) (top : Nat) :
    ∀ (fuel : Nat) (lines : Lines), Reads a 0 (weightIn a) lines
      (clauses inner text head top fuel lines)
  | 0, lines => .ok (by simp)
  | _ + 1, [] => .ok (by simp)
  | fuel + 1, line :: rest => by
      rw [clauses]
      refine .ite (.cons ?_) (.ok (by simp))
      refine .bind 0 (clause_reads inners heads top line rest) (by simp) fun first after => ?_
      refine .bind _ (clauses_reads heads top fuel after) (Nat.le_refl _) fun more final => ?_
      exact .ok (by simp)

/-! ### Compound statements -/

/-- The branches of an `if` pay line by line. -/
theorem ifStatement_reads (top : Nat) (line : LogicalLine) (lines : Lines) :
    Reads a (tokensWorth a line.tokens) (weight a) lines (ifStatement inner top line lines) := by
  have elifs : ∀ rest, Reads a 0 (weightIn a) rest (clauses inner "elif" (fun size expr => do
      let condition ← conditionHead "elif" size expr
      pure [condition]) top rest.length rest) :=
    fun rest => clauses_reads inners (fun h => .bind (conditionHead_spends h _) fun _ =>
      .pure (by simp)) top rest.length rest
  refine .bind 0 (clause_reads inners (fun h => conditionHead_spends h _) top line lines) (by simp)
    fun first rest => ?_
  refine .bind _ (elifs rest) (Nat.le_refl _) fun more rest => ?_
  refine .bind _ (optionalClause_reads inners _ top rest) (Nat.le_refl _) fun final rest => ?_
  exact .ok (by simp; omega)

theorem whileStatement_reads (top : Nat) (line : LogicalLine) (lines : Lines) :
    Reads a (tokensWorth a line.tokens) (weight a) lines (whileStatement inner top line lines) := by
  refine .bind 0 (clause_reads inners (fun h => conditionHead_spends h _) top line lines) (by simp)
    fun first rest => ?_
  refine .bind _ (optionalClause_reads inners _ top rest) (Nat.le_refl _) fun final rest => ?_
  exact .ok (by simp; omega)

theorem forStatement_reads (top : Nat) (line : LogicalLine) (lines : Lines) :
    Reads a (tokensWorth a line.tokens) (weight a) lines (forStatement inner top line lines) := by
  refine .bind 0 (clause_reads inners forHead_spends top line lines) (by simp)
    fun ⟨⟨target, values⟩, nodes⟩ rest => ?_
  refine .bind _ (optionalClause_reads inners _ top rest) (Nat.le_refl _) fun final rest => ?_
  exact .ok (by simp; omega)

theorem withStatement_reads (top : Nat) (line : LogicalLine) (lines : Lines) :
    Reads a (tokensWorth a line.tokens) (weight a) lines (withStatement inner top line lines) := by
  refine .bind 0 (clause_reads inners withHead_spends top line lines) (by simp) fun first rest => ?_
  exact .ok (by simp)

/-- So do the parts of a `try`. -/
theorem tryStatement_reads (top : Nat) (line : LogicalLine) (lines : Lines) :
    Reads a (tokensWorth a line.tokens) (weight a) lines (tryStatement inner top line lines) := by
  refine .bind 0 (clause_reads inners (fun _ => bareHead_free "try") top line lines) (by simp)
    fun first rest => ?_
  refine .bind _ (clauses_reads inners exceptHead_spends top rest.length rest) (Nat.le_refl _)
    fun handlers rest => ?_
  have final : ∀ (otherwise : List Node) (rest : Lines),
      Reads a (weightIn a first.2 + weightIn a handlers + weightIn a otherwise) (weight a) rest (do
        let final ← optionalClause inner "finally" top rest
        if handlers.isEmpty && final.1.isEmpty then .error line.line
        else pure (.branch (first.2 ++ handlers ++ otherwise ++ final.1), final.2)) := by
    intro otherwise rest
    refine .bind _ (optionalClause_reads inners _ top rest) (Nat.le_refl _) fun final rest => ?_
    exact .ite .error (.ok (by simp [Nat.add_assoc]))
  refine .ite ?_ ?_
  · exact (final [] rest).mono (by simp) fun _ => Nat.le_refl _
  · refine .bind _ (optionalClause_reads inners _ top rest) (Nat.le_refl _) fun nodes rest => ?_
    exact (final nodes rest).mono (by simp) fun _ => Nat.le_refl _

/-- **A function pays for its site with the first token of its line**, and its body pays for itself.
-/
theorem functionStatement_reads (top : Nat) (line : LogicalLine) (lines : Lines) :
    Reads a (tokensWorth a line.tokens) (weight a) lines
      (functionStatement inner top line lines) := by
  refine .bind 0 (clause_reads inners functionHead_spends top line lines) (by simp)
    fun first rest => .ok ?_
  simp only [weight_function, DefinitionHead.weight]
  omega

theorem classStatement_reads (top : Nat) (line : LogicalLine) (lines : Lines) :
    Reads a (tokensWorth a line.tokens) (weight a) lines (classStatement inner top line lines) := by
  refine .bind 0 (clause_reads inners classHead_spends top line lines) (by simp)
    fun first rest => .ok ?_
  simp only [weight_classDef, DefinitionHead.weight]
  omega

/-- Decorators pay with their own lines; the induction is on how many there may be. -/
theorem decoratedStatement_reads (top first : Nat) :
    ∀ (fuel : Nat) (decorators : List Node) (lines : Lines),
      Reads a (weightIn a decorators) (weight a) lines
        (decoratedStatement inner top first fuel decorators lines)
  | 0, _, _ => .error
  | _ + 1, _, [] => .error
  | fuel + 1, decorators, line :: lines => by
      rw [decoratedStatement]
      refine .ite .error (.ite ?_ (.ite ?_ (.ite ?_ .error)))
      · refine .cons (.ofLine _ (onLine_reads (fun h _ => decorator_spends h) line) (Nat.le_refl _)
          fun node => ?_)
        refine (decoratedStatement_reads top first fuel _ lines).mono ?_ fun _ => Nat.le_refl _
        simp
      · refine .cons (.bind _ (functionStatement_reads inners top line lines) (Nat.le_refl _) ?_)
        exact fun node rest => .ok (by simp)
      · refine .cons (.bind _ (classStatement_reads inners top line lines) (Nat.le_refl _) ?_)
        exact fun node rest => .ok (by simp)

omit inners in
/-- A case pays with what stands behind its colon, if its body is on the same line. -/
theorem caseLine_spends {size : Nat} {expr : TokenParser Node}
    (spends : Spends a 0 (weight a) expr) (first : NamesFirst expr) :
    Spends a 0 (fun result => weightIn a result.1 + weightIn a (result.2.getD [])) (do
      let parts ← caseHead size expr
      match ← peek with
      | none   => pure (parts, none)
      | some _ =>
        let nodes ← simpleStatements size expr
        pure (parts, some nodes)) := by
  refine .bind (caseHead_spends spends) fun parts => .bind peek_spends fun found => ?_
  split
  · exact .pure (by simp)
  · exact .bind (simpleStatements_spends spends first) fun nodes => .pure (by simp)

/-- The cases of a `match` pay one after another. -/
theorem caseClauses_reads (level : Nat) : ∀ (fuel : Nat) (lines : Lines),
    Reads a 0 (weightIn a) lines (caseClauses inner level fuel lines)
  | 0, lines => .ok (by simp)
  | _ + 1, [] => .ok (by simp)
  | fuel + 1, line :: lines => by
      rw [caseClauses]
      refine .ite (.ok (by simp)) (.cons ?_)
      refine .ofLine 0 (onLine_reads caseLine_spends line) (by simp) fun result => ?_
      refine .bind (weightIn a result.1) (body_reads inners level result.2 lines) (by simp)
        fun nodes rest => ?_
      refine .bind _ (caseClauses_reads level fuel rest) (Nat.le_refl _) fun more final => ?_
      exact .ok (by simp)

theorem matchStatement_reads (top : Nat) (subjects : List Node) (lines : Lines) :
    Reads a (weightIn a subjects) (weight a) lines (matchStatement inner top subjects lines) := by
  rw [matchStatement.eq_def]
  split
  · exact .ok (by simp)
  · refine .ite ?_ (.ok (by simp))
    refine .bind (weightIn a subjects) (caseClauses_reads inners _ _ _) (Nat.le_refl _)
      fun cases rest => ?_
    exact .ok (by simp)

omit inners in
theorem simpleLine_reads (line : LogicalLine) (lines : Lines) :
    Reads a (tokensWorth a line.tokens) (weight a) lines (simpleLine line lines) := by
  refine .ofLine 0 (onLine_reads simpleStatements_spends line) (by simp) fun nodes => ?_
  exact .ok (by simp)

/-- **A statement pays with its line and the lines of its blocks**, whichever word it starts with.
-/
theorem statement_reads (top : Nat) (line : LogicalLine) (lines : Lines) :
    Reads a (tokensWorth a line.tokens) (weight a) lines (statement inner top line lines) := by
  have decorated : Reads a (tokensWorth a line.tokens) (weight a) lines
      (decoratedStatement inner top line.line (lines.length + 1) [] (line :: lines)) := by
    intro x rest eq
    have := decoratedStatement_reads inners top line.line _ [] (line :: lines) x rest eq
    rw [linesWorth, weightIn_nil] at this
    omega
  refine .ite (ifStatement_reads inners top line lines) <|
    .ite (whileStatement_reads inners top line lines) <|
    .ite (tryStatement_reads inners top line lines) <|
    .ite (classStatement_reads inners top line lines) <|
    .ite (functionStatement_reads inners top line lines) <|
    .ite (forStatement_reads inners top line lines) <|
    .ite (withStatement_reads inners top line lines) <|
    .ite decorated <| .ite ?_ (simpleLine_reads line lines)
  split
  · next subjects read =>
      refine (matchStatement_reads inners top subjects lines).mono ?_ fun _ => Nat.le_refl _
      exact onLine_reads (fun h _ => matchHead_spends h) line subjects read
  · exact simpleLine_reads line lines

end

/-- **The statements of a block weigh no more than the lines they take.** -/
theorem block_reads : ∀ (fuel top : Nat) (lines : Lines),
    Reads a 0 (weightIn a) lines (block fuel top lines)
  | 0, _, _ => .ok (by simp)
  | _ + 1, _, [] => .ok (by simp)
  | fuel + 1, top, line :: lines => by
      rw [block]
      refine .ite (.ok (by simp)) (.cons ?_)
      refine .bind 0 (statement_reads (block_reads fuel) top line lines) (by simp)
        fun node rest => ?_
      refine .bind _ (block_reads fuel top rest) (Nat.le_refl _) fun nodes final => ?_
      exact .ok (by simp)

/-! ### The scanner -/

/-- The head of a string has at least its quote. -/
theorem stringHead_pos {text : List Char} {style : StringStyle} {opening : Nat}
    (h : stringHead text = some (style, opening)) : 0 < opening := by
  rw [stringHead.eq_def] at h
  dsimp only at h
  split at h
  · split at h
    · cases h
      split <;> omega
    · cases h
  · cases h

theorem symbolAt_pos {text : List Char} {symbol : String} (h : symbolAt text = some symbol) :
    0 < symbol.length := by
  have listed : ∀ symbol ∈ symbols, 0 < symbol.length := by decide
  exact listed symbol (List.mem_of_find?_eq_some h)

theorem closing_pos (style : StringStyle) : 0 < style.closing.length := by
  rw [StringStyle.closing]
  split <;> simp

section

variable {fuel n : Nat} {before : List Token} {text : List Char} {mode : Mode}
  {modes after : List Mode} {lexeme : Lexeme}

/-- A string takes its head, whatever is in it. -/
theorem stringStep_pos {style : StringStyle} {opening : Nat} (head : 0 < opening)
    (h : stringStep fuel style opening text modes = .token lexeme n after) : 0 < n := by
  rw [stringStep.eq_def] at h
  split at h
  · cases h
    exact head
  · dsimp only at h
    split at h
    · cases h
      omega
    · cases h

/-- A symbol takes its own length. -/
theorem symbolStep_pos (h : symbolStep before text mode modes = .token lexeme n after) :
    0 < n := by
  rw [symbolStep.eq_def] at h
  split at h
  · cases h
    omega
  · cases h
    omega
  · split at h <;> cases h <;> omega
  · split at h
    · cases h
      omega
    · cases h
  · cases h
    exact symbolAt_pos ‹_›
  · cases h

/-- A token takes characters, of which there are some. -/
theorem codeStep_pos (h : codeStep fuel before text mode modes = .token lexeme n after) :
    0 < n ∧ text ≠ [] := by
  rw [codeStep.eq_def] at h
  split at h
  · split at h <;> cases h
  · refine ⟨?_, List.cons_ne_nil _ _⟩
    dsimp only at h
    -- blanks, ends and faults are no tokens
    split at h
    · cases h
    split at h
    · split at h <;> cases h
    split at h
    · cases h
    split at h
    · split at h <;> cases h
    split at h
    · exact stringStep_pos (stringHead_pos ‹_›) h
    · split at h
      · cases h
        omega
      · split at h
        · cases h
          omega
        · exact symbolStep_pos h

/-- Text inside a formatted string moves the scanner on. -/
theorem textStep_pos {style : StringStyle}
    (h : textStep fuel style text modes = .token lexeme n after) : 0 < n ∧ text ≠ [] := by
  have filled : text ≠ [] := by
    rintro rfl
    cases fuel <;> cases h
  rw [textStep.eq_def] at h
  have := closing_pos style
  split at h
  · cases h
    exact ⟨by omega, filled⟩
  · cases h
    exact ⟨by omega, filled⟩
  · cases h

/-- So does a format. -/
theorem specStep_pos (h : specStep text modes = .token lexeme n after) : 0 < n ∧ text ≠ [] := by
  have filled : text ≠ [] := by
    rintro rfl
    cases h
  rw [specStep.eq_def] at h
  dsimp only at h
  split at h
  · cases h
    exact ⟨by omega, filled⟩
  · cases h
    exact ⟨by omega, filled⟩
  · cases h

/-- **A step that makes a token moves on.** -/
theorem step_pos (h : step fuel before text modes = .token lexeme n after) : 0 < n ∧ text ≠ [] := by
  rw [step.eq_def] at h
  split at h
  · exact textStep_pos h
  · exact specStep_pos h
  · exact codeStep_pos h
  · cases h

end

/-! ### Offsets -/

/-- Skipping characters moves the offset by as many as there are. -/
@[simp] theorem offset_skip (n : Nat) (cursor : Cursor) :
    (cursor.skip n).offset = cursor.offset + min n cursor.rest.length := by
  fun_induction Cursor.skip n cursor with
  | case1 => simp
  | case2 => simp
  | case3 n c rest line offset ih =>
      rw [ih]
      simp only [List.length_cons]
      omega

/-- One for every token at a site. -/
def Worth.atSite (a : Nat) : Worth where
  site b := if b = a then 1 else 0
  line _ := 0

/-- Counting a single site counts how often it is there. -/
theorem sum_atSite (a : Nat) (sites : List Nat) :
    (sites.map (Worth.atSite a).site).sum = sites.count a := by
  induction sites with
  | nil => rfl
  | cons site rest ih =>
      rw [List.map_cons, List.sum_cons, ih, List.count_cons, Nat.add_comm]
      simp only [Worth.atSite, beq_iff_eq]

/-- One if a site lies between two offsets. -/
def between (low high a : Nat) : Nat :=
  if low ≤ a ∧ a < high then 1 else 0

/-- Ranges one after another hold a site no more often than the range of both. -/
theorem between_le {a low middle high : Nat} (first : low ≤ middle) (second : middle ≤ high) :
    between low middle a + between middle high a ≤ between low high a := by
  simp only [between]
  split <;> split <;> split <;> omega

/-- A token that is not empty holds its own offset. -/
theorem atSite_le_between {a low high : Nat} (h : low < high) :
    (if low = a then 1 else 0) ≤ between low high a := by
  simp only [between]
  split <;> split <;> omega

/-- Reading an indentation never goes back. -/
theorem offset_indentation (fuel indent : Nat) (cursor : Cursor) :
    cursor.offset ≤ (indentation fuel indent cursor).2.offset := by
  fun_induction indentation fuel indent cursor <;> simp_all <;> omega

theorem tokensWorth_reverse (a : Worth) (tokens : List Token) :
    tokensWorth a tokens.reverse = tokensWorth a tokens := by
  rw [tokensWorth, tokensWorth, List.map_reverse, List.sum_reverse]

/-- A line makes at most one token at each offset from where it starts to where it ends. -/
theorem lexLine_atSite (a fuel : Nat) (modes : List Mode) (gap : List Char) (before : List Token)
    (cursor : Cursor) :
    let result := lexLine fuel modes gap before cursor
    cursor.offset ≤ result.2.1.offset ∧
      tokensWorth (.atSite a) result.1 ≤
        tokensWorth (.atSite a) before + between cursor.offset result.2.1.offset a := by
  fun_induction lexLine fuel modes gap before cursor with
  | case1 => simp [tokensWorth_reverse]
  | case2 => simp [tokensWorth_reverse]
  | case3 => simp [tokensWorth_reverse]
  | case4 fuel modes gap before cursor n h ih =>
      obtain ⟨moves, made⟩ := ih
      have skipped := offset_skip n cursor
      have := between_le (a := a) (show cursor.offset ≤ (cursor.skip n).offset by omega) moves
      exact ⟨by omega, by omega⟩
  | case5 fuel modes gap before cursor lexeme n after h token ih =>
      obtain ⟨moves, made⟩ := ih
      -- the token starts where the step does, and the rest of the line after it
      obtain ⟨positive, filled⟩ := step_pos h
      have : 0 < cursor.rest.length := List.length_pos_iff.2 filled
      have skipped := offset_skip n cursor
      have advances : cursor.offset < (cursor.skip n).offset := by omega
      have := between_le (a := a) (Nat.le_of_lt advances) moves
      have : (Worth.atSite a).token token ≤ between cursor.offset (cursor.skip n).offset a :=
        atSite_le_between advances
      rw [tokensWorth_cons] at made
      exact ⟨by omega, by omega⟩

/-- Lines make at most one token at each offset from where they start. -/
theorem atSite_lexLines (a size : Nat) : ∀ (fuel : Nat) (cursor : Cursor),
    linesWorth (.atSite a) (lexLines size fuel cursor) ≤ if cursor.offset ≤ a then 1 else 0
  | 0, cursor => Nat.zero_le _
  | fuel + 1, cursor => by
      rw [lexLines]
      have indented := offset_indentation size 0 cursor
      generalize indentation size 0 cursor = start at *
      obtain ⟨indent, first⟩ := start
      obtain ⟨moves, made⟩ := lexLine_atSite a size [.code 0] [] [] first
      dsimp only
      generalize lexLine size [.code 0] [] [] first = scanned at *
      obtain ⟨tokens, next, broken⟩ := scanned
      have later := atSite_lexLines a size fuel next
      dsimp only at *
      have bound : tokensWorth (.atSite a) tokens +
          linesWorth (.atSite a) (lexLines size fuel next) ≤
            if cursor.offset ≤ a then 1 else 0 := by
        have nothing : tokensWorth (.atSite a) [] = 0 := rfl
        rw [between, nothing] at made
        split at made <;> split at later <;> split <;> omega
      split
      · exact Nat.zero_le _
      · split
        · simp only [linesWorth]
          omega
        · split
          · omega
          · simp only [linesWorth]
            omega

/-- **No two tokens of a source have the same site.** -/
theorem atSite_lex (a : Nat) (source : String) : linesWorth (.atSite a) (lex source) ≤ 1 :=
  Nat.le_trans (atSite_lexLines a _ _ _) (by split <;> omega)

/-! ### Sources -/

/-- **No two forms of a parsed source have one site.** -/
theorem parse_forms_nodup {source : String} {nodes : List Node}
    (parsed : parse source = .ok nodes) : (Node.formsIn nodes).Nodup := by
  rw [List.nodup_iff_count]
  intro a
  cases read : block ((lex source).length + 1) 0 (lex source) with
  | error n =>
      rw [parse, read] at parsed
      cases parsed
  | ok result =>
      rw [parse, read] at parsed
      cases parsed
      have read := block_reads (a := .atSite a) _ _ _ _ _ read
      have once := atSite_lex a source
      rw [weightIn, sum_atSite] at read
      omega

end CodeSurvey.Python
