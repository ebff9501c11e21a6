import CodeSurvey.Python.Module
import CodeSurvey.Proofs.Python.NamesFirst
import CodeSurvey.Proofs.Python.Spending

/-!
# What statements spend tokens on

The same account for patterns, for simple statements and for the heads of compound ones. A
definition pays for itself with the first token of its head and with its name. An assignment starts
at the name it assigns to, which pays for both.

* `simpleStatements_spends`: a line of simple statements spends a token on every form and every
  line.
* `headed_spends`: so does a head with what stands behind its colon.
* `functionHead_spends`, `classHead_spends`: the heads that open a scope.
-/

namespace CodeSurvey.Python

open TokenParser

variable {α : Type} {a : Worth} {size : Nat} {w : α → Nat} {expr : TokenParser Node}
  (spends : Spends a 0 (weight a) expr) (first : NamesFirst expr)

/-! ### Imports -/

theorem dottedName_free (size : Nat) : Spends a 0 free (dottedName size) := by
  have later : Spends a 0 free (do
      let dot ← lexeme (.mark ".")
      let pair ← anyWord
      pure (dot.gap ++ "." ++ pair.1.gap ++ pair.2)) :=
    .bind (lexeme_free _) fun dot => .bind anyWord_free fun pair => .pure (by simp)
  exact .bind anyWord_free fun pair => .bind (many_spends later size) fun more => .pure (by simp)

/-- The texts of an import weigh nothing. -/
theorem importedName_free (size : Nat) : Spends a 0 free (importedName size) := by
  have renamed : Spends a 0 free ((do
      let _ ← word "as"
      let pair ← anyWord
      pure (some pair.2)) <|> pure none) :=
    .orElse (.bind (word_free _) fun _ => .bind anyWord_free fun pair => .pure (by simp))
      (.pure (by simp))
  exact .bind (dottedName_free size) fun name => .bind renamed fun asName => .pure (by simp)

theorem importedNames_free (size : Nat) : Spends a 0 free (importedNames size) := by
  have names := commas_spends (importedName_free (a := a) size) size
  refine .bind (mark?_spends _) fun _ => .ite ?_ ?_
  · exact .bind names fun items => .bind (mark_spends _) fun _ => .pure (by simp)
  · exact .bind names fun items => .pure (by simp)

/-- Nor do the dots before a module. -/
theorem leadingDots_free : Spends a 0 free leadingDots := by
  refine .bind next_free fun token => ?_
  split
  · exact .pure (by simp)
  · exact .pure (by simp)
  · exact .failure

/-- An import pays for its line with the word that starts it. -/
theorem importStatement_spends (size : Nat) : Spends a 0 (weight a) (importStatement size) := by
  refine .orElse ?_ ?_
  · refine .bind (word_line _) fun start => ?_
    exact .bind (commas_spends (importedName_free size) size) fun items => .pure (by simp)
  · refine .bind (word_line _) fun start => ?_
    refine .bind (many_spends leadingDots_free size) fun dots => ?_
    have module : Spends a 0 free ((do
        require (dots.sum ≠ 0 && (← atWord? ["import"]))
        pure "") <|> dottedName size) :=
      .orElse (.bind (atWord?_spends _) fun _ => .bind (require_spends _) fun _ => .pure (by simp))
        (dottedName_free size)
    refine .bind module fun name => .bind (word_free _) fun _ => .ite ?_ ?_
    · exact .bind (importedNames_free size) fun names => .pure (by simp)
    · refine .bind (mark?_spends _) fun _ => .ite (.pure (by simp)) ?_
      exact .bind (importedNames_free size) fun names => .pure (by simp)

/-! ### Simple statements -/

/-- What is read after the line has been noted is on that line, if it is a name. -/
theorem Spends.afterLine {β : Type} {c : Nat} {w' : β → Nat} {p : TokenParser Node}
    {f : Nat → Node → TokenParser β} (spends : Spends a 0 (weight a) p) (first : NamesFirst p)
    (next : ∀ line left, Node.strayLine line left = [] →
      Spends a (c + weight a left) w' (f line left)) :
    Spends a c w' (do
      let line ← hereLine
      let left ← p
      f line left) := by
  intro tokens y rest eq
  obtain ⟨line, same, noted, eq⟩ := bind_eq_some eq
  obtain ⟨_, _, looked, noted⟩ := bind_eq_some noted
  cases looked
  cases noted
  obtain ⟨left, middle, read, later⟩ := bind_eq_some eq
  have here : Node.strayLine (firstLine tokens) left = [] := by
    cases left with
    | name own id =>
        rw [Node.strayLine, if_pos (first tokens own id middle read)]
    | _ => rfl
  have := spends tokens left middle read
  have := next (firstLine tokens) left here middle y rest later
  omega

/-- The names of `global` and `nonlocal` are texts, which weigh nothing. -/
theorem nameList_free (size : Nat) : Spends a 0 free (nameList size) := by
  have later : Spends a 0 free (do
      mark ","
      let pair ← anyWord
      pure pair.2) :=
    .bind (mark_spends _) fun _ => .bind anyWord_free fun pair => .pure (by simp)
  exact .bind anyWord_free fun pair => .bind (many_spends later size) fun more => .pure (by simp)

theorem printsToFile?_free : Spends a 0 free printsToFile? := by
  rintro tokens _ _ ⟨⟩
  exact Nat.le_refl _

theorem statementEnd_free : Spends a 0 free statementEnd := by
  refine .bind peekLexeme_spends fun found => ?_
  split
  · exact .pure (by simp)
  · exact .pure (by simp)
  · exact .failure

/-- The end of a line is read for nothing. -/
theorem wholeStatement_spends {p : TokenParser Node} (h : Spends a 0 (weight a) p) :
    Spends a 0 (weight a) (wholeStatement p) :=
  .bind h fun node => .bind statementEnd_free fun _ => .pure (by simp)

include spends

include first in
/-- **An assignment pays for its line with the name that it starts at**; the induction is on the
length of a chain. -/
theorem assignmentOrExpression_spends :
    ∀ fuel, Spends a 0 (weight a) (assignmentOrExpression size expr fuel)
  | 0 => by rintro tokens x rest ⟨⟩
  | fuel + 1 => by
      have value : Spends a 0 (weight a)
          (yieldExpression size expr <|> assignmentOrExpression size expr fuel) :=
        .orElse (yieldExpression_spends spends) (assignmentOrExpression_spends fuel)
      have assigned : Spends a 0 (weight a) ((do
          mark "="
          yieldExpression size expr <|> assignmentOrExpression size expr fuel) <|> pure .absent) :=
        .orElse (.bind (mark_spends _) fun _ => value) (.pure (by simp))
      refine .afterLine (bareList_spends spends) (bareList_namesFirst first)
        fun line left here => ?_
      refine .bind (mark?_spends _) fun _ => .ite ?_ ?_
      · exact .bind (require_spends _) fun _ => .bind value fun right => .pure (by simp [here])
      · refine .bind (mark?_spends _) fun _ => .ite ?_ ?_
        · refine .bind (require_spends _) fun _ => .bind (hint_spends spends size) fun type => ?_
          exact .bind assigned fun right => .pure (by simp [here, Nat.add_assoc])
        · refine .bind (atMark?_spends _) fun _ => .ite ?_ (.pure (by simp))
          refine .bind next_free fun _ => .bind (require_spends _) fun _ => ?_
          exact .bind value fun right => .pure (by simp)

include first in
theorem expressionStatement_spends : Spends a 0 (weight a) (expressionStatement size expr) :=
  .orElse (yieldExpression_spends spends) (assignmentOrExpression_spends spends first size)

/-- What is raised and what it is raised from pay for themselves. -/
theorem raiseStatement_spends : Spends a 0 (weight a) (raiseStatement size expr) := by
  have raised : Spends a 0 (weightIn a) ((do
      require !(← atWord? ["from"])
      let value ← bareList size expr
      pure [value]) <|> pure []) := by
    refine .orElse (.bind (atWord?_spends _) fun _ => .bind (require_spends _) fun _ => ?_)
      (.pure (by simp))
    exact .bind (bareList_spends spends) fun value => .pure (by simp)
  have cause : Spends a 0 (weightIn a) ((do
      let _ ← word "from"
      let value ← expr
      pure [value]) <|> pure []) :=
    .orElse (.bind (word_free _) fun _ => .bind spends fun value => .pure (by simp))
      (.pure (by simp))
  exact .bind (word_free _) fun _ => .bind raised fun _ => .bind cause fun _ => .pure (by simp)

theorem moreExpressions_spends : Spends a 0 (weight a) (do mark ","; expr) :=
  .bind (mark_spends _) fun _ => spends

theorem assertStatement_spends : Spends a 0 (weight a) (assertStatement size expr) := by
  refine .bind (word_free _) fun _ => .bind spends fun first => ?_
  exact .bind (many_spends (moreExpressions_spends spends) size) fun more => .pure (by simp)

/-- So do the expressions of `print`, with a file or without. -/
theorem printStatement_spends : Spends a 0 (weight a) (printStatement size expr) := by
  refine .bind (word_free _) fun _ => .bind (mark?_spends _) fun _ => .ite ?_ ?_
  · refine .bind spends fun file => ?_
    refine .bind (many_spends (moreExpressions_spends spends) size) fun items => ?_
    exact .bind (mark?_spends _) fun _ => .pure (by simp)
  · exact .bind (commas_spends spends size) fun items => .pure (by simp)

theorem execStatement_spends : Spends a 0 (weight a) (execStatement size expr) := by
  have code : Spends a 0 (weight a) ((do
      let pair ← anyWord
      pure (Node.name pair.1.line pair.2)) <|> strings size expr) :=
    .orElse (.bind anyWord_spends fun pair => .pure (by simp)) (strings_spends spends)
  have spaces : Spends a 0 (weightIn a) ((do
      let _ ← word "in"
      let first ← expr
      let more ← many (do mark ","; expr) size
      pure (first :: more)) <|> pure []) := by
    refine .orElse (.bind (word_free _) fun _ => .bind spends fun first => ?_) (.pure (by simp))
    exact .bind (many_spends (moreExpressions_spends spends) size) fun more => .pure (by simp)
  exact .bind (word_free _) fun _ => .bind code fun _ => .bind spaces fun _ => .pure (by simp)

/-- A type alias pays with its two hints. -/
theorem typeStatement_spends : Spends a 0 (weight a) (typeStatement size expr) := by
  refine .bind (word_free _) fun _ => .bind peekLexeme_spends fun found => ?_
  have sides : Spends a 0 (weight a) (do
      let left ← hint size expr size
      mark "="
      let right ← hint size expr size
      pure (.group [left, right])) :=
    .bind (hint_spends spends size) fun left => .bind (mark_spends _) fun _ =>
      .bind (hint_spends spends size) fun right => .pure (by simp)
  dsimp only
  split
  · exact .bind (require_spends _) fun _ => sides
  · exact .bind (.failure : Spends a 0 free _) fun _ => sides

include first in
/-- No keyword that starts a simple statement has to pay, but for the imports. -/
theorem keywordStatement_spends (text : String) :
    Spends a 0 (weight a) (keywordStatement size expr text) := by
  have plain : Spends a 0 (weight a) (expressionStatement size expr) :=
    expressionStatement_spends spends first
  rw [keywordStatement.eq_def]
  split
  · exact importStatement_spends size
  · exact importStatement_spends size
  · exact assertStatement_spends spends
  · exact raiseStatement_spends spends
  · refine .bind next_free fun _ => .orElse ?_ (.pure (by simp))
    exact .bind (bareList_spends spends) fun value => .pure (by simp)
  · exact .bind next_free fun _ => .bind (bareList_spends spends) fun _ => .pure (by simp)
  · exact .bind next_free fun _ => .pure (by simp)
  · exact .bind next_free fun _ => .pure (by simp)
  · exact .bind next_free fun _ => .pure (by simp)
  · exact .bind next_free fun _ => .bind (nameList_free size) fun _ => .pure (by simp)
  · exact .bind next_free fun _ => .bind (nameList_free size) fun _ => .pure (by simp)
  · refine .bind printsToFile?_free fun _ => .ite (printStatement_spends spends) ?_
    exact .orElse (wholeStatement_spends plain) (printStatement_spends spends)
  · exact .orElse (wholeStatement_spends plain) (execStatement_spends spends)
  · exact .orElse (typeStatement_spends spends) plain
  · exact plain

include first in
/-- What no keyword starts pays as an assignment or an expression. -/
theorem simpleStatement_spends : Spends a 0 (weight a) (simpleStatement size expr) := by
  refine .bind peekLexeme_spends fun found => ?_
  dsimp only
  split
  · exact .bind (keywordStatement_spends spends first _) fun _ =>
      .bind statementEnd_free fun _ => .pure (by simp)
  · exact .bind (expressionStatement_spends spends first) fun _ =>
      .bind statementEnd_free fun _ => .pure (by simp)

include first in
/-- **A line of simple statements spends a token on every form and every line in it.** -/
theorem simpleStatements_spends : Spends a 0 (weightIn a) (simpleStatements size expr) := by
  have later : Spends a 0 (weight a) (do mark ";"; simpleStatement size expr) :=
    .bind (mark_spends _) fun _ => simpleStatement_spends spends first
  refine .bind (simpleStatement_spends spends first) fun first => ?_
  refine .bind (many_spends later size) fun more => .bind (mark?_spends _) fun _ => ?_
  exact .bind finish_spends fun _ => .pure (by simp)

/-! ### Patterns -/

omit spends

/-- A dotted name in a pattern pays with its words. -/
theorem patternNames_spends (size : Nat) : Spends a 0 (weightIn a) (patternNames size) := by
  have later : Spends a 0 (weight a) (do
      mark "."
      let pair ← anyWord
      pure (Node.name pair.1.line pair.2)) :=
    .bind (mark_spends _) fun _ => .bind anyWord_spends fun pair => .pure (by simp)
  refine .bind anyWord_spends fun pair => .bind (many_spends later size) fun more => .pure ?_
  split <;> simp

theorem patternNumber_free : Spends a 0 free patternNumber := by
  have imaginary : Spends a 0 free ((do
      markOf ["+", "-"]
      let _ ← lexeme .number
      pure true) <|> pure false) :=
    .orElse (.bind (markOf_spends _) fun _ => .bind (lexeme_free _) fun _ => .pure (by simp))
      (.pure (by simp))
  refine .bind (mark?_spends _) fun _ => .bind (lexeme_free _) fun _ => ?_
  exact .bind imaginary fun _ => .pure (by simp)

theorem splatPattern_spends : Spends a 0 (weight a) splatPattern := by
  refine .bind (markOf_spends _) fun _ => .bind anyWord_spends fun pair => .pure ?_
  split <;> simp

include spends

/-- What closes a pattern costs nothing. -/
theorem closedPattern_spends {pattern : TokenParser Node} (inner : Spends a 0 (weight a) pattern) :
    Spends a 0 (weight a) (closedPattern size expr pattern) := by
  have items closing := listUntil_spends inner closing size
  have entry : Spends a 0 (weight a) (splatPattern <|> (do
      let key ← pattern
      mark ":"
      let value ← pattern
      pure (.group [key, value]))) :=
    .orElse splatPattern_spends (.bind inner fun key => .bind (mark_spends _) fun _ =>
      .bind inner fun value => .pure (by simp))
  have parts : Spends a 0 (weightIn a) ((do
      mark "("
      listUntil pattern ")" size) <|> pure []) := by
    refine .orElse (.bind (mark_spends _) fun _ => ?_) (.pure (by simp))
    exact (items ")").mono (Nat.zero_le _) (by simp)
  refine .orElse splatPattern_spends (.orElse ?_ (.orElse ?_ (.orElse ?_ (.orElse ?_
    (.orElse ?_ (strings_spends spends))))))
  · exact .bind (mark_spends _) fun _ => .bind (items ")") fun _ => .pure (by simp)
  · exact .bind (mark_spends _) fun _ => .bind (items "]") fun _ => .pure (by simp)
  · refine .bind (mark_spends _) fun _ => ?_
    exact .bind (listUntil_spends entry _ size) fun _ => .pure (by simp)
  · exact .bind patternNumber_free fun _ => .pure (by simp)
  · exact .bind (patternNames_spends size) fun _ => .bind parts fun _ => .pure (by simp)

/-- The name that a pattern is bound to pays for itself. -/
theorem patternStep_spends {pattern : TokenParser Node} (inner : Spends a 0 (weight a) pattern) :
    Spends a 0 (weight a) (patternStep size expr pattern) := by
  have closed : Spends a 0 (weight a) (closedPattern size expr pattern) :=
    closedPattern_spends spends inner
  have later : Spends a 0 (weight a) (do mark "|"; closedPattern size expr pattern) :=
    .bind (mark_spends _) fun _ => closed
  have union : Spends a 0 (weight a) (unionPattern size expr pattern) :=
    .bind closed fun first => .bind (many_spends later size) fun more => .pure (by simp)
  have name : Spends a 0 (weightIn a) ((do
      let pair ← anyWord
      mark "="
      pure [Node.name pair.1.line pair.2]) <|> pure []) :=
    .orElse (.bind anyWord_spends fun pair => .bind (mark_spends _) fun _ => .pure (by simp))
      (.pure (by simp))
  have captured : Spends a 0 (weightIn a) ((do
      let _ ← word "as"
      let pair ← anyWord
      pure [Node.name pair.1.line pair.2]) <|> pure []) :=
    .orElse (.bind (word_free _) fun _ => .bind anyWord_spends fun pair => .pure (by simp))
      (.pure (by simp))
  refine .bind name fun _ => .bind union fun _ => .bind captured fun _ => .pure ?_
  simp [Nat.add_assoc]

/-- Patterns pay with their words, however deep they are. -/
theorem casePattern_spends : ∀ fuel, Spends a 0 (weight a) (casePattern size expr fuel)
  | 0 => by rintro tokens x rest ⟨⟩
  | fuel + 1 => patternStep_spends spends (casePattern_spends fuel)

/-- A case pays for its patterns and its guard. -/
theorem caseHead_spends : Spends a 0 (weightIn a) (caseHead size expr) := by
  have pattern : Spends a 0 (weight a) (casePattern size expr size) :=
    casePattern_spends spends size
  have later : Spends a 0 (weight a) (do
      mark ","
      require !(← atWord? ["if"])
      casePattern size expr size) :=
    .bind (mark_spends _) fun _ => .bind (atWord?_spends _) fun _ =>
      .bind (require_spends _) fun _ => pattern
  have test : Spends a 0 (weightIn a) ((do
      let _ ← word "if"
      let test ← expr
      pure [test]) <|> pure []) :=
    .orElse (.bind (word_free _) fun _ => .bind spends fun test => .pure (by simp))
      (.pure (by simp))
  refine .bind (word_free _) fun _ => .bind pattern fun first => ?_
  refine .bind (many_spends later size) fun more => .bind (mark?_spends _) fun _ => ?_
  exact .bind test fun _ => .bind (mark_spends _) fun _ => .pure (by simp; omega)

/-! ### Heads -/

omit spends in
theorem bareHead_free (text : String) : Spends a 0 free (bareHead text size expr) :=
  .bind (word_free _) fun _ => .pure (by simp)

theorem conditionHead_spends (text : String) :
    Spends a 0 (weight a) (conditionHead text size expr) :=
  .bind (word_free _) fun _ => spends

/-- The exception that is caught pays for itself, and so does its name. -/
theorem exceptHead_spends : Spends a 0 (weightIn a) (exceptHead size expr) := by
  have target : Spends a 0 (weightIn a) ((do
      mark ","
      let node ← expr
      pure [Node.asTarget node]) <|> pure []) :=
    .orElse (.bind (mark_spends _) fun _ => .bind spends fun node => .pure (by simp))
      (.pure (by simp))
  refine .bind (word_free _) fun _ => .bind peek_spends fun found => ?_
  split
  · exact .bind next_free fun _ => .bind spends fun value => .pure (by simp)
  · refine .orElse (.bind spends fun value => ?_) (.pure (by simp))
    exact .bind target fun node => .pure (by simp)

/-- A loop pays for its target and for what it runs over. -/
theorem forHead_spends :
    Spends a 0 (fun head => weight a head.1 + weight a head.2) (forHead size expr) := by
  refine .bind (word?_spends _) fun _ => .bind (word_free _) fun _ => ?_
  refine .bind (targetList_spends (primary_spends spends size)) fun target => ?_
  refine .bind (word_free _) fun _ => .bind (bareList_spends spends) fun values => ?_
  exact .pure (by simp)

theorem withHead_spends : Spends a 0 (weightIn a) (withHead size expr) := by
  refine .bind (word?_spends _) fun _ => .bind (word_free _) fun _ => ?_
  exact .bind (commas_spends spends size) fun items => .pure (by simp)

/-- Type parameters are read and forgotten. -/
theorem typeParameters_free : Spends a 0 free (typeParameters size expr) := by
  have type : Spends a 0 free (hint size expr size) :=
    (hint_spends spends size).mono (Nat.le_refl _) fun _ => Nat.zero_le _
  have item : Spends a 0 free (do
      let _ ← hint size expr size
      many (do mark ":"; hint size expr size) size) := by
    refine .bind type fun _ => ?_
    exact (many_spends (.bind (mark_spends _) fun _ => type) size).mono (Nat.zero_le _) (by simp)
  refine .bind (mark?_spends _) fun _ => .ite ?_ (.pure (by simp))
  refine .bind (commas_spends item size) fun _ => ?_
  exact (mark_spends _).mono (Nat.zero_le _) fun _ => Nat.le_refl _

theorem decorator_spends : Spends a 0 (weight a) (decorator size expr) :=
  .bind (mark_spends _) fun _ => spends

theorem matchHead_spends : Spends a 0 (weightIn a) (matchHead size expr) := by
  refine .bind (word_free _) fun _ => .bind (commas_spends spends size) fun subjects => ?_
  exact .bind (mark_spends _) fun _ => .pure (by simp)

omit spends in
/-- What the head of a definition weighs, with the scope that it opens. -/
def DefinitionHead.weight (a : Worth) (head : DefinitionHead) : Nat :=
  a.line head.line + a.site head.site + weightIn a head.params + Python.weight a head.returns

/-- The first word of its head, be it `async`, pays for a function, and its name for the line. -/
theorem functionHead_spends :
    Spends a 0 (DefinitionHead.weight a) (functionHead size expr) := by
  have returns : Spends a 0 (weight a) ((do
      mark "->"
      hint size expr size) <|> pure .absent) :=
    .orElse (.bind (mark_spends _) fun _ => hint_spends spends size) (.pure (by simp))
  refine .peeked rfl fun start => ?_
  have tail : Spends a (a.token start) (DefinitionHead.weight a) (do
      let pair ← anyWord
      typeParameters size expr
      mark "("
      let params ← listUntil (parameter size expr true) ")" size
      let returns ← (do mark "->"; hint size expr size) <|> pure .absent
      pure { line := pair.1.line, id := pair.2, site := start.site, params, returns }) := by
    refine .bind anyWord_spends fun pair => .bind (typeParameters_free spends) fun _ => ?_
    refine .bind (mark_spends _) fun _ => ?_
    refine .bind (listUntil_spends (parameter_spends spends true) _ size) fun params => ?_
    have := a.site_le start
    exact .bind returns fun type => .pure (by simp [DefinitionHead.weight]; omega)
  exact .word? (.bind (word_free _) fun _ => tail) (.word tail)

/-- The word `class` pays for a class, and its name for the line. -/
theorem classHead_spends : Spends a 0 (DefinitionHead.weight a) (classHead size expr) := by
  have bases : Spends a 0 (weightIn a) (arguments size expr (primary size expr size)) :=
    arguments_spends spends (primary_spends spends size)
  refine .bind (word_site _) fun start => .bind anyWord_spends fun pair => ?_
  refine .bind (typeParameters_free spends) fun _ => .bind (atMark?_spends _) fun _ => .ite ?_ ?_
  · exact .bind bases fun params => .pure (by simp [DefinitionHead.weight, Nat.add_comm])
  · have none : Spends a 0 (weightIn a) (pure []) := .pure (by simp)
    exact .bind none fun params => .pure (by simp [DefinitionHead.weight, Nat.add_comm])

include first in
/-- **A head, with the statements behind its colon, spends a token on every form and every
line.** -/
theorem headed_spends {head : Nat → TokenParser Node → TokenParser α}
    (heads : Spends a 0 w (head size expr)) :
    Spends a 0 (fun result => w result.1 + weightIn a (result.2.getD []))
      (headed head size expr) := by
  refine .bind heads fun result => .bind (mark_spends _) fun _ => .bind peek_spends fun found => ?_
  split
  · exact .pure (by simp)
  · exact .bind (simpleStatements_spends spends first) fun inner => .pure (by simp)

end CodeSurvey.Python
