import CodeSurvey.Proofs.Python.Grammar

/-!
# The shape of parsed sources

Statements stand in the bodies of statements and nowhere else, and whatever is defined or assigned
has a word for its name: patterns, simple statements, heads and blocks yield nodes of that shape.

* `simpleStatements_yields`: so does a line of simple statements.
* `Gives` says that the results of reading some lines have a property; `block_gives`: the statements
  of a block are of the shape.
* `parse_fits`: and so is a parsed source.
-/

namespace CodeSurvey.Python

open Node TokenParser

variable {α β : Type} {P : α → Prop} {size : Nat} {expr : TokenParser Node}
  (fits : Yields (Fits false) expr)

/-! ### Imports -/

theorem dottedName_passes (size : Nat) : Passes (dottedName size) := by
  have later : Passes (do
      let dot ← lexeme (.mark ".")
      let pair ← anyWord
      pure (dot.gap ++ "." ++ pair.1.gap ++ pair.2)) :=
    .after (lexeme_passes _) fun _ => .after anyWord_yields.passes fun _ => .pure trivial
  exact .after anyWord_yields.passes fun _ => .after (many_yields later size).passes fun _ =>
    .pure trivial

/-- The words of an import and of its `as` are kept as texts, so that no node comes of them. -/
theorem importedName_passes (size : Nat) : Passes (importedName size) := by
  have renamed : Passes ((do
      let _ ← word "as"
      let pair ← anyWord
      pure (some pair.2)) <|> pure none) :=
    .orElse (.after (word_passes _) fun _ => .after anyWord_yields.passes fun _ => .pure trivial)
      (.pure trivial)
  exact .after (dottedName_passes size) fun _ => .after renamed fun _ => .pure trivial

theorem importedNames_passes (size : Nat) : Passes (importedNames size) := by
  have names := (commas_yields (importedName_passes size) size).passes
  refine .after (mark?_passes _) fun _ => .ite ?_ ?_
  · exact .after names fun _ => .after (mark_passes _) fun _ => .pure trivial
  · exact .after names fun _ => .pure trivial

theorem leadingDots_passes : Passes leadingDots := by
  refine .after next_yields.passes fun token => ?_
  split
  · exact .pure trivial
  · exact .pure trivial
  · exact .failure

/-- An import is a statement of its own, with no expression in it. -/
theorem importStatement_yields (size : Nat) : Yields (Fits true) (importStatement size) := by
  refine .orElse ?_ ?_
  · refine .after (word_passes _) fun _ => ?_
    exact .after (commas_yields (importedName_passes size) size).passes fun _ => .pure rfl
  · refine .after (word_passes _) fun _ => ?_
    refine .after (many_yields leadingDots_passes size).passes fun dots => ?_
    have module : Passes ((do
        require (dots.sum ≠ 0 && (← atWord? ["import"]))
        pure "") <|> dottedName size) :=
      .orElse (.after (atWord?_passes _) fun _ => .after (require_passes _) fun _ => .pure trivial)
        (dottedName_passes size)
    refine .after module fun _ => .after (word_passes _) fun _ => .ite ?_ ?_
    · exact .after (importedNames_passes size) fun _ => .pure trivial
    · refine .after (mark?_passes _) fun _ => .ite (.pure rfl) ?_
      exact .after (importedNames_passes size) fun _ => .pure rfl

/-! ### Simple statements -/

/-- The names of `global` and `nonlocal` are kept as texts as well. -/
theorem nameList_passes (size : Nat) : Passes (nameList size) := by
  have later : Passes (do
      mark ","
      let pair ← anyWord
      pure pair.2) :=
    .after (mark_passes _) fun _ => .after anyWord_yields.passes fun _ => .pure trivial
  exact .after anyWord_yields.passes fun _ => .after (many_yields later size).passes fun _ =>
    .pure trivial

/-- Looking ahead for the arrows of `print` takes no token away. -/
theorem printsToFile?_passes : Passes printsToFile? := by
  rintro tokens _ _ wordy ⟨⟩
  exact ⟨trivial, wordy⟩

theorem hereLine_passes : Passes hereLine :=
  .after peek_yields.passes fun _ => .pure trivial

theorem statementEnd_passes : Passes statementEnd := by
  refine .after peekLexeme_passes fun found => ?_
  split
  · exact .pure trivial
  · exact .pure trivial
  · exact .failure

/-- A statement stays of the shape when the end of its line is read after it. -/
theorem wholeStatement_yields {p : TokenParser Node} (h : Yields (Fits true) p) :
    Yields (Fits true) (wholeStatement p) :=
  .bind h fun _ fit => .after statementEnd_passes fun _ => .pure fit

include fits

/-- What may stand anywhere may stand where a statement does. -/
theorem Yields.statement : Yields (Fits true) expr :=
  fits.mono fun _ fit => fit.inBody true

/-- An assignment is a statement over two expressions, or over an expression and the assignment that
follows in a chain; the induction is on how long the chain may be. -/
theorem assignmentOrExpression_yields :
    ∀ fuel, Yields (Fits true) (assignmentOrExpression size expr fuel)
  | 0 => by rintro tokens x rest wordy ⟨⟩
  | fuel + 1 => by
      have value : Yields (Fits true)
          (yieldExpression size expr <|> assignmentOrExpression size expr fuel) :=
        .orElse (yieldExpression_yields fits).statement (assignmentOrExpression_yields fuel)
      have assigned : Yields (Fits true) ((do
          mark "="
          yieldExpression size expr <|> assignmentOrExpression size expr fuel) <|> pure .absent) :=
        .orElse (.after (mark_passes _) fun _ => value) (.pure trivial)
      refine .after hereLine_passes fun line => .bind (bareList_yields fits) fun left fit => ?_
      refine .after (mark?_passes _) fun _ => .ite ?_ ?_
      · exact .after (require_passes _) fun _ => .bind value fun _ fit' =>
          .pure ⟨rfl, fit, fits_absent, fit'⟩
      · refine .after (mark?_passes _) fun _ => .ite ?_ ?_
        · refine .after (require_passes _) fun _ => .bind (hint_yields fits size) fun _ fit' => ?_
          exact .bind assigned fun _ fit'' => .pure ⟨rfl, fit, fit', fit''⟩
        · refine .after (atMark?_passes _) fun _ => .ite ?_ (.pure (fit.inBody true))
          refine .after next_yields.passes fun _ => .after (require_passes _) fun _ => ?_
          exact .bind value fun _ fit' => .pure ⟨rfl, fit, fit'⟩

theorem expressionStatement_yields : Yields (Fits true) (expressionStatement size expr) :=
  .orElse (yieldExpression_yields fits).statement (assignmentOrExpression_yields fits size)

/-- The expressions that follow the first in a simple statement. -/
theorem moreExpressions_yields : Yields (Fits false) (do mark ","; expr) :=
  .after (mark_passes _) fun _ => fits

/-- What is raised, and what it is raised from, are expressions. -/
theorem raiseStatement_yields : Yields (Fits false) (raiseStatement size expr) := by
  have raised : Yields (FitIn false) ((do
      require !(← atWord? ["from"])
      let value ← bareList size expr
      pure [value]) <|> pure []) :=
    .orElse (.after (atWord?_passes _) fun _ => .after (require_passes _) fun _ =>
      .bind (bareList_yields fits) fun _ fit => .pure ⟨fit, trivial⟩) (.pure trivial)
  have cause : Yields (FitIn false) ((do
      let _ ← word "from"
      let value ← expr
      pure [value]) <|> pure []) :=
    .orElse (.after (word_passes _) fun _ => .bind fits fun _ fit => .pure ⟨fit, trivial⟩)
      (.pure trivial)
  refine .after (word_passes _) fun _ => .bind raised fun _ fit => .bind cause fun _ fit' => ?_
  exact .pure (fitIn_append.2 ⟨fit, fit'⟩)

theorem assertStatement_yields : Yields (Fits false) (assertStatement size expr) := by
  refine .after (word_passes _) fun _ => .bind fits fun _ fit => ?_
  exact .bind (many_fit (moreExpressions_yields fits) size) fun _ all => .pure ⟨fit, all⟩

/-- Whether `print` writes to a file or not, it holds only expressions. -/
theorem printStatement_yields : Yields (Fits false) (printStatement size expr) := by
  refine .after (word_passes _) fun _ => .after (mark?_passes _) fun _ => .ite ?_ ?_
  · refine .bind fits fun _ fit => ?_
    refine .bind (many_fit (moreExpressions_yields fits) size) fun _ all => ?_
    exact .after (mark?_passes _) fun _ => .pure ⟨fit, all⟩
  · exact .bind (commas_fit fits size) fun _ all => .pure all

theorem execStatement_yields : Yields (Fits false) (execStatement size expr) := by
  have code : Yields (Fits false) ((do
      let pair ← anyWord
      pure (Node.name pair.1.line pair.2)) <|> strings size expr) :=
    .orElse (.bind anyWord_yields fun _ isWord => .pure isWord) (strings_yields fits)
  have spaces : Yields (FitIn false) ((do
      let _ ← word "in"
      let first ← expr
      let more ← many (do mark ","; expr) size
      pure (first :: more)) <|> pure []) := by
    refine .orElse (.after (word_passes _) fun _ => .bind fits fun _ fit => ?_) (.pure trivial)
    exact .bind (many_fit (moreExpressions_yields fits) size) fun _ all => .pure ⟨fit, all⟩
  exact .after (word_passes _) fun _ => .bind code fun _ fit => .bind spaces fun _ all =>
    .pure ⟨fit, all⟩

/-- A type alias is read as two type hints. -/
theorem typeStatement_yields : Yields (Fits false) (typeStatement size expr) := by
  refine .after (word_passes _) fun _ => .after peekLexeme_passes fun found => ?_
  have sides : Yields (Fits false) (do
      let left ← hint size expr size
      mark "="
      let right ← hint size expr size
      pure (.group [left, right])) :=
    .bind (hint_yields fits size) fun _ fit => .after (mark_passes _) fun _ =>
      .bind (hint_yields fits size) fun _ fit' => .pure ⟨fit, fit', trivial⟩
  split
  · exact .after (require_passes _) fun _ => sides
  · exact .failure

/-- Each of the keywords that start a simple statement reads one of the shape. -/
theorem keywordStatement_yields (text : String) :
    Yields (Fits true) (keywordStatement size expr text) := by
  have plain : Yields (Fits true) (expressionStatement size expr) :=
    expressionStatement_yields fits
  have values : Yields (Fits true) (do
      let value ← bareList size expr
      pure (.group [value])) :=
    .bind (bareList_yields fits) fun _ fit => .pure ⟨fit.inBody true, trivial⟩
  rw [keywordStatement.eq_def]
  split
  · exact importStatement_yields size
  · exact importStatement_yields size
  · exact (assertStatement_yields fits).statement
  · exact (raiseStatement_yields fits).statement
  · exact .after next_yields.passes fun _ => .orElse values (.pure trivial)
  · exact .after next_yields.passes fun _ => values
  · exact .after next_yields.passes fun _ => .pure trivial
  · exact .after next_yields.passes fun _ => .pure trivial
  · exact .after next_yields.passes fun _ => .pure trivial
  · exact .after next_yields.passes fun _ => .after (nameList_passes size) fun _ => .pure rfl
  · exact .after next_yields.passes fun _ => .after (nameList_passes size) fun _ => .pure trivial
  · refine .after printsToFile?_passes fun _ => .ite (printStatement_yields fits).statement ?_
    exact .orElse (wholeStatement_yields plain) (printStatement_yields fits).statement
  · exact .orElse (wholeStatement_yields plain) (execStatement_yields fits).statement
  · exact .orElse (typeStatement_yields fits).statement plain
  · exact plain

/-- What no keyword starts is an assignment or an expression. -/
theorem simpleStatement_yields : Yields (Fits true) (simpleStatement size expr) := by
  refine .after peekLexeme_passes fun found => ?_
  split
  · exact .bind (keywordStatement_yields fits _) fun _ fit =>
      .after statementEnd_passes fun _ => .pure fit
  · exact .bind (expressionStatement_yields fits) fun _ fit =>
      .after statementEnd_passes fun _ => .pure fit

/-- **The simple statements of a line are statements of the shape.** -/
theorem simpleStatements_yields : Yields (FitIn true) (simpleStatements size expr) := by
  have later : Yields (Fits true) (do mark ";"; simpleStatement size expr) :=
    .after (mark_passes _) fun _ => simpleStatement_yields fits
  refine .bind (simpleStatement_yields fits) fun _ fit => ?_
  refine .bind (many_fit later size) fun _ all => ?_
  exact .after (mark?_passes _) fun _ => .after finish_passes fun _ => .pure ⟨fit, all⟩

/-! ### Patterns -/

omit fits

/-- A dotted name in a pattern is an expression: its first part a name, the others attributes. -/
theorem patternNames_yields (size : Nat) : Yields (FitIn false) (patternNames size) := by
  have later : Yields (Fits false) (do
      mark "."
      let pair ← anyWord
      pure (Node.name pair.1.line pair.2)) :=
    .after (mark_passes _) fun _ => .bind anyWord_yields fun _ isWord => .pure isWord
  refine .bind anyWord_yields fun _ isWord => .bind (many_fit later size) fun _ all => .pure ?_
  split
  · exact all
  · exact ⟨isWord, all⟩

theorem patternNumber_passes : Passes patternNumber := by
  have imaginary : Passes ((do
      markOf ["+", "-"]
      let _ ← lexeme .number
      pure true) <|> pure false) :=
    .orElse (.after (markOf_passes _) fun _ => .after (lexeme_passes _) fun _ => .pure trivial)
      (.pure trivial)
  refine .after (mark?_passes _) fun _ => .after (lexeme_passes _) fun _ => ?_
  exact .after imaginary fun _ => .pure trivial

theorem splatPattern_yields : Yields (Fits false) splatPattern := by
  refine .after (markOf_passes _) fun _ => .bind anyWord_yields fun _ isWord => .pure ?_
  split
  · exact fits_absent
  · exact isWord

include fits

/-- A pattern in brackets, a literal or a name, if the patterns inside are expressions. -/
theorem closedPattern_yields {pattern : TokenParser Node} (inner : Yields (Fits false) pattern) :
    Yields (Fits false) (closedPattern size expr pattern) := by
  have items closing := listUntil_fit inner closing size
  have entry : Yields (Fits false) (splatPattern <|> (do
      let key ← pattern
      mark ":"
      let value ← pattern
      pure (.group [key, value]))) :=
    .orElse splatPattern_yields (.bind inner fun _ fit => .after (mark_passes _) fun _ =>
      .bind inner fun _ fit' => .pure ⟨fit, fit', trivial⟩)
  have parts : Yields (FitIn false) ((do
      mark "("
      listUntil pattern ")" size) <|> pure []) :=
    .orElse (.after (mark_passes _) fun _ => items ")") (.pure trivial)
  refine .orElse splatPattern_yields (.orElse ?_ (.orElse ?_ (.orElse ?_ (.orElse ?_
    (.orElse ?_ (strings_yields fits))))))
  · exact .after (mark_passes _) fun _ => .bind (items ")") fun _ all => .pure all
  · exact .after (mark_passes _) fun _ => .bind (items "]") fun _ all => .pure all
  · refine .after (mark_passes _) fun _ => ?_
    exact .bind (listUntil_fit entry _ size) fun _ all => .pure all
  · exact .after patternNumber_passes fun _ => .pure trivial
  · exact .bind (patternNames_yields size) fun _ all => .bind parts fun _ all' =>
      .pure (fitIn_append.2 ⟨all, all'⟩)

/-- One level of a pattern: its alternatives, and the name that it may be bound to. -/
theorem patternStep_yields {pattern : TokenParser Node} (inner : Yields (Fits false) pattern) :
    Yields (Fits false) (patternStep size expr pattern) := by
  have closed : Yields (Fits false) (closedPattern size expr pattern) :=
    closedPattern_yields fits inner
  have later : Yields (Fits false) (do mark "|"; closedPattern size expr pattern) :=
    .after (mark_passes _) fun _ => closed
  have union : Yields (Fits false) (unionPattern size expr pattern) :=
    .bind closed fun _ fit => .bind (many_fit later size) fun _ all =>
      .pure (fits_grouped.2 ⟨fit, all⟩)
  have name : Yields (FitIn false) ((do
      let pair ← anyWord
      mark "="
      pure [Node.name pair.1.line pair.2]) <|> pure []) :=
    .orElse (.bind anyWord_yields fun _ isWord => .after (mark_passes _) fun _ =>
      .pure ⟨isWord, trivial⟩) (.pure trivial)
  have captured : Yields (FitIn false) ((do
      let _ ← word "as"
      let pair ← anyWord
      pure [Node.name pair.1.line pair.2]) <|> pure []) :=
    .orElse (.after (word_passes _) fun _ => .bind anyWord_yields fun _ isWord =>
      .pure ⟨isWord, trivial⟩) (.pure trivial)
  refine .bind name fun _ all => .bind union fun _ fit => .bind captured fun _ all' => .pure ?_
  simp [all, fit, all']

/-- Patterns are taken for expressions, however deep they are. -/
theorem casePattern_yields : ∀ fuel, Yields (Fits false) (casePattern size expr fuel)
  | 0 => by rintro tokens x rest wordy ⟨⟩
  | fuel + 1 => patternStep_yields fits (casePattern_yields fuel)

/-- The patterns of a case and its guard. -/
theorem caseHead_yields : Yields (FitIn false) (caseHead size expr) := by
  have pattern : Yields (Fits false) (casePattern size expr size) := casePattern_yields fits size
  have later : Yields (Fits false) (do
      mark ","
      require !(← atWord? ["if"])
      casePattern size expr size) :=
    .after (mark_passes _) fun _ => .after (atWord?_passes _) fun _ =>
      .after (require_passes _) fun _ => pattern
  have test : Yields (FitIn false) ((do
      let _ ← word "if"
      let test ← expr
      pure [test]) <|> pure []) :=
    .orElse (.after (word_passes _) fun _ => .bind fits fun _ fit => .pure ⟨fit, trivial⟩)
      (.pure trivial)
  refine .after (word_passes _) fun _ => .bind pattern fun _ fit => ?_
  refine .bind (many_fit later size) fun _ all => .after (mark?_passes _) fun _ => ?_
  refine .bind test fun _ all' => .after (mark_passes _) fun _ => .pure ?_
  simp [fit, all, all']

/-! ### Heads -/

omit fits in
theorem bareHead_passes (text : String) : Passes (bareHead text size expr) :=
  .after (word_passes _) fun _ => .pure trivial

theorem conditionHead_yields (text : String) :
    Yields (Fits false) (conditionHead text size expr) :=
  .after (word_passes _) fun _ => fits

/-- The exception that is caught, and the name that it is caught as. -/
theorem exceptHead_yields : Yields (FitIn false) (exceptHead size expr) := by
  have target : Yields (FitIn false) ((do
      mark ","
      let node ← expr
      pure [Node.asTarget node]) <|> pure []) :=
    .orElse (.after (mark_passes _) fun _ => .bind fits fun _ fit => .pure ⟨fit, trivial⟩)
      (.pure trivial)
  refine .after (word_passes _) fun _ => .after peek_yields.passes fun found => ?_
  split
  · exact .after next_yields.passes fun _ => .bind fits fun _ fit => .pure ⟨fit, trivial⟩
  · refine .orElse (.bind fits fun value fit => ?_) (.pure trivial)
    exact .bind target fun _ all => .pure ⟨fit, all⟩

/-- The target of a loop and what it runs over are both expressions. -/
theorem forHead_yields :
    Yields (fun head => head.1.Fits false ∧ head.2.Fits false) (forHead size expr) := by
  refine .after (word?_passes _) fun _ => .after (word_passes _) fun _ => ?_
  refine .bind (targetList_yields (primary_yields fits size)) fun _ fit => ?_
  exact .after (word_passes _) fun _ => .bind (bareList_yields fits) fun _ fit' =>
    .pure ⟨fit, fit'⟩

/-- The managers of a `with` are a list of expressions. -/
theorem withHead_yields : Yields (FitIn false) (withHead size expr) := by
  refine .after (word?_passes _) fun _ => .after (word_passes _) fun _ => ?_
  exact .bind (commas_fit fits size) fun _ all => .pure all

/-- Type parameters leave no node. -/
theorem typeParameters_passes : Passes (typeParameters size expr) := by
  have type : Passes (hint size expr size) := (hint_yields fits size).passes
  have item : Passes (do
      let _ ← hint size expr size
      many (do mark ":"; hint size expr size) size) :=
    .after type fun _ => (many_yields (.after (mark_passes _) fun _ => type) size).passes
  refine .after (mark?_passes _) fun _ => .ite ?_ (.pure trivial)
  exact .after (commas_yields item size).passes fun _ => mark_passes _

theorem decorator_yields : Yields (Fits false) (decorator size expr) :=
  .after (mark_passes _) fun _ => fits

theorem matchHead_yields : Yields (FitIn false) (matchHead size expr) := by
  refine .after (word_passes _) fun _ => .bind (commas_fit fits size) fun _ all => ?_
  exact .after (mark_passes _) fun _ => .pure all

omit fits in
/-- A head has a word for the name of what it defines, and expressions for its parameters. -/
def DefinitionHead.Fits (head : DefinitionHead) : Prop :=
  IsWord head.id ∧ FitIn false head.params ∧ head.returns.Fits false

/-- The head of a function has a word for its name, and expressions for its parameters and for what
it returns. -/
theorem functionHead_yields : Yields DefinitionHead.Fits (functionHead size expr) := by
  have returns : Yields (Fits false) ((do
      mark "->"
      hint size expr size) <|> pure .absent) :=
    .orElse (.after (mark_passes _) fun _ => hint_yields fits size) (.pure trivial)
  refine .after peek_yields.passes fun start => .after (word?_passes _) fun _ => ?_
  refine .after (word_passes _) fun _ => .bind anyWord_yields fun pair isWord => ?_
  refine .after (typeParameters_passes fits) fun _ => .after (mark_passes _) fun _ => ?_
  refine .bind (listUntil_fit (parameter_yields fits true) _ size) fun params all => ?_
  exact .bind returns fun type fit => .pure ⟨isWord, all, fit⟩

/-- The head of a class has a word for its name, and expressions for its bases. -/
theorem classHead_yields : Yields DefinitionHead.Fits (classHead size expr) := by
  have bases : Yields (FitIn false) (arguments size expr (primary size expr size)) :=
    arguments_yields fits (primary_yields fits size)
  refine .after (word_passes _) fun start => .bind anyWord_yields fun pair isWord => ?_
  refine .after (typeParameters_passes fits) fun _ => .after (atMark?_passes _) fun _ => .ite ?_ ?_
  · exact .bind bases fun _ all => .pure ⟨isWord, all, fits_absent⟩
  · exact .pure ⟨isWord, trivial, fits_absent⟩

/-- A head with the statements behind its colon. -/
theorem headed_yields {head : Nat → TokenParser Node → TokenParser α}
    (heads : Yields P (head size expr)) :
    Yields (fun result => P result.1 ∧ FitIn true (result.2.getD [])) (headed head size expr) := by
  refine .bind heads fun _ holds => .after (mark_passes _) fun _ =>
    .after peek_yields.passes fun found => ?_
  split
  · exact .pure ⟨holds, trivial⟩
  · exact .bind (simpleStatements_yields fits) fun _ all => .pure ⟨holds, all⟩

omit fits

/-! ### Reading lines -/

/-- The words of the lines may be names. -/
def WordyLines (lines : Lines) : Prop :=
  ∀ line ∈ lines, Wordy line.tokens

/-- The results of reading some lines have a property, and the words of the lines that are left may
be names. -/
def Gives (P : α → Prop) (reading : Reading (α × Lines)) : Prop :=
  ∀ x rest, reading = .ok (x, rest) → P x ∧ WordyLines rest

/-- The same of a line that is read whole. -/
def GivesLine (P : α → Prop) (reading : Reading α) : Prop :=
  ∀ x, reading = .ok x → P x

variable {Q : β → Prop} {line : LogicalLine} {lines : Lines}

namespace Gives

/-- Lines that have been read give what was made of them. -/
theorem ok {x : α} (holds : P x) (wordy : WordyLines lines) : Gives P (.ok (x, lines)) := by
  rintro _ _ ⟨⟩
  exact ⟨holds, wordy⟩

theorem error {n : Nat} : Gives P (.error n) := by
  rintro x rest ⟨⟩

/-- What the first lines give is known when the next ones are read. -/
theorem bind {reading : Reading (α × Lines)} {f : α × Lines → Reading (β × Lines)}
    (first : Gives P reading) (next : ∀ x rest, P x → WordyLines rest → Gives Q (f (x, rest))) :
    Gives Q (reading >>= f) := by
  intro y final eq
  cases reading with
  | error n => cases eq
  | ok result =>
      obtain ⟨x, rest⟩ := result
      obtain ⟨holds, wordy⟩ := first x rest rfl
      exact next x rest holds wordy y final eq

/-- So is what one line gives. -/
theorem ofLine {reading : Reading α} {f : α → Reading (β × Lines)} (first : GivesLine P reading)
    (next : ∀ x, P x → Gives Q (f x)) : Gives Q (reading >>= f) := by
  intro y final eq
  cases reading with
  | error n => cases eq
  | ok x => exact next x (first x rfl) y final eq

theorem ite {condition : Prop} [Decidable condition] {left right : Reading (α × Lines)}
    (yes : Gives P left) (no : Gives P right) : Gives P (if condition then left else right) := by
  split
  · exact yes
  · exact no

end Gives

/-- A parser of one line gives what it yields. -/
theorem onLine_gives {p : Nat → TokenParser Node → TokenParser α}
    (h : ∀ {size : Nat} {expr : TokenParser Node}, Yields (Fits false) expr →
      Yields P (p size expr))
    (wordy : Wordy line.tokens) : GivesLine P (onLine p line) := by
  intro x eq
  rw [onLine.eq_def] at eq
  dsimp only at eq
  split at eq
  · cases eq
  · split at eq
    · next result _ read =>
        cases eq
        have whole : Yields P (do
            let result ← p (line.tokens.length + 1)
              (expression (line.tokens.length + 1) (line.tokens.length + 1))
            finish
            pure result) :=
          .bind (h (expression_yields _ _)) fun _ holds => .after finish_passes fun _ => .pure holds
        exact (whole _ _ _ wordy read).1
    · cases eq

section

variable {inner : BlockParser}
  (inners : ∀ top {lines}, WordyLines lines → Gives (FitIn true) (inner top lines))

include inners

/-- A body holds what stands behind its colon, or else the block below it. -/
theorem body_gives (top : Nat) {behind : Option (List Node)} (known : FitIn true (behind.getD []))
    (wordy : WordyLines lines) : Gives (FitIn true) (body inner top behind lines) := by
  rw [body.eq_def]
  split
  · exact .ok known wordy
  · exact .ok trivial wordy
  · exact .ite (inners _ wordy) (.ok trivial wordy)

/-- A clause gives what its head yields, together with its body. -/
theorem clause_gives {head : Nat → TokenParser Node → TokenParser α}
    (heads : ∀ {size : Nat} {expr : TokenParser Node}, Yields (Fits false) expr →
      Yields P (head size expr)) (top : Nat) (first : Wordy line.tokens)
    (wordy : WordyLines lines) :
    Gives (fun result => P result.1 ∧ FitIn true result.2) (clause inner head top line lines) := by
  have read : GivesLine _ (onLine (headed head) line) :=
    onLine_gives (fun h => headed_yields h (heads h)) first
  refine .ofLine read fun result holds => ?_
  exact .bind (body_gives inners top holds.2 wordy) fun nodes rest all left =>
    .ok ⟨holds.1, all⟩ left

/-- An `else` that is not there gives no statements. -/
theorem optionalClause_gives (text : String) (top : Nat) (wordy : WordyLines lines) :
    Gives (FitIn true) (optionalClause inner text top lines) := by
  rw [optionalClause.eq_def]
  split
  · obtain ⟨first, later⟩ := List.forall_mem_cons.1 wordy
    refine .ite ?_ (.ok trivial wordy)
    exact .bind (clause_gives inners (fun _ => bareHead_passes text) top first later)
      fun result after holds left => .ok ⟨⟨rfl, holds.2⟩, trivial⟩ left
  · exact .ok trivial wordy

/-- Clauses of one kind in a row; the induction is on how many there may be. -/
theorem clauses_gives {text : String} {head : Nat → TokenParser Node → TokenParser (List Node)}
    (heads : ∀ {size : Nat} {expr : TokenParser Node}, Yields (Fits false) expr →
      Yields (FitIn false) (head size expr)) (top : Nat) :
    ∀ (fuel : Nat) {lines : Lines}, WordyLines lines →
      Gives (FitIn true) (clauses inner text head top fuel lines)
  | 0, _, wordy => .ok trivial wordy
  | _ + 1, [], wordy => .ok trivial wordy
  | fuel + 1, line :: rest, wordy => by
      obtain ⟨first, later⟩ := List.forall_mem_cons.1 wordy
      rw [clauses]
      refine .ite ?_ (.ok trivial wordy)
      refine .bind (clause_gives inners heads top first later) fun result after holds left => ?_
      refine .bind (clauses_gives heads top fuel left) fun more final all left => ?_
      refine .ok ⟨⟨rfl, ?_⟩, all⟩ left
      exact fitIn_append.2 ⟨holds.1.inBody true, holds.2⟩

/-! ### Compound statements -/

variable (top : Nat) (first : Wordy line.tokens) (wordy : WordyLines lines)

include wordy

include first in
theorem ifStatement_gives : Gives (Fits true) (ifStatement inner top line lines) := by
  have elifs : ∀ {rest}, WordyLines rest →
      Gives (FitIn true) (clauses inner "elif" (fun size expr => do
        let condition ← conditionHead "elif" size expr
        pure [condition]) top rest.length rest) :=
    fun wordy => clauses_gives inners (fun h => .bind (conditionHead_yields h _) fun _ fit =>
      .pure (show FitIn false [_] from ⟨fit, trivial⟩)) top _ wordy
  refine .bind (clause_gives inners (fun h => conditionHead_yields h _) top first wordy)
    fun result rest holds left => ?_
  refine .bind (elifs left) fun more rest all left => ?_
  refine .bind (optionalClause_gives inners _ top left) fun final rest all' left => .ok ?_ left
  simp [holds.1.inBody true, holds.2, all, all']

include first in
theorem whileStatement_gives : Gives (Fits true) (whileStatement inner top line lines) := by
  refine .bind (clause_gives inners (fun h => conditionHead_yields h _) top first wordy)
    fun result rest holds left => ?_
  refine .bind (optionalClause_gives inners _ top left) fun final rest all left => .ok ?_ left
  simp [holds.1.inBody true, holds.2, all]

include first in
theorem forStatement_gives : Gives (Fits true) (forStatement inner top line lines) := by
  refine .bind (clause_gives inners forHead_yields top first wordy)
    fun ⟨⟨target, values⟩, nodes⟩ rest holds left => ?_
  refine .bind (optionalClause_gives inners _ top left) fun final rest all left => .ok ?_ left
  obtain ⟨⟨fit, fit'⟩, all'⟩ := holds
  exact ⟨rfl, fit, fit'.inBody true, fitIn_append.2 ⟨all', all⟩⟩

include first in
theorem withStatement_gives : Gives (Fits true) (withStatement inner top line lines) := by
  refine .bind (clause_gives inners withHead_yields top first wordy)
    fun result rest holds left => .ok ?_ left
  exact fitIn_append.2 ⟨holds.1.inBody true, holds.2⟩

include first in
/-- The clauses of a `try` stand one after another in one branch. -/
theorem tryStatement_gives : Gives (Fits true) (tryStatement inner top line lines) := by
  refine .bind (clause_gives inners (fun _ => bareHead_passes "try") top first wordy)
    fun result rest holds left => ?_
  refine .bind (clauses_gives inners exceptHead_yields top rest.length left)
    fun handlers rest all left => ?_
  have final : ∀ {otherwise : List Node} {rest : Lines}, FitIn true otherwise → WordyLines rest →
      Gives (Fits true) (do
        let final ← optionalClause inner "finally" top rest
        if handlers.isEmpty && final.1.isEmpty then .error line.line
        else pure (.branch (result.2 ++ handlers ++ otherwise ++ final.1), final.2)) := by
    intro otherwise rest all' left
    refine .bind (optionalClause_gives inners _ top left) fun final rest all'' left => ?_
    exact .ite .error (.ok (by simp [holds.2, all, all', all'']) left)
  refine .ite (final trivial left) ?_
  exact .bind (optionalClause_gives inners _ top left) fun nodes rest all' left => final all' left

include first in
/-- A function has a word for its name, expressions for its parameters and for what it returns, and
statements for its body. -/
theorem functionStatement_gives : Gives (Fits true) (functionStatement inner top line lines) := by
  refine .bind (clause_gives inners functionHead_yields top first wordy)
    fun result rest holds left => .ok ?_ left
  obtain ⟨⟨isWord, params, returns⟩, all⟩ := holds
  exact ⟨rfl, isWord, params, returns, all⟩

include first in
theorem classStatement_gives : Gives (Fits true) (classStatement inner top line lines) := by
  refine .bind (clause_gives inners classHead_yields top first wordy)
    fun result rest holds left => .ok ?_ left
  obtain ⟨⟨isWord, bases, -⟩, all⟩ := holds
  exact ⟨rfl, isWord, bases, all⟩

omit wordy in
/-- Decorators are expressions before a definition; the induction is on how many there may be. -/
theorem decoratedStatement_gives (start : Nat) : ∀ (fuel : Nat) {decorators : List Node} {lines},
    FitIn false decorators → WordyLines lines →
      Gives (Fits true) (decoratedStatement inner top start fuel decorators lines)
  | 0, _, _, _, _ => .error
  | _ + 1, _, [], _, _ => .error
  | fuel + 1, decorators, line :: lines, known, wordy => by
      obtain ⟨first, later⟩ := List.forall_mem_cons.1 wordy
      rw [decoratedStatement]
      refine .ite .error (.ite ?_ (.ite ?_ (.ite ?_ .error)))
      · refine .ofLine (onLine_gives decorator_yields first) fun node fit => ?_
        exact decoratedStatement_gives start fuel (fitIn_append.2 ⟨known, fit, trivial⟩) later
      · exact .bind (functionStatement_gives inners top first later) fun node rest fit left =>
          .ok ⟨rfl, known, fit⟩ left
      · exact .bind (classStatement_gives inners top first later) fun node rest fit left =>
          .ok ⟨rfl, known, fit⟩ left

omit inners wordy in
/-- A case with its body on the same line. -/
theorem caseLine_yields {size : Nat} {expr : TokenParser Node} (fits : Yields (Fits false) expr) :
    Yields (fun result => FitIn false result.1 ∧ FitIn true (result.2.getD [])) (do
      let parts ← caseHead size expr
      match ← peek with
      | none   => pure (parts, none)
      | some _ =>
        let nodes ← simpleStatements size expr
        pure (parts, some nodes)) := by
  refine .bind (caseHead_yields fits) fun parts all => .after peek_yields.passes fun found => ?_
  split
  · exact .pure ⟨all, trivial⟩
  · exact .bind (simpleStatements_yields fits) fun nodes all' => .pure ⟨all, all'⟩

omit wordy in
/-- The cases of a `match`, as many as are indented below it. -/
theorem caseClauses_gives (level : Nat) : ∀ (fuel : Nat) {lines : Lines}, WordyLines lines →
    Gives (FitIn true) (caseClauses inner level fuel lines)
  | 0, _, wordy => .ok trivial wordy
  | _ + 1, [], wordy => .ok trivial wordy
  | fuel + 1, line :: lines, wordy => by
      obtain ⟨first, later⟩ := List.forall_mem_cons.1 wordy
      rw [caseClauses]
      refine .ite (.ok trivial wordy) ?_
      refine .ofLine (onLine_gives caseLine_yields first) fun result holds => ?_
      refine .bind (body_gives inners level holds.2 later) fun nodes rest all left => ?_
      refine .bind (caseClauses_gives level fuel left) fun more final all' left => .ok ?_ left
      exact ⟨fitIn_append.2 ⟨holds.1.inBody true, all⟩, all'⟩

theorem matchStatement_gives {subjects : List Node} (known : FitIn false subjects) :
    Gives (Fits true) (matchStatement inner top subjects lines) := by
  rw [matchStatement.eq_def]
  split
  · exact .ok (known.inBody true) wordy
  · refine .ite ?_ (.ok (known.inBody true) wordy)
    exact .bind (caseClauses_gives inners _ _ wordy) fun cases rest all left =>
      .ok (fitIn_append.2 ⟨known.inBody true, all⟩) left

omit inners in
include first in
theorem simpleLine_gives : Gives (Fits true) (simpleLine line lines) :=
  .ofLine (onLine_gives simpleStatements_yields first) fun _ all =>
    .ok (fits_grouped.2 all) wordy

include first in
/-- **Every statement is of the shape**, whichever word its line starts with, if the blocks inside
it are. -/
theorem statement_gives : Gives (Fits true) (statement inner top line lines) := by
  have decorated : Gives (Fits true)
      (decoratedStatement inner top line.line (lines.length + 1) [] (line :: lines)) :=
    decoratedStatement_gives inners top _ _ trivial (List.forall_mem_cons.2 ⟨first, wordy⟩)
  refine .ite (ifStatement_gives inners top first wordy) <|
    .ite (whileStatement_gives inners top first wordy) <|
    .ite (tryStatement_gives inners top first wordy) <|
    .ite (classStatement_gives inners top first wordy) <|
    .ite (functionStatement_gives inners top first wordy) <|
    .ite (forStatement_gives inners top first wordy) <|
    .ite (withStatement_gives inners top first wordy) <|
    .ite decorated <| .ite ?_ (simpleLine_gives first wordy)
  split
  · next subjects read =>
      exact matchStatement_gives inners top wordy
        (onLine_gives matchHead_yields first subjects read)
  · exact simpleLine_gives first wordy

end

/-- **The statements of a block are of the shape that the grammar makes.** -/
theorem block_gives : ∀ (fuel top : Nat) {lines : Lines}, WordyLines lines →
    Gives (FitIn true) (block fuel top lines)
  | 0, _, _, wordy => .ok trivial wordy
  | _ + 1, _, [], wordy => .ok trivial wordy
  | fuel + 1, top, line :: lines, wordy => by
      obtain ⟨first, later⟩ := List.forall_mem_cons.1 wordy
      rw [block]
      refine .ite (.ok trivial wordy) ?_
      refine .bind (statement_gives (block_gives fuel) top first later)
        fun node rest fit left => ?_
      exact .bind (block_gives fuel top left) fun nodes final all left => .ok ⟨fit, all⟩ left

/-- **A parsed source is of the shape that the grammar makes.** -/
theorem parse_fits {source : String} {nodes : List Node} (parsed : parse source = .ok nodes) :
    FitIn true nodes := by
  cases read : block ((lex source).length + 1) 0 (lex source) with
  | error n =>
      rw [parse, read] at parsed
      cases parsed
  | ok result =>
      rw [parse, read] at parsed
      cases parsed
      exact (block_gives _ _ (wordy_lex source) _ _ read).1

end CodeSurvey.Python
