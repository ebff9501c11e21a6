import CodeSurvey.Proofs.Python.Words

/-!
# What parsers yield

What a parser yields has a property, as long as the words that it reads may be names.

* `Node.Fits` is the shape of what the grammar makes: there are no statements inside an expression,
  and what is defined or assigned has a word for its name.
* `Yields` says that the results of a parser have a property; it goes through sequences, choices and
  repetitions.
* `expression_yields`: expressions are of that shape.
-/

namespace CodeSurvey.Python

/-! ### The shape of nodes -/

namespace Node

mutual

/-- The node is of a shape that the grammar makes: a statement, if `inBody` allows one, or an
expression. There are only expressions inside an expression, and what is defined or assigned has a
word for its name. -/
@[simp] def Fits : Bool → Node → Prop
  | _, .name _ id                 => IsWord id
  | _, .string _ holes            => FitIn false holes
  | _, .attribute object _ _      => Fits false object
  | _, .subscript value indices   => Fits false value ∧ FitIn false indices
  | _, .call callee arguments     => Fits false callee ∧ FitIn false arguments
  | _, .keyword _ value           => Fits false value
  | _, .bundle _ items            => FitIn false items
  | inBody, .group items          => FitIn inBody items
  | _, .lambda _ params body      => FitIn false params ∧ Fits false body
  | _, .comprehension _ items     => FitIn false items
  | _, .forIn target rest         => Fits false target ∧ FitIn false rest
  | _, .walrus _ id value         => IsWord id ∧ Fits false value
  | _, .asTarget target           => Fits false target
  | _, .param _ hint fallback     => Fits false hint ∧ Fits false fallback
  | inBody, .assign _ target hint value =>
    inBody = true ∧ Fits false target ∧ Fits false hint ∧ Fits true value
  | inBody, .augment target value => inBody = true ∧ Fits false target ∧ Fits true value
  | inBody, .forLoop target rest  => inBody = true ∧ Fits false target ∧ FitIn true rest
  | inBody, .branch items         => inBody = true ∧ FitIn true items
  | inBody, .function _ id _ params returns body =>
    inBody = true ∧ IsWord id ∧ FitIn false params ∧ Fits false returns ∧ FitIn true body
  | inBody, .classDef _ id _ bases body =>
    inBody = true ∧ IsWord id ∧ FitIn false bases ∧ FitIn true body
  | inBody, .decorated decorators definition =>
    inBody = true ∧ FitIn false decorators ∧ Fits true definition
  | inBody, .imports _ _          => inBody = true
  | inBody, .globals _            => inBody = true

/-- The nodes are of a shape that the grammar makes. -/
@[simp] def FitIn : Bool → List Node → Prop
  | _, []                => True
  | inBody, node :: rest => Fits inBody node ∧ FitIn inBody rest

end

section

variable {inBody : Bool} {nodes more : List Node}

/-- Nodes are of the shape one by one. -/
theorem fitIn_iff : FitIn inBody nodes ↔ ∀ node ∈ nodes, node.Fits inBody := by
  induction nodes with
  | nil => simp
  | cons node rest ih => rw [FitIn, ih, List.forall_mem_cons]

@[simp] theorem fitIn_append :
    FitIn inBody (nodes ++ more) ↔ FitIn inBody nodes ∧ FitIn inBody more := by
  simp only [fitIn_iff, List.forall_mem_append]

/-- Lists of nodes one after another are of the shape if each list is. -/
theorem fitIn_flatten {lists : List (List Node)} (h : ∀ nodes ∈ lists, FitIn inBody nodes) :
    FitIn inBody lists.flatten := by
  simp only [fitIn_iff] at h ⊢
  intro node there
  obtain ⟨nodes, listed, mem⟩ := List.mem_flatten.1 there
  exact h nodes listed node mem

@[simp] theorem fits_absent : absent.Fits inBody := trivial

/-- Grouping nodes, which leaves a single one as it is, keeps the shape. -/
@[simp] theorem fits_grouped : (grouped nodes).Fits inBody ↔ FitIn inBody nodes := by
  rw [grouped.eq_def]
  split
  · exact (and_iff_left trivial).symm
  · exact Iff.rfl

end

mutual

/-- An expression may stand where a statement may. -/
theorem Fits.inBody : ∀ {node : Node}, node.Fits false → ∀ b, node.Fits b
  | .group _, h, b => FitIn.inBody h b
  | .name .., h, _ | .string .., h, _ | .attribute .., h, _ | .subscript .., h, _
  | .call .., h, _ | .keyword .., h, _ | .bundle .., h, _ | .lambda .., h, _
  | .comprehension .., h, _ | .forIn .., h, _ | .walrus .., h, _ | .asTarget _, h, _
  | .param .., h, _ => h
  | .assign .., h, _ | .augment .., h, _ | .forLoop .., h, _ | .function .., h, _
  | .classDef .., h, _ | .decorated .., h, _ | .branch _, h, _ => absurd h.1 nofun
  | .imports .., h, _ | .globals _, h, _ => absurd h nofun

/-- So may several of them. -/
theorem FitIn.inBody : ∀ {nodes : List Node}, FitIn false nodes → ∀ b, FitIn b nodes
  | [], _, _ => trivial
  | _ :: _, h, b => ⟨Fits.inBody h.1 b, FitIn.inBody h.2 b⟩

end

end Node

open Node TokenParser

/-! ### What a parser yields -/

/-- The results of a parser have a property, if the words that it reads may be names; then so may
the words that it leaves. -/
def Yields {α : Type} (P : α → Prop) (p : TokenParser α) : Prop :=
  ∀ tokens x rest, Wordy tokens → p tokens = some (x, rest) → P x ∧ Wordy rest

/-- A parser of which only matters that it leaves words. -/
abbrev Passes {α : Type} (p : TokenParser α) : Prop :=
  Yields (fun _ => True) p

variable {α β : Type} {P : α → Prop} {Q : β → Prop} {p q : TokenParser α}

namespace Yields

/-- What is yielded has every weaker property. -/
theorem mono {P' : α → Prop} (h : Yields P p) (less : ∀ x, P x → P' x) : Yields P' p := by
  intro tokens x rest wordy eq
  obtain ⟨holds, left⟩ := h tokens x rest wordy eq
  exact ⟨less x holds, left⟩

/-- A property can be forgotten. -/
theorem passes (h : Yields P p) : Passes p :=
  h.mono fun _ _ => trivial

theorem pure {x : α} (h : P x) : Yields P (Pure.pure x) := by
  rintro tokens _ _ wordy ⟨⟩
  exact ⟨h, wordy⟩

theorem failure : Yields P (Alternative.failure : TokenParser α) := by
  rintro tokens x rest wordy ⟨⟩

/-- What has been read is known when the next parser reads on. -/
theorem bind {f : α → TokenParser β} (first : Yields P p) (next : ∀ x, P x → Yields Q (f x)) :
    Yields Q (p >>= f) := by
  intro tokens y rest wordy eq
  obtain ⟨⟨x, middle⟩, eq₁, eq₂⟩ := Option.bind_eq_some_iff.1 eq
  obtain ⟨holds, left⟩ := first tokens x middle wordy eq₁
  exact next x holds middle y rest left eq₂

/-- The same if it does not matter what has been read. -/
theorem after {f : α → TokenParser β} (first : Passes p) (next : ∀ x, Yields Q (f x)) :
    Yields Q (p >>= f) :=
  first.bind fun x _ => next x

/-- Of two parsers the second is tried where the first fails, on the same words. -/
theorem orElse (left : Yields P p) (right : Yields P q) : Yields P (p <|> q) := by
  intro tokens x rest wordy eq
  have eq : (p tokens <|> q tokens) = some (x, rest) := eq
  cases h : p tokens with
  | some r =>
      rw [h] at eq
      exact left tokens x rest wordy (h.trans eq)
  | none =>
      rw [h] at eq
      exact right tokens x rest wordy eq

theorem ite {condition : Prop} [Decidable condition] (yes : Yields P p) (no : Yields P q) :
    Yields P (if condition then p else q) := by
  split
  · exact yes
  · exact no

end Yields

/-! ### Single tokens -/

/-- The word of a token, if it has one, may be a name. -/
def Token.Wordy (token : Token) : Prop :=
  ∀ text, token.lexeme = .word text → IsWord text

/-- A token that has been taken has a word that may be a name. -/
theorem next_yields : Yields Token.Wordy next := by
  intro tokens x rest wordy eq
  cases tokens with
  | nil => cases eq
  | cons token tokens =>
      cases eq
      exact List.forall_mem_cons.1 wordy

/-- So has one that is only looked at. -/
theorem peek_yields : Yields (fun found => ∀ token, found = some token → token.Wordy) peek := by
  rintro tokens _ _ wordy ⟨⟩
  exact ⟨fun token eq => wordy token (List.mem_of_mem_head? eq), wordy⟩

theorem peekLexeme_passes : Passes peekLexeme := by
  rintro tokens _ _ wordy ⟨⟩
  exact ⟨trivial, wordy⟩

theorem finish_passes : Passes finish := by
  intro tokens x rest wordy eq
  cases tokens with
  | nil =>
      cases eq
      exact ⟨trivial, wordy⟩
  | cons => cases eq

/-- A test takes no token. -/
theorem require_passes (condition : Bool) : Passes (require condition) :=
  .ite (.pure trivial) .failure

/-- A lexeme that is called for is all that is read. -/
theorem lexeme_passes (wanted : Lexeme) : Passes (lexeme wanted) :=
  .after next_yields.passes fun _ => .after (require_passes _) fun _ => .pure trivial

theorem mark_passes (symbol : String) : Passes (mark symbol) :=
  .after (lexeme_passes _) fun _ => .pure trivial

theorem word_passes (text : String) : Passes (word text) :=
  lexeme_passes _

/-- A word that is read may be a name. -/
theorem anyWord_yields : Yields (fun pair => IsWord pair.2) anyWord := by
  refine .bind next_yields fun token wordy => ?_
  split
  · exact .pure (wordy _ ‹_›)
  · exact .failure

theorem atWord?_passes (words : List String) : Passes (atWord? words) := by
  refine .after peekLexeme_passes fun found => ?_
  split <;> exact .pure trivial

theorem atMark?_passes (symbols : List String) : Passes (atMark? symbols) := by
  refine .after peekLexeme_passes fun found => ?_
  split <;> exact .pure trivial

theorem mark?_passes (symbol : String) : Passes (mark? symbol) :=
  .orElse (.after (mark_passes _) fun _ => .pure trivial) (.pure trivial)

theorem word?_passes (text : String) : Passes (word? text) :=
  .orElse (.after (word_passes _) fun _ => .pure trivial) (.pure trivial)

theorem markOf_passes (symbols : List String) : Passes (markOf symbols) := by
  refine .after next_yields.passes fun token => ?_
  split
  · exact require_passes _
  · exact .failure

/-! ### Repetition -/

/-- A repetition yields items of one kind; the induction is on how many there may be. -/
theorem many_yields (item : Yields P p) :
    ∀ fuel, Yields (fun items => ∀ x ∈ items, P x) (many p fuel)
  | 0 => by
      rintro tokens _ _ wordy ⟨⟩
      exact ⟨List.forall_mem_nil _, wordy⟩
  | fuel + 1 => by
      intro tokens items rest wordy eq
      rw [many] at eq
      cases first : p tokens with
      | none =>
          rw [first] at eq
          cases eq
          exact ⟨List.forall_mem_nil _, wordy⟩
      | some result =>
          obtain ⟨x, middle⟩ := result
          rw [first] at eq
          obtain ⟨⟨xs, left⟩, later, eq⟩ := Option.map_eq_some_iff.1 eq
          cases eq
          obtain ⟨holds, wordy⟩ := item tokens x middle wordy first
          obtain ⟨all, wordy⟩ := many_yields item fuel middle xs rest wordy later
          exact ⟨List.forall_mem_cons.2 ⟨holds, all⟩, wordy⟩

/-- So does a list with commas, with or without the last one. -/
theorem commas_yields (item : Yields P p) (fuel : Nat) :
    Yields (fun result => ∀ x ∈ result.1, P x) (commas p fuel) := by
  have more : Yields P (do mark ","; p) := .after (mark_passes _) fun _ => item
  refine .bind item fun x holds => .bind (many_yields more fuel) fun xs all => ?_
  exact .after (mark?_passes _) fun _ => .pure (List.forall_mem_cons.2 ⟨holds, all⟩)

/-- So does a list up to a closing mark. -/
theorem listUntil_yields (item : Yields P p) (closing : String) (fuel : Nat) :
    Yields (fun items => ∀ x ∈ items, P x) (listUntil p closing fuel) := by
  refine .after (mark?_passes _) fun _ => .ite (.pure (List.forall_mem_nil _)) ?_
  refine .bind (commas_yields item fuel) fun items all => ?_
  exact .after (mark_passes _) fun _ => .pure all

section

variable {inBody : Bool} {p : TokenParser Node} (fits : Yields (Fits inBody) p)

include fits

/-- In lists of nodes the property of the items is the shape of the list. -/
theorem many_fit (fuel : Nat) : Yields (FitIn inBody) (many p fuel) :=
  (many_yields fits fuel).mono fun _ => fitIn_iff.2

theorem commas_fit (fuel : Nat) : Yields (fun result => FitIn inBody result.1) (commas p fuel) :=
  (commas_yields fits fuel).mono fun _ => fitIn_iff.2

theorem listUntil_fit (closing : String) (fuel : Nat) :
    Yields (FitIn inBody) (listUntil p closing fuel) :=
  (listUntil_yields fits closing fuel).mono fun _ => fitIn_iff.2

end

/-! ### Expressions -/

section

variable {size : Nat} {expr target : TokenParser Node} (fits : Yields (Fits false) expr)
  (targets : Yields (Fits false) target)

include fits

/-- Expressions with commas between them are one group. -/
theorem bareList_yields : Yields (Fits false) (bareList size expr) := by
  refine .bind (commas_fit fits size) fun items all => .pure ?_
  split
  · exact fits_grouped.2 all
  · exact all

/-- What is yielded, or where it is taken from, is an expression. -/
theorem yieldExpression_yields : Yields (Fits false) (yieldExpression size expr) := by
  refine .after (word_passes _) fun _ => .after (word?_passes _) fun _ => .ite ?_ (.orElse ?_ ?_)
  · exact .bind fits fun value fit => .pure ⟨fit, trivial⟩
  · exact .bind (bareList_yields fits) fun value fit => .pure ⟨fit, trivial⟩
  · exact .pure trivial

theorem yieldOrExpressions_yields : Yields (Fits false) (yieldOrExpressions size expr) :=
  .orElse (yieldExpression_yields fits) (bareList_yields fits)

/-- The expression in a hole of a string. -/
theorem holeHead_yields : Yields (Fits false) (holeHead size expr) := by
  have conversion : Passes ((do let _ ← lexeme .conversion; pure true) <|> pure false) :=
    .orElse (.after (lexeme_passes _) fun _ => .pure trivial) (.pure trivial)
  refine .after (lexeme_passes _) fun _ => ?_
  refine .bind (yieldOrExpressions_yields fits) fun value fit => ?_
  exact .after (mark?_passes _) fun _ => .after conversion fun _ => .pure fit

/-- A hole may have holes again in its format; the induction is on how deep they are. -/
theorem hole_yields : ∀ depth, Yields (Fits false) (hole size expr depth)
  | 0 => by rintro tokens x rest wordy ⟨⟩
  | depth + 1 => by
      have nested : Yields (FitIn false) ((do
          let _ ← lexeme .holeSpec
          many (hole size expr depth) size) <|> pure []) :=
        .orElse (.after (lexeme_passes _) fun _ => many_fit (hole_yields depth) size)
          (.pure trivial)
      refine .bind (holeHead_yields fits) fun value fit => .bind nested fun more all => ?_
      exact .after (lexeme_passes _) fun _ => .pure (fits_grouped.2 ⟨fit, all⟩)

/-- A string holds what its holes hold, and nothing else. -/
theorem stringLiteral_yields : Yields (Fits false) (stringLiteral size expr) := by
  refine .after next_yields.passes fun token => ?_
  split
  · exact .pure trivial
  · refine .bind (many_fit (hole_yields fits size) size) fun holes all => ?_
    exact .after (lexeme_passes _) fun _ => .pure all
  · exact .failure

/-- Strings in a row are one group. -/
theorem strings_yields : Yields (Fits false) (strings size expr) := by
  refine .bind (stringLiteral_yields fits) fun first fit => ?_
  exact .bind (many_fit (stringLiteral_yields fits) size) fun more all =>
    .pure (fits_grouped.2 ⟨fit, all⟩)

include targets in
omit fits in
/-- The targets of a loop are one group. -/
theorem targetList_yields : Yields (Fits false) (targetList size target) := by
  have item : Yields (Fits false) (do
      let node ← target
      require node.isTarget
      pure node) :=
    .bind targets fun node fit => .after (require_passes _) fun _ => .pure fit
  have later : Yields (Fits false) (do
      mark ","
      require !(← atWord? ["in"])
      let node ← target
      require node.isTarget
      pure node) :=
    .after (mark_passes _) fun _ => .after (atWord?_passes _) fun _ =>
      .after (require_passes _) fun _ => item
  refine .bind item fun first fit => .bind (many_fit later size) fun more all => ?_
  refine .after (mark?_passes _) fun trailing => .pure ?_
  split
  · exact fit
  · exact ⟨fit, all⟩

include targets in
/-- A `for` of a comprehension has its target and what it runs over. -/
theorem forClause_yields : Yields (Fits false) (forClause size expr target) := by
  have later : Yields (Fits false) (do
      mark ","
      require !(← atWord? ["for", "if", "async"])
      expr) :=
    .after (mark_passes _) fun _ => .after (atWord?_passes _) fun _ =>
      .after (require_passes _) fun _ => fits
  refine .after (word?_passes _) fun _ => .after (word_passes _) fun _ => ?_
  refine .bind (targetList_yields targets) fun left fit => .after (word_passes _) fun _ => ?_
  refine .bind fits fun first fit' => .bind (many_fit later size) fun more all => ?_
  exact .after (mark?_passes _) fun _ => .pure ⟨fit, fit', all⟩

theorem ifClause_yields : Yields (Fits false) (ifClause expr) :=
  .after (word_passes _) fun _ => .bind fits fun _ fit => .pure ⟨fit, trivial⟩

theorem unconditional_yields : Yields (Fits false) (unconditional expr) := by
  intro tokens x rest wordy eq
  obtain ⟨⟨node, left⟩, read, eq⟩ := Option.bind_eq_some_iff.1 eq
  by_cases other : mentionsElse 0 (tokens.take (tokens.length - left.length))
  · simp [other] at eq
  · obtain ⟨rfl, rfl⟩ : node = x ∧ left = rest := by simpa [other] using eq
    exact fits tokens node left wordy read

include targets in
/-- The clauses of a comprehension, in order. -/
theorem comprehensionClauses_yields :
    Yields (FitIn false) (comprehensionClauses size expr target) := by
  have plain := unconditional_yields fits
  have clause : Yields (Fits false) (forClause size (unconditional expr) target) :=
    forClause_yields plain targets
  refine .bind clause fun first fit => ?_
  exact .bind (many_fit (.orElse clause (ifClause_yields plain)) size) fun more all =>
    .pure ⟨fit, all⟩

/-- An argument is an expression, with its name or a star before it. -/
theorem argument_yields : Yields (Fits false) (argument expr) := by
  refine .orElse ?_ (.orElse ?_ (.orElse ?_ fits))
  · refine .after anyWord_yields.passes fun pair => .after (mark_passes _) fun _ => ?_
    exact .after (require_passes _) fun _ => .bind fits fun value fit => .pure fit
  · exact .after (mark_passes _) fun _ => .bind fits fun value fit => .pure ⟨fit, trivial⟩
  · exact .after (mark_passes _) fun _ => .bind fits fun value fit => .pure ⟨fit, trivial⟩

omit fits in
/-- Line continuations leave nodes without content. -/
theorem joinedLines_yields : Yields (FitIn false) joinedLines := by
  refine .after peek_yields.passes fun token => .pure (fitIn_iff.2 fun node listed => ?_)
  rw [List.eq_of_mem_replicate listed]
  exact fits_absent

/-- An argument comes with such nodes for the continuations around it. -/
theorem nextArgument_yields : Yields (FitIn false) (nextArgument expr) := by
  refine .bind joinedLines_yields fun before all => .after (mark_passes _) fun _ => ?_
  refine .bind joinedLines_yields fun between all' =>
    .bind (argument_yields fits) fun item fit => ?_
  exact .pure (fitIn_append.2 ⟨fitIn_append.2 ⟨all, all'⟩, fit, trivial⟩)

include targets in
/-- Arguments in brackets, or a comprehension in their place. -/
theorem arguments_yields : Yields (FitIn false) (arguments size expr target) := by
  refine .after (lexeme_passes _) fun opening => .bind joinedLines_yields fun before joins => ?_
  refine .after (mark?_passes _) fun _ => .ite (.pure trivial) ?_
  refine .after (mark?_passes _) fun _ => .ite ?_ ?_
  · exact .after (mark_passes _) fun _ => .pure trivial
  · refine .after (atMark?_passes _) fun _ => .bind (argument_yields fits) fun first fit => ?_
    refine .after (atWord?_passes _) fun _ => .ite ?_ ?_
    · refine .after (require_passes _) fun _ => ?_
      refine .bind (comprehensionClauses_yields fits targets) fun clauses all => ?_
      exact .after (mark_passes _) fun _ => .pure ⟨fitIn_append.2 ⟨joins, fit, all⟩, trivial⟩
    · refine .bind (many_yields (nextArgument_yields fits) size) fun more all => ?_
      refine .after (mark?_passes _) fun _ => .after (mark_passes _) fun _ => ?_
      exact .pure (fitIn_append.2 ⟨joins, fit, fitIn_flatten all⟩)

theorem optional_yields : Yields (FitIn false) ((do let node ← expr; pure [node]) <|> pure []) :=
  .orElse (.bind fits fun _ fit => .pure ⟨fit, trivial⟩) (.pure trivial)

theorem sliceTail_yields : Yields (FitIn false) (sliceTail expr) := by
  have stride : Yields (FitIn false) ((do
      mark ":"
      (do let node ← expr; pure [node]) <|> pure []) <|> pure []) :=
    .orElse (.after (mark_passes _) fun _ => optional_yields fits) (.pure trivial)
  exact .bind (optional_yields fits) fun upper fit => .bind stride fun more all =>
    .pure (fitIn_append.2 ⟨fit, all⟩)

/-- An index or a slice, whose parts are expressions. -/
theorem subscriptIndex_yields : Yields (Fits false) (subscriptIndex expr) := by
  refine .orElse ?_ ?_
  · exact .after (mark_passes _) fun _ => .bind (sliceTail_yields fits) fun parts all => .pure all
  · refine .bind fits fun first fit => .after (mark?_passes _) fun _ => .ite ?_ (.pure fit)
    exact .bind (sliceTail_yields fits) fun parts all => .pure ⟨fit, all⟩

include targets in
/-- A call, an index or an attribute is of the shape if what it is applied to is. -/
theorem trailer_yields {object : Node} (known : object.Fits false) :
    Yields (Fits false) (trailer size expr target object) := by
  refine .orElse ?_ (.orElse ?_ ?_)
  · exact .after (mark_passes _) fun _ => .after anyWord_yields.passes fun pair => .pure known
  · exact .bind (arguments_yields fits targets) fun items all => .pure ⟨known, all⟩
  · refine .after (mark_passes _) fun _ => ?_
    refine .bind (commas_fit (subscriptIndex_yields fits) size) fun items all => ?_
    exact .after (mark_passes _) fun _ => .pure ⟨known, all⟩

include targets in
/-- So are all that follow one after another; the induction is on how many there may be. -/
theorem trailers_yields : ∀ (fuel : Nat) {object : Node}, object.Fits false →
    Yields (Fits false) (trailers size expr target fuel object)
  | 0, object, known => by
      rintro tokens _ _ wordy ⟨⟩
      exact ⟨known, wordy⟩
  | fuel + 1, object, known => by
      intro tokens x rest wordy eq
      rw [trailers] at eq
      cases step : trailer size expr target object tokens with
      | none =>
          rw [step] at eq
          cases eq
          exact ⟨known, wordy⟩
      | some result =>
          obtain ⟨longer, middle⟩ := result
          rw [step] at eq
          obtain ⟨fit, wordy⟩ := trailer_yields fits targets known tokens longer middle wordy step
          exact trailers_yields fuel fit middle x rest wordy eq

theorem element_yields : Yields (Fits false) (element size expr) := by
  refine .orElse (yieldExpression_yields fits) (.orElse ?_ fits)
  exact .after (mark_passes _) fun _ => .bind fits fun value fit => .pure ⟨fit, trivial⟩

include targets in
/-- What stands in brackets is a group or a comprehension. -/
theorem bracketed_yields (site : Nat) (closing : String) :
    Yields (Fits false) (bracketed size expr target site closing) := by
  have later : Yields (Fits false) (do mark ","; element size expr) :=
    .after (mark_passes _) fun _ => element_yields fits
  refine .after (mark?_passes _) fun _ => .ite (.pure trivial) ?_
  refine .after (atWord?_passes _) fun _ => .bind (element_yields fits) fun first fit => ?_
  refine .after (atWord?_passes _) fun _ => .ite ?_ ?_
  · refine .after (require_passes _) fun _ => ?_
    refine .bind (comprehensionClauses_yields fits targets) fun clauses all => ?_
    exact .after (mark_passes _) fun _ => .pure ⟨fit, all⟩
  · refine .bind (many_fit later size) fun more all => .after (mark?_passes _) fun _ => ?_
    exact .after (mark_passes _) fun _ => .pure ⟨fit, all⟩

theorem pair_yields : Yields (Fits false) (pair expr) :=
  .bind fits fun _ fit => .after (mark_passes _) fun _ => .bind fits fun _ fit' =>
    .pure ⟨fit, fit', trivial⟩

theorem spread_yields : Yields (Fits false) (spread expr) :=
  .after (mark_passes _) fun _ => .bind fits fun _ fit => .pure ⟨fit, trivial⟩

include targets in
/-- What follows the first item in braces: more items of its kind, or the clauses of a
comprehension. -/
theorem bracedTail_yields {part : TokenParser Node} (parts : Yields (Fits false) part) (site : Nat)
    (repeats : Bool) {first : Node} (known : first.Fits false) :
    Yields (Fits false) (bracedTail size expr target part site repeats first) := by
  have later : Yields (Fits false) (do mark ","; part) := .after (mark_passes _) fun _ => parts
  refine .after (atWord?_passes _) fun _ => .ite ?_ ?_
  · refine .after (require_passes _) fun _ => ?_
    refine .bind (comprehensionClauses_yields fits targets) fun clauses all => ?_
    exact .after (mark_passes _) fun _ => .pure ⟨known, all⟩
  · refine .bind (many_fit later size) fun more all => .after (mark?_passes _) fun _ => ?_
    exact .after (mark_passes _) fun _ => .pure ⟨known, all⟩

include targets in
/-- A dictionary or a set. -/
theorem braced_yields (site : Nat) : Yields (Fits false) (braced size expr target site) := by
  have entry : Yields (Fits false) (spread expr <|> pair expr) :=
    .orElse (spread_yields fits) (pair_yields fits)
  refine .after (mark?_passes _) fun _ => .ite (.pure trivial) ?_
  refine .after (mark?_passes _) fun _ => .ite ?_ ?_
  · exact .after (mark_passes _) fun _ => .pure trivial
  · refine .after (atMark?_passes _) fun _ => .ite ?_ ?_
    · exact .bind (spread_yields fits) fun first fit =>
        bracedTail_yields fits targets entry site false fit
    · refine .after (atWord?_passes _) fun _ => .bind (element_yields fits) fun first fit => ?_
      refine .after (mark?_passes _) fun _ => .ite ?_ ?_
      · exact .bind fits fun value fit' =>
          bracedTail_yields fits targets entry site true ⟨fit, fit', trivial⟩
      · exact bracedTail_yields fits targets (element_yields fits) site _ fit

include targets in
/-- Every atom is of the shape, whichever token it starts with. -/
theorem atom_yields : Yields (Fits false) (atom size expr target) := by
  refine .bind peek_yields fun found wordy => ?_
  split
  · exact .failure
  · rename_i token
    split
    · refine .after next_yields.passes fun _ => .pure ?_
      split
      · exact fits_absent
      · exact wordy token rfl _ ‹_›
    · exact .after next_yields.passes fun _ => .pure trivial
    · exact .after next_yields.passes fun _ => .pure trivial
    · exact .after next_yields.passes fun _ => bracketed_yields fits targets _ _
    · exact .after next_yields.passes fun _ => bracketed_yields fits targets _ _
    · exact .after next_yields.passes fun _ => braced_yields fits targets _
    · exact strings_yields fits

/-- An atom with its trailers, after any stars; the induction is on how many stars there may be. -/
theorem primary_yields : ∀ fuel, Yields (Fits false) (primary size expr fuel)
  | 0 => by rintro tokens x rest wordy ⟨⟩
  | fuel + 1 => by
      have inner := primary_yields fuel
      refine .after (mark?_passes _) fun _ => .ite ?_ ?_
      · exact .bind inner fun node fit => .after (require_passes _) fun _ => .pure ⟨fit, trivial⟩
      · exact .bind (atom_yields fits inner) fun node fit => trailers_yields fits inner size fit

omit fits in
theorem sign_passes : Passes sign := by
  refine .orElse (markOf_passes _) (.after (word_passes _) fun _ => ?_)
  exact .after peekLexeme_passes fun _ => require_passes _

/-- An operand has its signs before it, which leave no node. -/
theorem operand_yields : Yields (Fits false) (operand size expr) := by
  refine .after (many_yields sign_passes size).passes fun signs => ?_
  refine .bind (primary_yields fits size) fun node fit => .pure ?_
  split
  · exact fit
  · exact ⟨fit, trivial⟩

omit fits in
theorem operator_passes : Passes operator := by
  refine .orElse (markOf_passes _) (.orElse ?_ (.orElse ?_ ?_))
  · exact .after (word_passes _) fun _ => .pure trivial
  · exact .after (word_passes _) fun _ => .after (word_passes _) fun _ => .pure trivial
  · exact .after (word_passes _) fun _ => .after (word?_passes _) fun _ => .pure trivial

/-- **Operands and the operators between them are one group**, in the order of the text. -/
theorem operation_yields : Yields (Fits false) (operation size expr) := by
  have later : Yields (Fits false) (do operator; operand size expr) :=
    .after operator_passes fun _ => operand_yields fits
  exact .bind (operand_yields fits) fun first fit => .bind (many_fit later size) fun more all =>
    .pure (fits_grouped.2 ⟨fit, all⟩)

/-! ### Hints and parameters -/

omit fits in
theorem atGeneric?_passes : Passes atGeneric? := by
  intro tokens x rest wordy eq
  rw [atGeneric?.eq_def] at eq
  split at eq <;> cases eq <;> exact ⟨trivial, wordy⟩

omit fits in
/-- The arguments of a generic type, if the hints inside it are expressions. -/
theorem generic_yields {inner : TokenParser Node} (inners : Yields (Fits false) inner) :
    Yields (Fits false) (generic size inner) := by
  refine .bind anyWord_yields fun pair isWord => .after (mark_passes _) fun _ => ?_
  refine .bind (commas_fit inners size) fun items all => .after (mark_passes _) fun _ => ?_
  exact .pure ⟨isWord, all⟩

omit fits in
theorem starredHint_yields : Yields (Fits false) starredHint :=
  .after (mark_passes _) fun _ => .bind anyWord_yields fun _ isWord => .pure isWord

/-- A type hint is an expression, however deep it is. -/
theorem hint_yields : ∀ fuel, Yields (Fits false) (hint size expr fuel)
  | 0 => by rintro tokens x rest wordy ⟨⟩
  | fuel + 1 => by
      have inner := hint_yields fuel
      have later : Yields (Fits false) (do mark ":"; hint size expr fuel) :=
        .after (mark_passes _) fun _ => inner
      have bounded : Yields (Fits false) (do
          let first ← hint size expr fuel
          let more ← many (do mark ":"; hint size expr fuel) size
          pure (grouped (first :: more))) :=
        .bind inner fun first fit => .bind (many_fit later size) fun more all =>
          .pure (fits_grouped.2 ⟨fit, all⟩)
      have simple : Yields (Fits false) (do
          if ← atGeneric? then generic size (do
            let first ← hint size expr fuel
            let more ← many (do mark ":"; hint size expr fuel) size
            pure (grouped (first :: more)))
          else if ← atMark? ["**"] then starredHint
          else expr) := by
        refine .after atGeneric?_passes fun _ => .ite (generic_yields bounded) ?_
        exact .after (atMark?_passes _) fun _ => .ite starredHint_yields fits
      have dotted : Yields (Fits false) (do
          mark "."
          let pair ← anyWord
          pure (.name pair.1.line pair.2)) :=
        .after (mark_passes _) fun _ => .bind anyWord_yields fun pair isWord => .pure isWord
      refine .bind simple fun first fit => ?_
      refine .bind (many_fit (.orElse (.after (mark_passes _) fun _ => simple) dotted) size) ?_
      exact fun more all => .pure (fits_grouped.2 ⟨fit, all⟩)

/-- A parameter with a star leaves no node, only its name. -/
theorem starredParameter_passes (symbol : String) :
    Passes (starredParameter size expr symbol) := by
  refine .after (mark_passes _) fun _ => .after peek_yields.passes fun first => ?_
  refine .after (primary_yields fits size).passes fun node => ?_
  exact .after (require_passes _) fun _ => .pure trivial

theorem parameterName_passes : Passes (parameterName size expr) := by
  refine .orElse ?_ (.orElse ?_ (.orElse ?_ ?_))
  · have starred : Passes (starredParameter size expr "*" <|> starredParameter size expr "**") :=
      .orElse (starredParameter_passes fits _) (starredParameter_passes fits _)
    exact .after starred fun bound => .pure trivial
  · exact .after (markOf_passes _) fun _ => .pure trivial
  · exact .after anyWord_yields.passes fun pair => .pure trivial
  · refine .after (atMark?_passes _) fun _ => .after (require_passes _) fun _ => ?_
    refine .after (primary_yields fits size).passes fun node => ?_
    exact .after (require_passes _) fun _ => .pure trivial

/-- A parameter holds its hint and its default. -/
theorem parameter_yields (annotated : Bool) :
    Yields (Fits false) (parameter size expr annotated) := by
  refine .after (parameterName_passes fits) fun name => ?_
  have type : Yields (Fits false) ((do
      require (annotated && name.hintable)
      mark ":"
      hint size expr size) <|> pure .absent) :=
    .orElse (.after (require_passes _) fun _ => .after (mark_passes _) fun _ =>
      hint_yields fits size) (.pure trivial)
  have fallback : Yields (Fits false) ((do
      require name.defaultable
      mark "="
      expr) <|> pure .absent) :=
    .orElse (.after (require_passes _) fun _ => .after (mark_passes _) fun _ => fits)
      (.pure trivial)
  exact .bind type fun hint fit => .bind fallback fun value fit' => .pure ⟨fit, fit'⟩

/-- A `lambda` holds its parameters and the expression that it gives. -/
theorem lambdaExpression_yields : Yields (Fits false) (lambdaExpression size expr) := by
  refine .after (word_passes _) fun start => ?_
  refine .bind (listUntil_fit (parameter_yields fits false) _ size) fun params all => ?_
  exact .bind fits fun body fit => .pure ⟨all, fit⟩

/-! ### The knot -/

/-- A `lambda`, a negation, an assignment inside an expression, or an operation. -/
theorem term_yields : Yields (Fits false) (term size expr) := by
  refine .after (atWord?_passes _) fun _ => .ite (lambdaExpression_yields fits) ?_
  refine .after (word?_passes _) fun _ => .ite ?_ (.orElse ?_ (operation_yields fits))
  · exact .bind fits fun node fit => .pure ⟨fit, trivial⟩
  · refine .bind anyWord_yields fun pair isWord => .after (mark_passes _) fun _ => ?_
    exact .bind fits fun value fit => .pure ⟨isWord, fit⟩

/-- **One level of the grammar**, if the level below it yields expressions. -/
theorem expressionStep_yields : Yields (Fits false) (expressionStep size expr) := by
  have later : Yields (Fits false) (do
      let _ ← word "and" <|> word "or"
      term size expr) :=
    .after (.orElse (word_passes _) (word_passes _)) fun _ => term_yields fits
  have condition : Yields (FitIn false) ((do
      let _ ← word "if"
      let test ← expr
      let _ ← word "else"
      let other ← expr
      pure [test, other]) <|> pure []) := by
    refine .orElse (.after (word_passes _) fun _ => .bind fits fun test fit => ?_) (.pure trivial)
    exact .after (word_passes _) fun _ => .bind fits fun other fit' => .pure ⟨fit, fit', trivial⟩
  have target : Yields (FitIn false) ((do
      let _ ← word "as"
      let node ← expr
      pure [Node.asTarget node]) <|> pure []) := by
    refine .orElse (.after (word_passes _) fun _ => .bind fits fun node fit => ?_) (.pure trivial)
    exact .pure ⟨fit, trivial⟩
  refine .bind (term_yields fits) fun first fit => .bind (many_fit later size) fun more all => ?_
  refine .bind condition fun test fit' => .bind target fun node fit'' => .pure ?_
  simp [fit, all, fit', fit'']

end

/-- **Expressions have no statements inside, and words for names.** -/
theorem expression_yields (size : Nat) : ∀ fuel, Yields (Fits false) (expression size fuel)
  | 0 => by rintro tokens x rest wordy ⟨⟩
  | fuel + 1 => expressionStep_yields (expression_yields size fuel)

end CodeSurvey.Python
