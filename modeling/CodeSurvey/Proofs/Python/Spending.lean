import CodeSurvey.Python.Expression
import CodeSurvey.Proofs.Index.Forms
import CodeSurvey.Proofs.Index.Places
import Mathlib.Algebra.GroupWithZero.Nat

/-!
# What parsers spend tokens on

Every form that opens a scope takes its site from a token of its own, and so does every name, field,
definition or import with its line. A parser spends tokens on what it reads: with so much for every
site and every line, `Spends a credit weight p` says that whenever the parser `p` succeeds, its
result weighs no more than the tokens that it took are worth, with so much credit from before. The
weight of a node is what the sites and lines in it are worth.

* `Spends.bind`, `Spends.orElse`, `Spends.many` and the others say so for the ways to combine
  parsers.
* `expression_spends`: expressions spend a token on every form and every line.
-/

namespace CodeSurvey.Python

open Node

/-- What sites and lines are worth. -/
structure Worth where
  site : Nat → Nat
  line : Nat → Nat

/-- What a token is worth by its place. -/
def Worth.token (a : Worth) (token : Token) : Nat :=
  a.site token.site + a.line token.line

/-- A token pays for a site. -/
theorem Worth.site_le (a : Worth) (token : Token) : a.site token.site ≤ a.token token :=
  Nat.le_add_right ..

/-- It pays for a line. -/
theorem Worth.line_le (a : Worth) (token : Token) : a.line token.line ≤ a.token token :=
  Nat.le_add_left ..

/-- What some tokens are worth. -/
def tokensWorth (a : Worth) (tokens : List Token) : Nat :=
  (tokens.map a.token).sum

/-- What the sites and lines in a node are worth. -/
def weight (a : Worth) (node : Node) : Nat :=
  (node.forms.map a.site).sum + (node.places.map a.line).sum

/-- What the sites and lines in some nodes are worth. -/
def weightIn (a : Worth) (nodes : List Node) : Nat :=
  ((formsIn nodes).map a.site).sum + ((placesIn nodes).map a.line).sum

/-- A result that nothing is in. -/
def free {α : Type} (_ : α) : Nat := 0

@[simp] theorem free_eq {α : Type} (x : α) : free x = 0 := rfl

/-- The result of a parser weighs no more than what it takes, with so much credit. -/
def Spends {α : Type} (a : Worth) (credit : Nat) (w : α → Nat) (p : TokenParser α) : Prop :=
  ∀ tokens x rest, p tokens = some (x, rest) →
    w x + tokensWorth a rest ≤ credit + tokensWorth a tokens

variable {α β : Type} {a : Worth} {c : Nat} {w : α → Nat} {w' : β → Nat} {p q : TokenParser α}

theorem tokensWorth_cons (a : Worth) (token : Token) (rest : List Token) :
    tokensWorth a (token :: rest) = a.token token + tokensWorth a rest := by
  rw [tokensWorth, List.map_cons, List.sum_cons, ← tokensWorth]

namespace Spends

/-- More credit does no harm, nor does a result that weighs less. -/
theorem mono {c' : Nat} {v : α → Nat} (h : Spends a c w p) (more : c ≤ c') (less : ∀ x, v x ≤ w x) :
    Spends a c' v p := by
  intro tokens x rest eq
  have := h tokens x rest eq
  have := less x
  omega

/-- What is there without reading has to be paid out of the credit. -/
theorem pure {x : α} (h : w x ≤ c) : Spends a c w (Pure.pure x) := by
  rintro tokens _ _ ⟨⟩
  omega

theorem failure : Spends a c w (Alternative.failure : TokenParser α) := by
  rintro tokens x rest ⟨⟩

/-- What is left of the credit goes to the next parser. -/
theorem bind {f : α → TokenParser β} (first : Spends a 0 w p)
    (next : ∀ x, Spends a (c + w x) w' (f x)) : Spends a c w' (p >>= f) := by
  intro tokens y rest eq
  obtain ⟨⟨x, middle⟩, eq₁, eq₂⟩ := Option.bind_eq_some_iff.1 eq
  have := first tokens x middle eq₁
  have := next x middle y rest eq₂
  omega

/-- A parser that fails has taken nothing from the one that is tried after it. -/
theorem orElse (left : Spends a c w p) (right : Spends a c w q) : Spends a c w (p <|> q) := by
  intro tokens x rest eq
  have eq : (p tokens <|> q tokens) = some (x, rest) := eq
  cases h : p tokens with
  | some r =>
      rw [h] at eq
      exact left tokens x rest (h.trans eq)
  | none =>
      rw [h] at eq
      exact right tokens x rest eq

theorem ite {condition : Prop} [Decidable condition] (left : Spends a c w p)
    (right : Spends a c w q) : Spends a c w (if condition then p else q) := by
  split
  · exact left
  · exact right

end Spends

/-! ### Single tokens -/

open TokenParser

/-- A token that is taken is there to be spent. -/
theorem next_spends : Spends a 0 a.token next := by
  intro tokens x rest eq
  cases tokens with
  | nil => cases eq
  | cons token tokens =>
      cases eq
      rw [tokensWorth_cons, Nat.zero_add]

/-- A token that is only looked at stays where it is. -/
theorem peek_spends : Spends a 0 free peek := by
  rintro tokens _ _ ⟨⟩
  exact Nat.le_refl _

theorem peekLexeme_spends : Spends a 0 free peekLexeme := by
  rintro tokens _ _ ⟨⟩
  exact Nat.le_refl _

theorem finish_spends : Spends a 0 free finish := by
  intro tokens x rest eq
  cases tokens with
  | nil =>
      cases eq
      exact Nat.le_refl _
  | cons => cases eq

theorem require_spends (condition : Bool) : Spends a 0 free (require condition) :=
  .ite (.pure (Nat.le_refl _)) .failure

/-- So is one that is called for by its lexeme. -/
theorem lexeme_spends (wanted : Lexeme) :
    Spends a 0 a.token (lexeme wanted) :=
  .bind next_spends fun _ => .bind (require_spends _) fun _ => .pure (by simp)

/-- A token that nothing takes its site from. -/
theorem lexeme_free (wanted : Lexeme) : Spends a 0 free (lexeme wanted) :=
  (lexeme_spends wanted).mono (Nat.le_refl _) fun _ => Nat.zero_le _

theorem next_free : Spends a 0 free next :=
  next_spends.mono (Nat.le_refl _) fun _ => Nat.zero_le _

theorem mark_spends (symbol : String) : Spends a 0 free (mark symbol) :=
  .bind (lexeme_spends _) fun _ => .pure (Nat.zero_le _)

theorem word_spends (text : String) : Spends a 0 a.token (word text) :=
  lexeme_spends _

/-- A word can pay for the site of the form that it starts. -/
theorem word_site (text : String) : Spends a 0 (fun token => a.site token.site) (word text) :=
  (word_spends text).mono (Nat.le_refl _) a.site_le

/-- It can pay for the line of the definition that it starts instead. -/
theorem word_line (text : String) : Spends a 0 (fun token => a.line token.line) (word text) :=
  (word_spends text).mono (Nat.le_refl _) a.line_le

theorem word_free (text : String) : Spends a 0 free (word text) :=
  lexeme_free _

/-- A word that is read pays for a name on its line. -/
theorem anyWord_spends : Spends a 0 (fun pair => a.line pair.1.line) anyWord := by
  refine .bind next_spends fun token => ?_
  split
  · exact .pure (by simpa using a.line_le token)
  · exact .failure

/-- A word that becomes a text need not pay for anything. -/
theorem anyWord_free : Spends a 0 free anyWord :=
  anyWord_spends.mono (Nat.le_refl _) fun _ => Nat.zero_le _

/-- Looking for a word takes nothing. -/
theorem atWord?_spends (words : List String) : Spends a 0 free (atWord? words) := by
  refine .bind peekLexeme_spends fun found => ?_
  split
  · exact .pure (Nat.le_refl _)
  · exact .pure (Nat.le_refl _)

theorem atMark?_spends (symbols : List String) : Spends a 0 free (atMark? symbols) := by
  refine .bind peekLexeme_spends fun found => ?_
  split
  · exact .pure (Nat.le_refl _)
  · exact .pure (Nat.le_refl _)

/-- A mark never pays, whether it is there or not. -/
theorem mark?_spends (symbol : String) : Spends a 0 free (mark? symbol) :=
  .orElse (.bind (mark_spends _) fun _ => .pure (Nat.zero_le _)) (.pure (Nat.le_refl _))

theorem word?_spends (text : String) : Spends a 0 free (word? text) :=
  .orElse (.bind (word_spends _) fun _ => .pure (Nat.zero_le _)) (.pure (Nat.le_refl _))

theorem require_rest {condition : Bool} {u : Unit} {tokens rest : List Token}
    (eq : require condition tokens = some (u, rest)) : rest = tokens := by
  cases condition with
  | true =>
      cases eq
      rfl
  | false => cases eq

/-- A lexeme that is called for is the next token, and only that is taken. -/
theorem lexeme_rest {wanted : Lexeme} {token found : Token} {tokens rest : List Token}
    (eq : lexeme wanted (token :: tokens) = some (found, rest)) : rest = tokens := by
  -- taking the token computes, so what is left of the parser is the test of its lexeme
  obtain ⟨⟨_, _⟩, required, same⟩ := Option.bind_eq_some_iff.1 eq
  cases same
  exact require_rest required

/-- A word that may be there is taken if it is the next token, and else nothing is. -/
theorem word?_rest {text : String} {token : Token} {found : Bool} {tokens rest : List Token}
    (eq : word? text (token :: tokens) = some (found, rest)) :
    found = true ∧ rest = tokens ∨ found = false ∧ rest = token :: tokens := by
  have eq : ((word text (token :: tokens)).bind (fun (_, left) => some (true, left)) <|>
      some (false, token :: tokens)) = some (found, rest) := eq
  cases taken : word text (token :: tokens) with
  | none =>
      rw [taken] at eq
      cases eq
      exact .inr ⟨rfl, rfl⟩
  | some pair =>
      rw [taken] at eq
      cases eq
      exact .inl ⟨rfl, lexeme_rest taken⟩

/-- The same of a parser that starts at a known token. -/
def Opens (a : Worth) (token : Token) (w : α → Nat) (p : TokenParser α) : Prop :=
  ∀ tokens x rest, p (token :: tokens) = some (x, rest) →
    w x + tokensWorth a rest ≤ tokensWorth a (token :: tokens)

namespace Opens

variable {token : Token}

/-- A parser that spends what it takes can begin with any token. -/
theorem of_spends (h : Spends a 0 w p) : Opens a token w p := by
  intro tokens x rest eq
  have := h (token :: tokens) x rest eq
  omega

/-- A token that is taken pays for a form at its site. -/
theorem next (h : Spends a (a.token token) w p) :
    Opens a token w (do let _ ← TokenParser.next; p) := by
  intro tokens x rest eq
  rw [tokensWorth_cons]
  exact h tokens x rest eq

/-- A parser that calls for the word it begins with has that token to spend. -/
theorem word {text : String} (h : Spends a (a.token token) w p) :
    Opens a token w (do let _ ← TokenParser.word text; p) := by
  intro tokens x rest eq
  obtain ⟨⟨found, middle⟩, taken, later⟩ := Option.bind_eq_some_iff.1 eq
  obtain rfl := lexeme_rest taken
  rw [tokensWorth_cons]
  exact h _ x rest later

/-- The word that comes next if the one before it is not there. -/
theorem word? {text : String} {f : Bool → TokenParser α}
    (taken : Spends a (a.token token) w (f true)) (left : Opens a token w (f false)) :
    Opens a token w (TokenParser.word? text >>= f) := by
  intro tokens x rest eq
  obtain ⟨⟨found, middle⟩, looked, later⟩ := Option.bind_eq_some_iff.1 eq
  rcases word?_rest looked with ⟨rfl, rfl⟩ | ⟨rfl, rfl⟩
  · rw [tokensWorth_cons]
    exact taken _ x rest later
  · exact left tokens x rest later

end Opens

/-- A token that is looked at is still there to be taken. -/
theorem Spends.peeked {f : Option Token → TokenParser α} (empty : f none [] = none)
    (opens : ∀ token, Opens a token w (f (some token))) : Spends a 0 w (peek >>= f) := by
  intro tokens x rest eq
  cases tokens with
  | nil => cases empty.symm.trans eq
  | cons token tokens =>
      have := opens token tokens x rest eq
      omega

theorem markOf_spends (symbols : List String) : Spends a 0 free (markOf symbols) := by
  refine .bind next_spends fun token => ?_
  split
  · exact (require_spends _).mono (Nat.zero_le _) fun _ => Nat.le_refl _
  · exact .failure

/-! ### Repetition -/

/-- What a list of results weighs. -/
def weights (w : α → Nat) : List α → Nat
  | []           => 0
  | item :: rest => w item + weights w rest

/-- A repetition spends what its items spend; the induction is on how many there may be. -/
theorem many_spends (item : Spends a 0 w p) : ∀ fuel, Spends a 0 (weights w) (many p fuel)
  | 0 => by
      rintro tokens _ _ ⟨⟩
      exact Nat.le_refl _
  | fuel + 1 => by
      intro tokens items rest eq
      rw [many] at eq
      cases first : p tokens with
      | none =>
          rw [first] at eq
          cases eq
          exact Nat.le_refl _
      | some result =>
          obtain ⟨x, middle⟩ := result
          rw [first] at eq
          obtain ⟨⟨xs, left⟩, later, eq⟩ := Option.map_eq_some_iff.1 eq
          cases eq
          have := item tokens x middle first
          have := many_spends item fuel middle xs rest later
          rw [weights]
          omega

/-- The commas between items cost nothing. -/
theorem commas_spends (item : Spends a 0 w p) (fuel : Nat) :
    Spends a 0 (fun result => weights w result.1) (commas p fuel) := by
  have more : Spends a 0 w (do mark ","; p) :=
    .bind (mark_spends _) fun _ => item
  refine .bind item fun x => .bind (many_spends more fuel) fun xs => ?_
  exact .bind (mark?_spends _) fun _ => .pure (by simp [weights])

/-- Nor does the mark that closes a list. -/
theorem listUntil_spends (item : Spends a 0 w p) (closing : String) (fuel : Nat) :
    Spends a 0 (weights w) (listUntil p closing fuel) := by
  refine .bind (mark?_spends _) fun _ => .ite (.pure (Nat.le_refl _)) ?_
  refine .bind (commas_spends item fuel) fun items => .bind (mark_spends _) fun _ => ?_
  exact .pure (by simp)

/-! ### What nodes weigh -/

section

variable (a : Worth) (node : Node) (nodes more : List Node)

@[simp] theorem weightIn_nil : weightIn a [] = 0 := rfl

@[simp] theorem weightIn_cons : weightIn a (node :: nodes) = weight a node + weightIn a nodes := by
  simp only [weight, weightIn, formsIn, placesIn, List.map_append, List.sum_append]
  omega

/-- Nodes weigh what they weigh one by one. -/
@[simp] theorem weightIn_append :
    weightIn a (nodes ++ more) = weightIn a nodes + weightIn a more := by
  induction nodes with
  | nil => simp
  | cons node rest ih =>
      rw [List.cons_append, weightIn_cons, weightIn_cons, ih, Nat.add_assoc]

/-- Weighing nodes one after another is weighing them together. -/
@[simp] theorem weights_weight : weights (weight a) nodes = weightIn a nodes := by
  induction nodes with
  | nil => rfl
  | cons node rest ih => rw [weights, ih, weightIn_cons]

/-- Lists of nodes weigh what all the nodes in them weigh together. -/
@[simp] theorem weights_weightIn (lists : List (List Node)) :
    weights (weightIn a) lists = weightIn a lists.flatten := by
  induction lists with
  | nil => rfl
  | cons nodes rest ih => rw [weights, ih, List.flatten_cons, weightIn_append]

@[simp] theorem weights_free {α : Type} (items : List α) : weights free items = 0 := by
  induction items with
  | nil => rfl
  | cons item rest ih => rw [weights, ih, free_eq]

@[simp] theorem weight_group : weight a (.group nodes) = weightIn a nodes := rfl

@[simp] theorem weight_absent : weight a .absent = 0 := rfl

/-- Parts that mean nothing weigh nothing. -/
@[simp] theorem weightIn_replicate_absent (n : Nat) :
    weightIn a (List.replicate n .absent) = 0 := by
  induction n with
  | zero => rfl
  | succ n ih => rw [List.replicate_succ, weightIn_cons, ih, weight_absent]

/-- A bundle weighs what is in it. -/
@[simp] theorem weight_bundle (shape : Shape) : weight a (.bundle shape nodes) = weightIn a nodes :=
  rfl

@[simp] theorem weight_branch : weight a (.branch nodes) = weightIn a nodes := rfl

@[simp] theorem weight_string (value : Option String) :
    weight a (.string value nodes) = weightIn a nodes := rfl

/-- A name is worth its line. -/
@[simp] theorem weight_name (line : Nat) (id : String) :
    weight a (.name line id) = a.line line := by
  simp [weight, forms, places]

/-- A target has no sites and no lines that count. -/
@[simp] theorem weight_asTarget : weight a (.asTarget node) = 0 := rfl

@[simp] theorem weight_imports (line : Nat) (clause : ImportClause) :
    weight a (.imports line clause) = a.line line := by
  simp [weight, forms, places]

@[simp] theorem weight_globals (names : List String) : weight a (.globals names) = 0 := rfl

@[simp] theorem weight_keyword (name : String) :
    weight a (.keyword name node) = weight a node := rfl

/-- An assignment inside an expression is worth its line beside its value. -/
@[simp] theorem weight_walrus (line : Nat) (id : String) :
    weight a (.walrus line id node) = weight a node + a.line line := by
  simp only [weight, forms, places, List.map_cons, List.sum_cons]
  omega

/-- A field is worth its line beside its object. -/
@[simp] theorem weight_attribute (line : Nat) (field : String) :
    weight a (.attribute node line field) = weight a node + a.line line := by
  simp only [weight, forms, places, List.map_cons, List.sum_cons]
  omega

@[simp] theorem weight_subscript :
    weight a (.subscript node nodes) = weight a node + weightIn a nodes :=
  weightIn_cons ..

/-- A call weighs what it calls and its arguments. -/
@[simp] theorem weight_call : weight a (.call node nodes) = weight a node + weightIn a nodes :=
  weightIn_cons ..

@[simp] theorem weight_forIn : weight a (.forIn node nodes) = weight a node + weightIn a nodes :=
  weightIn_cons ..

@[simp] theorem weight_forLoop :
    weight a (.forLoop node nodes) = weight a node + weightIn a nodes :=
  weightIn_cons ..

@[simp] theorem weight_param (id : Option String) (other : Node) :
    weight a (.param id node other) = weight a node + weight a other := by
  simp only [weight, forms, places, List.map_append, List.sum_append]
  omega

@[simp] theorem weight_augment (other : Node) :
    weight a (.augment node other) = weight a node + weight a other :=
  weight_param a node none other

@[simp] theorem weight_decorated :
    weight a (.decorated nodes node) = weightIn a nodes + weight a node := by
  simp only [weight, weightIn, forms, places, List.map_append, List.sum_append]
  omega

/-- The line of an assignment that stands where the name it assigns to does costs nothing. -/
@[simp] theorem weight_assign (line : Nat) (hint value : Node) :
    weight a (.assign line node hint value) =
      ((strayLine line node).map a.line).sum +
        (weight a node + (weight a hint + weight a value)) := by
  simp only [weight, forms, places, List.map_append, List.sum_append]
  omega

/-- A comprehension is worth its site beside what is in it. -/
@[simp] theorem weight_comprehension (site : Nat) :
    weight a (.comprehension site nodes) = weightIn a nodes + a.site site := by
  simp only [weight, weightIn, forms, places, List.map_cons, List.sum_cons]
  omega

/-- So is a `lambda`. -/
@[simp] theorem weight_lambda (site : Nat) :
    weight a (.lambda site nodes node) = weightIn a nodes + weight a node + a.site site := by
  simp only [weight, weightIn, forms, places, List.map_cons, List.sum_cons, List.map_append,
    List.sum_append]
  omega

/-- A function is worth both its line and its site. -/
@[simp] theorem weight_function (line : Nat) (id : String) (site : Nat) :
    weight a (.function line id site nodes node more) =
      weightIn a nodes + (weight a node + weightIn a more) + (a.line line + a.site site) := by
  simp only [weight, weightIn, forms, places, List.map_cons, List.sum_cons, List.map_append,
    List.sum_append]
  omega

/-- So is a class. -/
@[simp] theorem weight_classDef (line : Nat) (id : String) (site : Nat) :
    weight a (.classDef line id site nodes more) =
      weightIn a nodes + weightIn a more + (a.line line + a.site site) := by
  simp only [weight, weightIn, forms, places, List.map_cons, List.sum_cons, List.map_append,
    List.sum_append]
  omega

/-- Grouping costs nothing. -/
@[simp] theorem weight_grouped : weight a (grouped nodes) = weightIn a nodes := by
  rw [grouped.eq_def]
  split
  · simp
  · simp

end

/-! ### Expressions -/

section

variable {size : Nat} {expr target : TokenParser Node} (spends : Spends a 0 (weight a) expr)
  (targets : Spends a 0 (weight a) target)

include spends

/-- Expressions with commas between them weigh what each of them weighs. -/
theorem bareList_spends : Spends a 0 (weight a) (bareList size expr) := by
  refine .bind (commas_spends spends size) fun items => .pure ?_
  split <;> simp

/-- The word `yield` pays for nothing. -/
theorem yieldExpression_spends : Spends a 0 (weight a) (yieldExpression size expr) := by
  refine .bind (word_free _) fun _ => .bind (word?_spends _) fun _ => .ite ?_ ?_
  · exact .bind spends fun value => .pure (by simp)
  · exact .orElse (.bind (bareList_spends spends) fun value => .pure (by simp)) (.pure (by simp))

theorem yieldOrExpressions_spends : Spends a 0 (weight a) (yieldOrExpressions size expr) :=
  .orElse (yieldExpression_spends spends) (bareList_spends spends)

theorem holeHead_spends : Spends a 0 (weight a) (holeHead size expr) := by
  have conversion : Spends a 0 free ((do let _ ← lexeme .conversion; pure true) <|> pure false) :=
    .orElse (.bind (lexeme_free _) fun _ => .pure (by simp)) (.pure (by simp))
  refine .bind (lexeme_free _) fun _ => .bind (yieldOrExpressions_spends spends) fun value => ?_
  exact .bind (mark?_spends _) fun _ => .bind conversion fun _ => .pure (by simp)

/-- What stands in the holes of a string is paid for by its own tokens; the induction is on how deep
they are. -/
theorem hole_spends : ∀ depth, Spends a 0 (weight a) (hole size expr depth)
  | 0 => by rintro tokens x rest ⟨⟩
  | depth + 1 => by
      have nested : Spends a 0 (weightIn a) ((do
          let _ ← lexeme .holeSpec
          many (hole size expr depth) size) <|> pure []) := by
        refine .orElse (.bind (lexeme_free _) fun _ => ?_) (.pure (by simp))
        exact (many_spends (hole_spends depth) size).mono (Nat.zero_le _) (by simp)
      refine .bind (holeHead_spends spends) fun value => .bind nested fun more => ?_
      exact .bind (lexeme_free _) fun _ => .pure (by simp)

theorem stringLiteral_spends : Spends a 0 (weight a) (stringLiteral size expr) := by
  refine .bind next_free fun token => ?_
  split
  · exact .pure (by simp)
  · refine .bind (many_spends (hole_spends spends size) size) fun holes => ?_
    exact .bind (lexeme_free _) fun _ => .pure (by simp)
  · exact .failure

/-- Strings in a row pay for their holes. -/
theorem strings_spends : Spends a 0 (weight a) (strings size expr) := by
  refine .bind (stringLiteral_spends spends) fun first => ?_
  exact .bind (many_spends (stringLiteral_spends spends) size) fun more => .pure (by simp)

include targets in
omit spends in
/-- The targets of a loop pay for their names. -/
theorem targetList_spends : Spends a 0 (weight a) (targetList size target) := by
  have item : Spends a 0 (weight a) (do
      let node ← target
      require node.isTarget
      pure node) :=
    .bind targets fun node => .bind (require_spends _) fun _ => .pure (by simp)
  have later : Spends a 0 (weight a) (do
      mark ","
      require !(← atWord? ["in"])
      let node ← target
      require node.isTarget
      pure node) :=
    .bind (mark_spends _) fun _ => .bind (atWord?_spends _) fun _ =>
      .bind (require_spends _) fun _ => item
  refine .bind item fun first => .bind (many_spends later size) fun more => ?_
  refine .bind (mark?_spends _) fun trailing => .pure ?_
  split <;> simp

include targets in
theorem forClause_spends : Spends a 0 (weight a) (forClause size expr target) := by
  have later : Spends a 0 (weight a) (do
      mark ","
      require !(← atWord? ["for", "if", "async"])
      expr) :=
    .bind (mark_spends _) fun _ => .bind (atWord?_spends _) fun _ =>
      .bind (require_spends _) fun _ => spends
  refine .bind (word?_spends _) fun _ => .bind (word_free _) fun _ => ?_
  refine .bind (targetList_spends targets) fun left => .bind (word_free _) fun _ => ?_
  refine .bind spends fun first => .bind (many_spends later size) fun more => ?_
  exact .bind (mark?_spends _) fun _ => .pure (by simp; omega)

theorem ifClause_spends : Spends a 0 (weight a) (ifClause expr) :=
  .bind (word_free _) fun _ => .bind spends fun condition => .pure (by simp)

theorem unconditional_spends : Spends a 0 (weight a) (unconditional expr) := by
  intro tokens x rest eq
  obtain ⟨⟨node, left⟩, read, eq⟩ := Option.bind_eq_some_iff.1 eq
  by_cases other : mentionsElse 0 (tokens.take (tokens.length - left.length))
  · simp [other] at eq
  · obtain ⟨rfl, rfl⟩ : node = x ∧ left = rest := by simpa [other] using eq
    exact spends tokens node left read

include targets in
/-- The clauses of a comprehension are paid for by their own tokens, and leave the opening bracket
for its site. -/
theorem comprehensionClauses_spends :
    Spends a 0 (weightIn a) (comprehensionClauses size expr target) := by
  have plain := unconditional_spends spends
  have clause : Spends a 0 (weight a) (forClause size (unconditional expr) target) :=
    forClause_spends plain targets
  refine .bind clause fun first => ?_
  exact .bind (many_spends (.orElse clause (ifClause_spends plain)) size) fun more =>
    .pure (by simp)

/-- An argument pays with its value. -/
theorem argument_spends : Spends a 0 (weight a) (argument expr) := by
  refine .orElse ?_ (.orElse ?_ (.orElse ?_ spends))
  · refine .bind anyWord_free fun pair => .bind (mark_spends _) fun _ => ?_
    exact .bind (require_spends _) fun _ => .bind spends fun value => .pure (by simp)
  · exact .bind (mark_spends _) fun _ => .bind spends fun value => .pure (by simp)
  · exact .bind (mark_spends _) fun _ => .bind spends fun value => .pure (by simp)

omit spends in
/-- The nodes of line continuations are free, and so are the continuations. -/
theorem joinedLines_spends : Spends a 0 (weightIn a) joinedLines :=
  .bind peek_spends fun _ => .pure (by simp)

theorem nextArgument_spends : Spends a 0 (weightIn a) (nextArgument expr) := by
  refine .bind joinedLines_spends fun before => .bind (mark_spends _) fun _ => ?_
  refine .bind joinedLines_spends fun between => .bind (argument_spends spends) fun item => ?_
  exact .pure (by simp; omega)

include targets in
/-- The opening bracket of arguments can pay for the site of a comprehension in their place. -/
theorem arguments_spends : Spends a 0 (weightIn a) (arguments size expr target) := by
  have opens : Spends a 0 (fun token => a.site token.site) (lexeme (.mark "(")) :=
    (lexeme_spends _).mono (Nat.le_refl _) a.site_le
  refine .bind opens fun opening => .bind joinedLines_spends fun before => ?_
  refine .bind (mark?_spends _) fun _ => .ite ?_ ?_
  · exact .pure (by simp)
  · refine .bind (mark?_spends _) fun _ => .ite ?_ ?_
    · exact .bind (mark_spends _) fun _ => .pure (by simp)
    · refine .bind (atMark?_spends _) fun _ => .bind (argument_spends spends) fun first => ?_
      refine .bind (atWord?_spends _) fun _ => .ite ?_ ?_
      · refine .bind (require_spends _) fun _ => ?_
        refine .bind (comprehensionClauses_spends spends targets) fun clauses => ?_
        exact .bind (mark_spends _) fun _ => .pure (by simp; omega)
      · refine .bind (many_spends (nextArgument_spends spends) size) fun more => ?_
        refine .bind (mark?_spends _) fun _ => .bind (mark_spends _) fun _ => ?_
        exact .pure (by simp; omega)

theorem optional_spends : Spends a 0 (weightIn a)
    ((do let node ← expr; pure [node]) <|> pure []) :=
  .orElse (.bind spends fun node => .pure (by simp)) (.pure (by simp))

theorem sliceTail_spends : Spends a 0 (weightIn a) (sliceTail expr) := by
  have stride : Spends a 0 (weightIn a) ((do
      mark ":"
      (do let node ← expr; pure [node]) <|> pure []) <|> pure []) :=
    .orElse (.bind (mark_spends _) fun _ => optional_spends spends) (.pure (by simp))
  exact .bind (optional_spends spends) fun upper => .bind stride fun more => .pure (by simp)

/-- The colons of a slice cost nothing. -/
theorem subscriptIndex_spends : Spends a 0 (weight a) (subscriptIndex expr) := by
  refine .orElse ?_ ?_
  · exact .bind (mark_spends _) fun _ => .bind (sliceTail_spends spends) fun parts =>
      .pure (by simp)
  · refine .bind spends fun first => .bind (mark?_spends _) fun _ => .ite ?_ (.pure (by simp))
    exact .bind (sliceTail_spends spends) fun parts => .pure (by simp)

include targets in
/-- What a trailer is applied to has been paid for; the rest it pays itself. -/
theorem trailer_spends (object : Node) :
    Spends a (weight a object) (weight a) (trailer size expr target object) := by
  refine .orElse ?_ (.orElse ?_ ?_)
  · exact .bind (mark_spends _) fun _ => .bind anyWord_spends fun pair => .pure (by simp)
  · exact .bind (arguments_spends spends targets) fun items => .pure (by simp)
  · refine .bind (mark_spends _) fun _ => ?_
    refine .bind (commas_spends (subscriptIndex_spends spends) size) fun items => ?_
    exact .bind (mark_spends _) fun _ => .pure (by simp)

include targets in
/-- So it is with several of them; the induction is on how many there may be. -/
theorem trailers_spends : ∀ (fuel : Nat) (object : Node),
    Spends a (weight a object) (weight a) (trailers size expr target fuel object)
  | 0, object => by
      rintro tokens _ _ ⟨⟩
      exact Nat.le_refl _
  | fuel + 1, object => by
      intro tokens x rest eq
      rw [trailers] at eq
      cases step : trailer size expr target object tokens with
      | none =>
          rw [step] at eq
          cases eq
          exact Nat.le_refl _
      | some result =>
          obtain ⟨longer, middle⟩ := result
          rw [step] at eq
          have := trailer_spends spends targets object tokens longer middle step
          have := trailers_spends fuel longer middle x rest eq
          omega

theorem element_spends : Spends a 0 (weight a) (element size expr) := by
  refine .orElse (yieldExpression_spends spends) (.orElse ?_ spends)
  exact .bind (mark_spends _) fun _ => .bind spends fun value => .pure (by simp)

include targets in
/-- The token that opens a bracket pays for the comprehension in it. -/
theorem bracketed_spends (site : Nat) (closing : String) :
    Spends a (a.site site) (weight a) (bracketed size expr target site closing) := by
  have later : Spends a 0 (weight a) (do mark ","; element size expr) :=
    .bind (mark_spends _) fun _ => element_spends spends
  refine .bind (mark?_spends _) fun _ => .ite (.pure (by simp)) ?_
  refine .bind (atWord?_spends _) fun _ => .bind (element_spends spends) fun first => ?_
  refine .bind (atWord?_spends _) fun _ => .ite ?_ ?_
  · refine .bind (require_spends _) fun _ => ?_
    refine .bind (comprehensionClauses_spends spends targets) fun clauses => ?_
    exact .bind (mark_spends _) fun _ => .pure (by simp; omega)
  · refine .bind (many_spends later size) fun more => .bind (mark?_spends _) fun _ => ?_
    exact .bind (mark_spends _) fun _ => .pure (by simp [Nat.add_assoc])

theorem pair_spends : Spends a 0 (weight a) (pair expr) :=
  .bind spends fun key => .bind (mark_spends _) fun _ => .bind spends fun value =>
    .pure (by simp)

theorem spread_spends : Spends a 0 (weight a) (spread expr) :=
  .bind (mark_spends _) fun _ => .bind spends fun value => .pure (by simp)

include targets in
/-- What follows the first item in braces has the brace to pay with, and what the first item weighs.
-/
theorem bracedTail_spends {part : TokenParser Node} (parts : Spends a 0 (weight a) part)
    (site : Nat) (repeats : Bool) (first : Node) :
    Spends a (a.site site + weight a first) (weight a)
      (bracedTail size expr target part site repeats first) := by
  have later : Spends a 0 (weight a) (do mark ","; part) :=
    .bind (mark_spends _) fun _ => parts
  refine .bind (atWord?_spends _) fun _ => .ite ?_ ?_
  · refine .bind (require_spends _) fun _ => ?_
    refine .bind (comprehensionClauses_spends spends targets) fun clauses => ?_
    exact .bind (mark_spends _) fun _ => .pure (by simp; omega)
  · refine .bind (many_spends later size) fun more => .bind (mark?_spends _) fun _ => ?_
    exact .bind (mark_spends _) fun _ => .pure (by simp [Nat.add_assoc])

include targets in
/-- The token that opens a brace pays for the comprehension in it. -/
theorem braced_spends (site : Nat) :
    Spends a (a.site site) (weight a) (braced size expr target site) := by
  have entry : Spends a 0 (weight a) (spread expr <|> pair expr) :=
    .orElse (spread_spends spends) (pair_spends spends)
  refine .bind (mark?_spends _) fun _ => .ite (.pure (by simp)) ?_
  refine .bind (mark?_spends _) fun _ => .ite ?_ ?_
  · exact .bind (mark_spends _) fun _ => .pure (by simp)
  · refine .bind (atMark?_spends _) fun _ => .ite ?_ ?_
    · exact .bind (spread_spends spends) fun first =>
        bracedTail_spends spends targets entry site false first
    · refine .bind (atWord?_spends _) fun _ => .bind (element_spends spends) fun first => ?_
      refine .bind (mark?_spends _) fun _ => .ite ?_ ?_
      · refine .bind spends fun value => ?_
        refine (bracedTail_spends spends targets entry site true (.group [first, value])).mono ?_
          fun _ => Nat.le_refl _
        simp [Nat.add_assoc]
      · exact bracedTail_spends spends targets (element_spends spends) site _ first

include targets in
/-- **An atom pays with its first token**: a name for its line, a bracket for the site of a
comprehension. -/
theorem atom_spends : Spends a 0 (weight a) (atom size expr target) := by
  refine .peeked rfl fun token => ?_
  dsimp only
  split
  · exact .next (.pure (by split <;> simp [a.line_le]))
  · exact .next (.pure (by simp))
  · exact .next (.pure (by simp))
  · exact .next
      ((bracketed_spends spends targets _ _).mono (a.site_le token) fun _ => Nat.le_refl _)
  · exact .next
      ((bracketed_spends spends targets _ _).mono (a.site_le token) fun _ => Nat.le_refl _)
  · exact .next ((braced_spends spends targets _).mono (a.site_le token) fun _ => Nat.le_refl _)
  · exact .of_spends (strings_spends spends)

/-- Trailers pay for themselves after an atom; the induction is on how many stars there may be. -/
theorem primary_spends : ∀ fuel, Spends a 0 (weight a) (primary size expr fuel)
  | 0 => by rintro tokens x rest ⟨⟩
  | fuel + 1 => by
      have inner := primary_spends fuel
      refine .bind (mark?_spends _) fun _ => .ite ?_ ?_
      · exact .bind inner fun node => .bind (require_spends _) fun _ => .pure (by simp)
      · refine .bind (atom_spends spends inner) fun node => ?_
        exact (trailers_spends spends inner size node).mono (by simp) fun _ => Nat.le_refl _

omit spends in
/-- Signs cost nothing. -/
theorem sign_spends : Spends a 0 free sign := by
  refine .orElse (markOf_spends _) (.bind (word_free _) fun _ => ?_)
  exact .bind peekLexeme_spends fun _ => require_spends _

theorem operand_spends : Spends a 0 (weight a) (operand size expr) := by
  refine .bind (many_spends sign_spends size) fun signs => ?_
  refine .bind (primary_spends spends size) fun node => .pure ?_
  split <;> simp

omit spends in
theorem operator_spends : Spends a 0 free operator := by
  refine .orElse (markOf_spends _) (.orElse ?_ (.orElse ?_ ?_))
  · exact .bind (word_free _) fun _ => .pure (by simp)
  · exact .bind (word_free _) fun _ => .bind (word_free _) fun _ => .pure (by simp)
  · exact .bind (word_free _) fun _ => .bind (word?_spends _) fun _ => .pure (by simp)

/-- Operators cost nothing. -/
theorem operation_spends : Spends a 0 (weight a) (operation size expr) := by
  have later : Spends a 0 (weight a) (do operator; operand size expr) :=
    .bind operator_spends fun _ => operand_spends spends
  exact .bind (operand_spends spends) fun first => .bind (many_spends later size) fun more =>
    .pure (by simp)

omit spends in
theorem atGeneric?_spends : Spends a 0 free atGeneric? := by
  intro tokens x rest eq
  rw [atGeneric?.eq_def] at eq
  split at eq <;> cases eq <;> exact Nat.le_refl _

omit spends in
/-- The arguments of a generic type pay for themselves. -/
theorem generic_spends {inner : TokenParser Node} (inners : Spends a 0 (weight a) inner) :
    Spends a 0 (weight a) (generic size inner) := by
  refine .bind anyWord_spends fun pair => .bind (mark_spends _) fun _ => ?_
  refine .bind (commas_spends inners size) fun items => .bind (mark_spends _) fun _ => ?_
  exact .pure (by simp)

omit spends in
theorem starredHint_spends : Spends a 0 (weight a) starredHint :=
  .bind (mark_spends _) fun _ => .bind anyWord_spends fun pair => .pure (by simp)

/-- A type hint is paid for by its tokens, however deep it is. -/
theorem hint_spends : ∀ fuel, Spends a 0 (weight a) (hint size expr fuel)
  | 0 => by rintro tokens x rest ⟨⟩
  | fuel + 1 => by
      have inner := hint_spends fuel
      have later : Spends a 0 (weight a) (do mark ":"; hint size expr fuel) :=
        .bind (mark_spends _) fun _ => inner
      have bounded : Spends a 0 (weight a) (do
          let first ← hint size expr fuel
          let more ← many (do mark ":"; hint size expr fuel) size
          pure (grouped (first :: more))) :=
        .bind inner fun first => .bind (many_spends later size) fun more => .pure (by simp)
      have simple : Spends a 0 (weight a) (do
          if ← atGeneric? then generic size (do
            let first ← hint size expr fuel
            let more ← many (do mark ":"; hint size expr fuel) size
            pure (grouped (first :: more)))
          else if ← atMark? ["**"] then starredHint
          else expr) := by
        refine .bind atGeneric?_spends fun _ => .ite (generic_spends bounded) ?_
        exact .bind (atMark?_spends _) fun _ => .ite starredHint_spends spends
      have dotted : Spends a 0 (weight a) (do
          mark "."
          let pair ← anyWord
          pure (.name pair.1.line pair.2)) :=
        .bind (mark_spends _) fun _ => .bind anyWord_spends fun pair => .pure (by simp)
      refine .bind simple fun first => ?_
      refine .bind (many_spends (.orElse (.bind (mark_spends _) fun _ => simple) dotted) size) ?_
      exact fun more => .pure (by simp)

/-- A parameter with a star weighs nothing, for only its name is kept. -/
theorem starredParameter_spends (symbol : String) :
    Spends a 0 free (starredParameter size expr symbol) := by
  refine .bind (mark_spends _) fun _ => .bind peek_spends fun first => ?_
  refine .bind (primary_spends spends size) fun node => ?_
  exact .bind (require_spends _) fun _ => .pure (by simp)

theorem parameterName_spends : Spends a 0 free (parameterName size expr) := by
  refine .orElse ?_ (.orElse ?_ (.orElse ?_ ?_))
  · have starred : Spends a 0 free (starredParameter size expr "*" <|>
        starredParameter size expr "**") :=
      .orElse (starredParameter_spends spends _) (starredParameter_spends spends _)
    exact .bind starred fun bound => .pure (by simp)
  · exact .bind (markOf_spends _) fun _ => .pure (by simp)
  · exact .bind anyWord_free fun pair => .pure (by simp)
  · refine .bind (atMark?_spends _) fun _ => .bind (require_spends _) fun _ => ?_
    refine .bind (primary_spends spends size) fun node => ?_
    exact .bind (require_spends _) fun _ => .pure (by simp)

/-- A parameter pays for its hint and its default. -/
theorem parameter_spends (annotated : Bool) :
    Spends a 0 (weight a) (parameter size expr annotated) := by
  refine .bind (parameterName_spends spends) fun name => ?_
  have type : Spends a 0 (weight a) ((do
      require (annotated && name.hintable)
      mark ":"
      hint size expr size) <|> pure .absent) :=
    .orElse (.bind (require_spends _) fun _ => .bind (mark_spends _) fun _ =>
      hint_spends spends size) (.pure (by simp))
  have fallback : Spends a 0 (weight a) ((do
      require name.defaultable
      mark "="
      expr) <|> pure .absent) :=
    .orElse (.bind (require_spends _) fun _ => .bind (mark_spends _) fun _ => spends)
      (.pure (by simp))
  exact .bind type fun hint => .bind fallback fun value => .pure (by simp)

/-- The word that opens a lambda pays for it. -/
theorem lambdaExpression_spends : Spends a 0 (weight a) (lambdaExpression size expr) := by
  refine .bind (word_site _) fun start => ?_
  refine .bind (listUntil_spends (parameter_spends spends false) _ size) fun params => ?_
  exact .bind spends fun body => .pure (by simp; omega)

/-- An assignment inside an expression pays for its line with the word that it binds. -/
theorem term_spends : Spends a 0 (weight a) (term size expr) := by
  refine .bind (atWord?_spends _) fun _ => .ite (lambdaExpression_spends spends) ?_
  refine .bind (word?_spends _) fun _ => .ite ?_ (.orElse ?_ (operation_spends spends))
  · exact .bind spends fun node => .pure (by simp)
  · refine .bind anyWord_spends fun pair => .bind (mark_spends _) fun _ => ?_
    exact .bind spends fun value => .pure (by simp [Nat.add_comm])

/-- **One level of the grammar** pays for its expressions if the level below it does. -/
theorem expressionStep_spends : Spends a 0 (weight a) (expressionStep size expr) := by
  have later : Spends a 0 (weight a) (do
      let _ ← word "and" <|> word "or"
      term size expr) :=
    .bind (.orElse (word_free _) (word_free _)) fun _ => term_spends spends
  have condition : Spends a 0 (weightIn a) ((do
      let _ ← word "if"
      let test ← expr
      let _ ← word "else"
      let other ← expr
      pure [test, other]) <|> pure []) := by
    refine .orElse (.bind (word_free _) fun _ => .bind spends fun test => ?_) (.pure (by simp))
    exact .bind (word_free _) fun _ => .bind spends fun other => .pure (by simp)
  have target : Spends a 0 (weightIn a) ((do
      let _ ← word "as"
      let node ← expr
      pure [Node.asTarget node]) <|> pure []) := by
    refine .orElse (.bind (word_free _) fun _ => .bind spends fun node => ?_) (.pure (by simp))
    exact .pure (by simp)
  refine .bind (term_spends spends) fun first => .bind (many_spends later size) fun more => ?_
  refine .bind condition fun test => .bind target fun node => .pure (by simp; omega)

end

/-- **An expression spends a token on every form and every line in it.** -/
theorem expression_spends (size : Nat) : ∀ fuel, Spends a 0 (weight a) (expression size fuel)
  | 0 => by rintro tokens x rest ⟨⟩
  | fuel + 1 => expressionStep_spends (expression_spends size fuel)

end CodeSurvey.Python
