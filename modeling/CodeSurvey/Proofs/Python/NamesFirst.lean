import CodeSurvey.Python.Statement

/-!
# Names stand at the front

Where the parser for expressions gives a name and nothing else, the name is the first token: all
that can stand before it leaves a trace in the tree. So an assignment to a name has the line of the
name.

* `Nameless`: parsers whose results are no names.
* `NamesFirst`: parsers that find a name only in the first token.
* `bareList_namesFirst`: so does the parser for what an assignment assigns to.
-/

namespace CodeSurvey.Python

open TokenParser

/-- The line of the first of some tokens. -/
def firstLine (tokens : List Token) : Nat :=
  (tokens.head?.map Token.line).getD 0

/-- A parser that goes on after another starts where that one ends. -/
theorem bind_eq_some {α β : Type} {p : TokenParser α} {f : α → TokenParser β} {y : β}
    {tokens rest : List Token} (eq : (p >>= f) tokens = some (y, rest)) :
    ∃ x middle, p tokens = some (x, middle) ∧ f x middle = some (y, rest) := by
  obtain ⟨⟨x, middle⟩, first, eq⟩ := Option.bind_eq_some_iff.1 eq
  exact ⟨x, middle, first, eq⟩

/-- The results of a parser are no names. -/
def Nameless (p : TokenParser Node) : Prop :=
  ∀ tokens line id rest, p tokens ≠ some (.name line id, rest)

/-- A name that a parser gives is on the line of the first token. -/
def NamesFirst (p : TokenParser Node) : Prop :=
  ∀ tokens line id rest, p tokens = some (.name line id, rest) → firstLine tokens = line

/-- A group is a name only if that name is all that is in it. -/
theorem grouped_eq_name {nodes : List Node} {line : Nat} {id : String}
    (h : grouped nodes = .name line id) : nodes = [.name line id] := by
  rw [grouped.eq_def] at h
  split at h
  · rw [h]
  · cases h

/-! ### Parsers without names -/

namespace Nameless

variable {α : Type} {p q : TokenParser Node}

/-- A node that is no name is none, whatever comes before it. -/
theorem pure {node : Node} (h : ∀ line id, node ≠ .name line id) : Nameless (Pure.pure node) := by
  rintro tokens line id rest ⟨⟩
  exact h line id rfl

theorem failure : Nameless Alternative.failure := by
  rintro tokens line id rest ⟨⟩

/-- What comes first does not matter for the node at the end. -/
theorem bind {first : TokenParser α} {f : α → TokenParser Node} (later : ∀ x, Nameless (f x)) :
    Nameless (first >>= f) := by
  intro tokens line id rest eq
  obtain ⟨x, middle, -, eq⟩ := bind_eq_some eq
  exact later x middle line id rest eq

/-- Neither choice gives a name if both never do. -/
theorem orElse (left : Nameless p) (right : Nameless q) : Nameless (p <|> q) := by
  intro tokens line id rest eq
  have eq : (p tokens <|> q tokens) = some (.name line id, rest) := eq
  cases h : p tokens with
  | some result =>
      rw [h] at eq
      exact left tokens line id rest (h.trans eq)
  | none =>
      rw [h] at eq
      exact right tokens line id rest eq

theorem ite {condition : Prop} [Decidable condition] (left : Nameless p) (right : Nameless q) :
    Nameless (if condition then p else q) := by
  split
  · exact left
  · exact right

/-- A name is then one of the other parser. -/
theorem elseNamesFirst (left : Nameless p) (right : NamesFirst q) : NamesFirst (p <|> q) := by
  intro tokens line id rest eq
  have eq : (p tokens <|> q tokens) = some (.name line id, rest) := eq
  cases h : p tokens with
  | some result =>
      rw [h] at eq
      exact absurd (h.trans eq) (left tokens line id rest)
  | none =>
      rw [h] at eq
      exact right tokens line id rest eq

end Nameless

/-- The same of a parser that starts at a known token. -/
def NamesAt (token : Token) (p : TokenParser Node) : Prop :=
  ∀ tokens line id rest, p (token :: tokens) = some (.name line id, rest) → token.line = line

/-- A parser that never gives a name may begin with any token. -/
theorem NamesAt.of_nameless {token : Token} {p : TokenParser Node} (h : Nameless p) :
    NamesAt token p :=
  fun tokens line id rest eq => absurd eq (h (token :: tokens) line id rest)

/-- A token that is looked at is the first one. -/
theorem NamesFirst.peeked {f : Option Token → TokenParser Node} (empty : f none [] = none)
    (names : ∀ token, NamesAt token (f (some token))) : NamesFirst (peek >>= f) := by
  intro tokens line id rest eq
  cases tokens with
  | nil => cases empty.symm.trans eq
  | cons token tokens => exact names token tokens line id rest eq

/-! ### Tokens that stay -/

/-- What is only taken if it is there leaves the tokens alone if it is not. -/
theorem optional_rest {α : Type} {p : TokenParser α} {tokens rest : List Token}
    (eq : ((do let _ ← p; pure true) <|> pure false : TokenParser Bool) tokens =
      some (false, rest)) : rest = tokens := by
  have eq : ((p tokens).bind (fun (_, left) => some (true, left)) <|> some (false, tokens)) =
      some (false, rest) := eq
  cases taken : p tokens with
  | none =>
      rw [taken] at eq
      cases eq
      rfl
  | some result =>
      rw [taken] at eq
      cases eq

/-- A repetition without an item has taken nothing. -/
theorem many_rest {α : Type} {p : TokenParser α} {fuel : Nat} {tokens rest : List Token}
    (eq : many p fuel tokens = some ([], rest)) : rest = tokens := by
  cases fuel with
  | zero =>
      cases eq
      rfl
  | succ fuel =>
      rw [many] at eq
      cases first : p tokens with
      | none =>
          rw [first] at eq
          cases eq
          rfl
      | some result =>
          rw [first] at eq
          obtain ⟨_, -, same⟩ := Option.map_eq_some_iff.1 eq
          cases same

theorem atWord?_rest {words : List String} {found : Bool} {tokens rest : List Token}
    (eq : atWord? words tokens = some (found, rest)) : rest = tokens := by
  obtain ⟨seen, middle, looked, later⟩ := bind_eq_some eq
  cases looked
  cases first : tokens.head?.map Token.lexeme with
  | none =>
      rw [first] at later
      cases later
      rfl
  | some lexeme =>
      rw [first] at later
      cases lexeme <;> cases later <;> rfl

/-! ### Operands -/

section

variable {size : Nat} {expr target : TokenParser Node}

theorem stringLiteral_nameless : Nameless (stringLiteral size expr) := by
  refine .bind fun token => ?_
  split
  · exact .pure nofun
  · exact .bind fun _ => .bind fun _ => .pure nofun
  · exact .failure

theorem strings_nameless : Nameless (strings size expr) := by
  intro tokens line id rest eq
  obtain ⟨first, middle, read, later⟩ := bind_eq_some eq
  obtain ⟨more, left, -, made⟩ := bind_eq_some later
  obtain ⟨same, -⟩ := Prod.mk.inj (Option.some.inj made)
  cases grouped_eq_name same
  exact stringLiteral_nameless _ _ _ _ read

/-- What stands in brackets is a node of its own even if it is a single name. -/
theorem bracketed_nameless (site : Nat) (closing : String) :
    Nameless (bracketed size expr target site closing) := by
  refine .bind fun _ => .ite (.pure nofun) ?_
  refine .bind fun _ => .bind fun first => .bind fun _ => .ite ?_ ?_
  · exact .bind fun _ => .bind fun _ => .bind fun _ => .pure nofun
  · exact .bind fun _ => .bind fun _ => .bind fun _ => .pure nofun

theorem bracedTail_nameless (part : TokenParser Node) (site : Nat) (repeats : Bool) (first : Node) :
    Nameless (bracedTail size expr target part site repeats first) := by
  refine .bind fun _ => .ite ?_ ?_
  · exact .bind fun _ => .bind fun _ => .bind fun _ => .pure nofun
  · exact .bind fun _ => .bind fun _ => .bind fun _ => .pure nofun

theorem braced_nameless (site : Nat) : Nameless (braced size expr target site) := by
  refine .bind fun _ => .ite (.pure nofun) (.bind fun _ => .ite ?_ ?_)
  · exact .bind fun _ => .pure nofun
  · refine .bind fun _ => .ite ?_ ?_
    · exact .bind fun first => bracedTail_nameless _ site _ first
    · refine .bind fun _ => .bind fun first => .bind fun _ => .ite ?_ ?_
      · exact .bind fun value => bracedTail_nameless _ site _ _
      · exact bracedTail_nameless _ site _ first

/-- A call, an index or an attribute is no name. -/
theorem trailer_nameless (object : Node) : Nameless (trailer size expr target object) := by
  refine .orElse ?_ (.orElse ?_ ?_)
  · exact .bind fun _ => .bind fun _ => .pure nofun
  · exact .bind fun _ => .pure nofun
  · exact .bind fun _ => .bind fun _ => .bind fun _ => .pure nofun

/-- An operand that is a name after all steps from it is one before. -/
theorem trailers_eq_name {fuel line : Nat} {object : Node} {id : String} {tokens rest : List Token}
    (eq : trailers size expr target fuel object tokens = some (.name line id, rest)) :
    object = .name line id := by
  induction fuel generalizing object tokens with
  | zero =>
      cases eq
      rfl
  | succ fuel ih =>
      rw [trailers] at eq
      cases step : trailer size expr target object tokens with
      | none =>
          rw [step] at eq
          cases eq
          rfl
      | some result =>
          obtain ⟨longer, middle⟩ := result
          rw [step] at eq
          obtain rfl := ih eq
          exact absurd step (trailer_nameless object tokens line id middle)

/-- **An atom that is a name is its first token**, for the others are marks or literals. -/
theorem atom_namesFirst : NamesFirst (atom size expr target) := by
  refine .peeked rfl fun token => ?_
  dsimp only
  split
  · intro tokens line id rest eq
    obtain ⟨_, left, -, made⟩ := bind_eq_some eq
    obtain ⟨same, -⟩ := Prod.mk.inj (Option.some.inj made)
    split at same
    · cases same
    · cases same
      rfl
  · exact .of_nameless (.bind fun _ => .pure nofun)
  · exact .of_nameless (.bind fun _ => .pure nofun)
  · exact .of_nameless (.bind fun _ => bracketed_nameless _ _)
  · exact .of_nameless (.bind fun _ => bracketed_nameless _ _)
  · exact .of_nameless (.bind fun _ => braced_nameless _)
  · exact .of_nameless strings_nameless

/-- So is a name without trailers. -/
theorem primary_namesFirst (fuel : Nat) : NamesFirst (primary size expr fuel) := by
  intro tokens line id rest eq
  cases fuel with
  | zero => cases eq
  | succ fuel =>
      obtain ⟨starred, middle, looked, later⟩ := bind_eq_some eq
      cases starred with
      | true =>
          have nameless : Nameless (do
              let node ← primary size expr fuel
              require node.isPlainTarget
              pure (.bundle .starred [node])) :=
            .bind fun _ => .bind fun _ => .pure nofun
          exact absurd later (nameless _ _ _ _)
      | false =>
          obtain ⟨node, left, read, steps⟩ := bind_eq_some later
          obtain rfl := trailers_eq_name steps
          obtain rfl := optional_rest looked
          exact atom_namesFirst _ line id left read

/-- A sign makes a group of a name. -/
theorem operand_namesFirst : NamesFirst (operand size expr) := by
  intro tokens line id rest eq
  obtain ⟨signs, middle, looked, later⟩ := bind_eq_some eq
  obtain ⟨node, left, read, made⟩ := bind_eq_some later
  obtain ⟨same, -⟩ := Prod.mk.inj (Option.some.inj made)
  cases signs with
  | nil =>
      obtain rfl : node = .name line id := same
      obtain rfl := many_rest looked
      exact primary_namesFirst size _ line id left read
  | cons sign signs => cases same

/-! ### Expressions -/

/-- An operation is a name only if it is a single operand. -/
theorem operation_namesFirst : NamesFirst (operation size expr) := by
  intro tokens line id rest eq
  obtain ⟨first, middle, read, later⟩ := bind_eq_some eq
  obtain ⟨more, left, -, made⟩ := bind_eq_some later
  obtain ⟨same, -⟩ := Prod.mk.inj (Option.some.inj made)
  cases grouped_eq_name same
  exact operand_namesFirst tokens line id middle read

theorem lambdaExpression_nameless : Nameless (lambdaExpression size expr) :=
  .bind fun _ => .bind fun _ => .bind fun _ => .pure nofun

theorem term_namesFirst : NamesFirst (term size expr) := by
  intro tokens line id rest eq
  obtain ⟨lambda, middle, looked, later⟩ := bind_eq_some eq
  obtain rfl := atWord?_rest looked
  cases lambda with
  | true => exact absurd later (lambdaExpression_nameless _ _ _ _)
  | false =>
      obtain ⟨negated, left, looked', last⟩ := bind_eq_some later
      cases negated with
      | true =>
          have nameless : Nameless (do let node ← expr; pure (.group [node])) :=
            .bind fun _ => .pure nofun
          exact absurd last (nameless _ _ _ _)
      | false =>
          obtain rfl := optional_rest looked'
          have walrus : Nameless (do
              let pair ← anyWord
              mark ":="
              let value ← expr
              pure (.walrus pair.1.line pair.2 value)) :=
            .bind fun _ => .bind fun _ => .bind fun _ => .pure nofun
          exact walrus.elseNamesFirst operation_namesFirst _ line id rest last

/-- **An expression that is a name is its first token**; the induction is on the depth. -/
theorem expression_namesFirst (size fuel : Nat) : NamesFirst (expression size fuel) := by
  intro tokens line id rest eq
  cases fuel with
  | zero => cases eq
  | succ fuel =>
      obtain ⟨first, middle, read, later⟩ := bind_eq_some eq
      obtain ⟨more, _, -, later⟩ := bind_eq_some later
      obtain ⟨condition, _, -, later⟩ := bind_eq_some later
      obtain ⟨target, _, -, made⟩ := bind_eq_some later
      obtain ⟨same, -⟩ := Prod.mk.inj (Option.some.inj made)
      obtain ⟨rfl, -⟩ := List.cons.inj (grouped_eq_name same)
      exact term_namesFirst tokens line id middle read

/-- **A name that is assigned to is on the line where the assignment starts.** -/
theorem bareList_namesFirst (first : NamesFirst expr) : NamesFirst (bareList size expr) := by
  intro tokens line id rest eq
  obtain ⟨⟨items, count⟩, left, read, made⟩ := bind_eq_some eq
  obtain ⟨same, -⟩ := Prod.mk.inj (Option.some.inj made)
  split at same
  · cases grouped_eq_name same
    obtain ⟨node, middle, taken, later⟩ := bind_eq_some read
    obtain ⟨more, _, -, later⟩ := bind_eq_some later
    obtain ⟨trailing, _, -, made⟩ := bind_eq_some later
    cases made
    exact first tokens line id middle taken
  · cases same

end

end CodeSurvey.Python
