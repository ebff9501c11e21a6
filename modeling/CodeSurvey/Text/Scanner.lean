/-!
# Scanning characters

A scanner takes characters off the front of a text and gives a result, or fails and takes none.

* `Scanner.char`, `Scanner.literal` and `Scanner.satisfy` take given characters.
* `Scanner.many` repeats a scanner, at most as often as its fuel allows.
-/

namespace CodeSurvey

/-- A scanner over a text. -/
abbrev Scanner (α : Type) : Type := StateT (List Char) Option α

namespace Scanner

/-- The first character, which stays. -/
def peek : Scanner (Option Char) :=
  fun text => some (text.head?, text)

/-- Succeeds at the end of the text. -/
def finish : Scanner Unit
  | []     => some ((), [])
  | _ :: _ => none

/-- Fails unless the condition holds. -/
def require (condition : Bool) : Scanner Unit :=
  if condition then pure () else failure

/-- Takes one character of a class. -/
def satisfy (class? : Char → Bool) : Scanner Char
  | c :: rest => if class? c then some (c, rest) else none
  | []        => none

/-- Takes a given character. -/
def char (wanted : Char) : Scanner Unit := do
  let _ ← satisfy (· == wanted)

/-- Takes a given character if it is there, and says whether it was. -/
def char? (wanted : Char) : Scanner Bool
  | []        => some (false, [])
  | c :: rest => if c == wanted then some (true, rest) else some (false, c :: rest)

/-- Takes given characters. -/
def literal (wanted : List Char) : Scanner Unit :=
  fun text => if wanted.isPrefixOf text then some ((), text.drop wanted.length) else none

/-- Takes as many characters of a class as there are. -/
def takeWhile (class? : Char → Bool) : Scanner (List Char) :=
  fun text => some (text.takeWhile class?, text.dropWhile class?)

/-- Takes at least one character of a class. -/
def takeWhile1 (class? : Char → Bool) : Scanner (List Char) := do
  let found ← takeWhile class?
  require !found.isEmpty
  pure found

/-- Takes exactly `n` characters of a class. -/
def takeExactly (n : Nat) (class? : Char → Bool) : Scanner (List Char) := fun text =>
  let found := text.take n
  if found.length = n ∧ found.all class? then some (found, text.drop n) else none

/-- Repeats a scanner until it fails. -/
def many {α : Type} (p : Scanner α) : Nat → Scanner (List α)
  | 0, text        => some ([], text)
  | fuel + 1, text =>
    match p text with
    | none           => some ([], text)
    | some (x, rest) => (many p fuel rest).map fun (xs, left) => (x :: xs, left)

/-- Repeats a scanner from the front until an ending succeeds. -/
def manyUntil {α β : Type} (p : Scanner α) (ending : Scanner β) : Nat → Scanner (List α × β)
  | 0, _           => none
  | fuel + 1, text =>
    match ending text with
    | some (last, rest) => some (([], last), rest)
    | none              =>
      match p text with
      | none           => none
      | some (x, rest) =>
        (manyUntil p ending fuel rest).map fun ((xs, last), left) => ((x :: xs, last), left)

/-- Runs a scanner over a whole text. -/
def run {α : Type} (p : Scanner α) (text : String) : Option α :=
  match p text.toList with
  | some (result, []) => some result
  | _                 => none

end Scanner

end CodeSurvey
