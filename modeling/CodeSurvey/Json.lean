import CodeSurvey.Decimal

/-!
# JSON

Values of JSON and their text over several lines.

* `Json.pretty` writes a value: two blanks a level, and nothing inside empty brackets.
-/

namespace CodeSurvey

/-- A value. A record keeps its fields in order. -/
inductive Json where
  | null
  | boolean (value : Bool)
  | count (value : Nat)
  | decimal (value : Double)
  | text (value : String)
  | array (items : List Json)
  | record (fields : List (String × Json))

namespace Json

/-- A value that may be missing. -/
def ofOption {α : Type} (f : α → Json) : Option α → Json
  | none   => null
  | some a => f a

/-- An array of texts. -/
def texts (items : List String) : Json :=
  array (items.map text)

/-! ### Text -/

/-- A digit of base sixteen. -/
def hexDigit (n : Nat) : Char :=
  if n < 10 then Char.ofNat (48 + n) else Char.ofNat (87 + n)

/-- A character inside quotes. -/
def escapeChar (c : Char) : List Char :=
  if c = '"' then ['\\', '"']
  else if c = '\\' then ['\\', '\\']
  else if c.toNat = 8 then ['\\', 'b']
  else if c.toNat = 9 then ['\\', 't']
  else if c.toNat = 10 then ['\\', 'n']
  else if c.toNat = 12 then ['\\', 'f']
  else if c.toNat = 13 then ['\\', 'r']
  else if c.toNat < 32 then
    ['\\', 'u', '0', '0', hexDigit (c.toNat / 16), hexDigit (c.toNat % 16)]
  else [c]

/-- A text in quotes. -/
def quote (text : String) : String :=
  "\"" ++ String.ofList (text.toList.flatMap escapeChar) ++ "\""

/-- The start of a line at a depth. -/
def newline (depth : Nat) : String :=
  "\n" ++ String.ofList (List.replicate (2 * depth) ' ')

mutual

/-- The text of a value at a depth. -/
def render (depth : Nat) : Json → String
  | null            => "null"
  | boolean value   => if value then "true" else "false"
  | count value     => toString value
  | decimal value   => value.shortest
  | text value      => quote value
  | array []        => "[]"
  | array items     =>
    "[" ++ String.intercalate "," (renderItems (depth + 1) items) ++ newline depth ++ "]"
  | record []       => "\x7b\x7d"
  | record fields   =>
    "\x7b" ++ String.intercalate "," (renderFields (depth + 1) fields) ++ newline depth ++ "\x7d"

/-- The texts of the items of an array, each on a line. -/
def renderItems (depth : Nat) : List Json → List String
  | []           => []
  | item :: rest => (newline depth ++ render depth item) :: renderItems depth rest

/-- The texts of the fields of a record, each on a line. -/
def renderFields (depth : Nat) : List (String × Json) → List String
  | []                   => []
  | (name, value) :: rest =>
    (newline depth ++ quote name ++ ": " ++ render depth value) :: renderFields depth rest

end

/-- The text of a value over several lines. -/
def pretty (value : Json) : String :=
  render 0 value

end Json

end CodeSurvey
