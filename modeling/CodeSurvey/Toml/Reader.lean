import CodeSurvey.Toml.Scalar
import CodeSurvey.Toml.Table

/-!
# Reading TOML

From the text of a document to its table, or nothing if the text is not TOML 1.0.

* `valueStep` reads a value, given the reader of those inside it.
* `expressionLine` reads one line: a header, a key with its value, or neither.
* `read` reads a document.
-/

namespace CodeSurvey.Toml

open Scanner

/-! ### Keys -/

/-- How deep values may be nested, and how many parts a key may have. -/
def greatestDepth : Nat := 79

/-- A character of a key without quotes. -/
def isBareKey (c : Char) : Bool :=
  c.isAlphanum || c == '_' || c == '-'

/-- One part of a key. -/
def simpleKey (fuel : Nat) : Scanner String :=
  (do let text ← takeWhile1 isBareKey; pure (String.ofList text)) <|>
  basicString fuel <|> literalString

/-- A dot and the part of a key after it. -/
def laterKey (fuel : Nat) : Scanner String := do
  blanks
  char '.'
  blanks
  simpleKey fuel

/-- A key: the parts before its last, and its last. -/
def key (fuel : Nat) : Scanner (List String × String) := do
  let first ← simpleKey fuel
  let more ← many (laterKey fuel) fuel
  let parts := first :: more
  require (parts.length ≤ greatestDepth)
  pure (parts.dropLast, parts.getLastD first)

/-! ### Values -/

section

variable (fuel : Nat) (value : Scanner Value)

/-- A key, an equals sign and a value. -/
def keyValue : Scanner ((List String × String) × Value) := do
  let name ← key fuel
  blanks
  char '='
  blanks
  let content ← value
  pure (name, content)

/-- An item of an array with the comma behind it, which only the last may lack. -/
def arrayItem : Scanner Value := do
  let item ← value
  blankLines fuel
  let isLast := !(← char? ',')
  blankLines fuel
  if isLast then
    let following ← peek
    require (following = some ']')
  pure item

/-- An array. -/
def array : Scanner Value := do
  char '['
  blankLines fuel
  let items ← many (arrayItem fuel value) fuel
  char ']'
  pure (.array items)

/-- The table of keys and values, if none of them is defined twice. -/
def inlineEntries : List ((List String × String) × Value) → Slots → Option Slots
  | [], slots                              => some slots
  | ((path, name), content) :: rest, slots =>
    (slots.insert path name content).bind (inlineEntries rest)

/-- An inline table. -/
def inlineTable : Scanner Value := do
  char '\x7b'
  blanks
  let pairs ← (do
      let first ← keyValue fuel value
      let more ← many (do
          blanks
          char ','
          blanks
          keyValue fuel value) fuel
      pure (first :: more)) <|> pure []
  blanks
  char '\x7d'
  match inlineEntries pairs [] with
  | some slots => pure (.table (finishEntries slots))
  | none       => failure

/-- A value that holds no other. -/
def scalar : Scanner Value := do
  match ← peek with
  | some '"' | some '\'' =>
    let text ← string fuel
    pure (.text text)
  | some 't' => do literal "true".toList; pure (.boolean true)
  | some 'f' => do literal "false".toList; pure (.boolean false)
  | some _   => number fuel
  | none     => failure

/-- A value, given the reader of those inside it. -/
def valueStep : Scanner Value := do
  match ← peek with
  | some '['    => array fuel value
  | some '\x7b' => inlineTable fuel value
  | _           => scalar fuel

end

/-- A value. The depth bounds the nesting. -/
def value (fuel : Nat) : Nat → Scanner Value
  | 0, text         => scalar fuel text
  | depth + 1, text => valueStep fuel (value fuel depth) text

/-! ### Documents -/

/-- What a line says. -/
inductive Line where
  | table (path : List String) (key : String)
  | item (path : List String) (key : String)
  | pair (path : List String) (key : String) (value : Value)
  | nothing

/-- A header. -/
def header (fuel : Nat) : Scanner Line := do
  char '['
  let isItem ← char? '['
  blanks
  let (path, name) ← key fuel
  blanks
  char ']'
  if isItem then
    char ']'
    pure (.item path name)
  else pure (.table path name)

/-- One line without its end. -/
def expressionLine (fuel : Nat) : Scanner Line := do
  blanks
  let line ← match ← peek with
    | some '['                                     => header fuel
    | none | some '#' | some '\n' | some '\r'      => pure .nothing
    | some _                                       => do
      let ((path, name), content) ← keyValue fuel (value fuel greatestDepth)
      pure (.pair path name content)
  blanks
  comment
  pure line

/-- The lines of a document. The fuel bounds them. -/
def documentLines (size : Nat) : Nat → Scanner (List Line)
  | 0, _           => none
  | fuel + 1, text =>
    match expressionLine size text with
    | none                => none
    | some (line, [])     => some ([line], [])
    | some (line, rest)   =>
      match lineEnd rest with
      | none            => none
      | some (_, after) =>
        (documentLines size fuel after).map fun (more, left) => (line :: more, left)

/-- Adds lines to a document; `current` is the path of the table that the last header opened. -/
def assemble : List Line → List String → Slots → Option Slots
  | [], _, slots              => some slots
  | line :: rest, current, slots =>
    match line with
    | .nothing           => assemble rest current slots
    | .table path key    => (slots.openTable path key).bind (assemble rest (path ++ [key]))
    | .item path key     => (slots.openItem path key).bind (assemble rest (path ++ [key]))
    | .pair path key val => (slots.insertAt current path key val).bind (assemble rest current)

/-- A text without the mark that may stand at its start. -/
def dropMark : List Char → List Char
  | c :: rest => if c.toNat = 0xFEFF then rest else c :: rest
  | []        => []

/-- The table of a document. -/
def read (document : String) : Option Value :=
  let text := dropMark document.toList
  let size := text.length + 1
  match documentLines size size text with
  | some (lines, _) => (assemble lines [] []).map fun slots => .table (finishEntries slots)
  | none            => none

end CodeSurvey.Toml
