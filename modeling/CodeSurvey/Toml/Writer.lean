import CodeSurvey.Toml.Value

/-!
# Writing TOML

The text of a document in the layout that is easiest to edit: short strings in the plainest quotes
that hold them, and arrays of two or more items with one item a line.

* `writeString` chooses the quotes.
* `writeSections` writes the plain entries of a table before the tables inside it, each under its
  own header.
-/

namespace CodeSurvey.Toml

/-! ### Strings -/

/-- Whether a character can only be written with an escape sequence. -/
def isControl (c : Char) : Bool :=
  c.toNat < 0x20 || c.toNat == 0x7F

/-- The longest run of a character. -/
def longestRun (wanted : Char) : List Char → Nat → Nat → Nat
  | [], current, best        => max current best
  | c :: rest, current, best =>
    if c == wanted then longestRun wanted rest (current + 1) best
    else longestRun wanted rest 0 (max current best)

/-- A digit in base 16. -/
def hexDigit (n : Nat) : Char :=
  if n < 10 then Char.ofNat ('0'.toNat + n) else Char.ofNat ('A'.toNat + n - 10)

/-- A character by its code. -/
def codeEscape (c : Char) : List Char :=
  let n := c.toNat
  ['\\', 'u', hexDigit (n / 4096 % 16), hexDigit (n / 256 % 16), hexDigit (n / 16 % 16),
   hexDigit (n % 16)]

/-- A character other than a quote in a string in double quotes. In a multi-line one, line ends
stand for themselves. -/
def escapeChar (isMulti : Bool) (c : Char) : List Char :=
  if c == '\\' then ['\\', '\\']
  else if c == '\t' then ['\\', 't']
  else if c == '\n' then if isMulti then ['\n'] else ['\\', 'n']
  else if c == '\r' then ['\\', 'r']
  else if c.toNat == 0x8 then ['\\', 'b']
  else if c.toNat == 0xC then ['\\', 'f']
  else if isControl c then codeEscape c
  else [c]

/-- The text of a string in double quotes. In a multi-line one, only every third quote of a run is
escaped; `quotes` counts the run so far. -/
def escapeText (isMulti : Bool) : List Char → Nat → List Char
  | [], _              => []
  | c :: rest, quotes =>
    if c == '"' then
      if isMulti && quotes < 2 then c :: escapeText isMulti rest (quotes + 1)
      else '\\' :: c :: escapeText isMulti rest 0
    else escapeChar isMulti c ++ escapeText isMulti rest 0

/-- A string in the plainest quotes that hold it. A tab is no reason against double quotes, but is
written as an escape sequence in them. -/
def writeString (content : String) : String :=
  let text := content.toList
  let hasLineEnd := text.contains '\n'
  let hasControl := text.any fun c => isControl c && c != '\n' && c != '\t'
  let hasEscape := hasControl || text.contains '\\'
  let doubles := longestRun '"' text 0 0
  let singles := longestRun '\'' text 0 0
  let opening := if hasLineEnd then "\n" else ""
  let basic := "\"" ++ String.ofList (escapeText false text 0) ++ "\""
  let multiBasic := "\"\"\"" ++ opening ++ String.ofList (escapeText true text 0) ++ "\"\"\""
  if !hasLineEnd && !hasEscape && doubles = 0 then basic
  else if !hasLineEnd && !hasControl && singles = 0 then "'" ++ content ++ "'"
  else if !hasEscape && doubles ≤ 2 then multiBasic
  else if !hasControl && singles ≤ 2 then "'''" ++ opening ++ content ++ "'''"
  else if hasLineEnd then multiBasic
  else basic

/-! ### Values -/

/-- A plain value. -/
def writeScalar : Value → String
  | .text content  => writeString content
  | .integer n     => toString n
  | .boolean true  => "true"
  | .boolean false => "false"
  | _              => ""

/-- A value on the right of an equals sign: a plain one or an array of those. Tables are written as
sections. -/
def writeValue : Value → String
  | .array []    => "[]"
  | .array [one] => "[" ++ writeScalar one ++ "]"
  | .array items => "[\n" ++ String.join (items.map fun i => s!"    {writeScalar i},\n") ++ "]"
  | value        => writeScalar value

/-- The entry of a key. -/
def writeEntry (key : String) (value : Value) : String :=
  s!"{key} = {writeValue value}\n"

/-- A section of a document: a header, which the first has not, and plain entries. -/
def writeSection (name : String) (entries : List (String × Value)) : String :=
  let header := if name = "" then "" else s!"[{name}]\n"
  header ++ String.join (entries.map fun (key, value) => writeEntry key value)

/-- The sections of a document, with an empty line between two. -/
def writeSections (sections : List (String × List (String × Value))) : String :=
  String.intercalate "\n" (sections.map fun (name, entries) => writeSection name entries)

end CodeSurvey.Toml
