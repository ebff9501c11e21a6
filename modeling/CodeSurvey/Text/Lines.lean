/-!
# Text as lines

How a text falls into lines, and the blanks that trimming removes.

* `Text.lines` is the list of lines without their terminators. A line ends in `\n`, and a `\r`
  right before that `\n` belongs to the terminator; a final `\n` starts no further line.
* `Text.unlines` puts lines together.
* `Text.trim` and `Text.trimEnd` drop Unicode white space.
-/

namespace CodeSurvey.Text

/-- The text before the carriage return that ends a reversed line, if one does. -/
def dropReturn : List Char → List Char
  | '\r' :: rest => rest
  | line         => line

/-- The lines of a text of which `line`, reversed, has been read since the last line end. -/
def linesAfter (line : List Char) : List Char → List (List Char)
  | []           => if line.isEmpty then [] else [line.reverse]
  | '\n' :: rest => (dropReturn line).reverse :: linesAfter [] rest
  | c :: rest    => linesAfter (c :: line) rest

/-- The lines of a text, each without its terminator. -/
def lines (text : String) : List String :=
  (linesAfter [] text.toList).map String.ofList

/-- How many lines a text has. -/
def lineCount (text : String) : Nat :=
  (linesAfter [] text.toList).length

/-- The text of lines, each with its terminator. -/
def unlines (lines : List String) : String :=
  String.join (lines.map fun line => line ++ "\n")

/-! ### Blanks -/

/-- The characters with the Unicode property `White_Space`. -/
def isBlank (c : Char) : Bool :=
  let n := c.toNat
  (0x9 ≤ n && n ≤ 0xD) || n == 0x20 || n == 0x85 || n == 0xA0 || n == 0x1680 ||
    (0x2000 ≤ n && n ≤ 0x200A) || n == 0x2028 || n == 0x2029 || n == 0x202F || n == 0x205F ||
    n == 0x3000

/-- The characters of a text without the blanks at its end. -/
def dropBlanksEnd (text : List Char) : List Char :=
  (text.reverse.dropWhile isBlank).reverse

/-- A text without the blanks at its end. -/
def trimEnd (text : String) : String :=
  String.ofList (dropBlanksEnd text.toList)

/-- A text without the blanks at its ends. -/
def trim (text : String) : String :=
  String.ofList (dropBlanksEnd (text.toList.dropWhile isBlank))

/-- Whether a text holds nothing but blanks. -/
def isBlankText (text : String) : Bool :=
  text.toList.all isBlank

/-! ### Pieces -/

/-- Whether a text begins with another. -/
def startsWith (text start : String) : Bool :=
  start.toList.isPrefixOf text.toList

/-- Whether a text ends with another. -/
def endsWith (text ending : String) : Bool :=
  ending.toList.isSuffixOf text.toList

/-- The rest of a list after `start`, when it begins with `start`. -/
def dropStart? {α : Type} [DecidableEq α] : List α → List α → Option (List α)
  | [], text                   => some text
  | _ :: _, []                 => none
  | s :: start, c :: text      => if s = c then dropStart? start text else none

/-- Whether `part` stands somewhere in `text`. -/
def hasInfix {α : Type} [DecidableEq α] (part : List α) : List α → Bool
  | []        => part.isEmpty
  | c :: text => (dropStart? part (c :: text)).isSome || hasInfix part text

end CodeSurvey.Text
