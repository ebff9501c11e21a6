import CodeSurvey.Text.Scanner
import CodeSurvey.Toml.Value

/-!
# TOML scalars

Strings, numbers, booleans and dates as they are written in TOML 1.0.

* `basicString`, `literalString` and their multi-line forms read text.
* `number` reads integers, which have to fit in 64 bits, and decimals.
* `moment` reads dates and times that exist.
-/

namespace CodeSurvey.Toml

open Scanner

/-! ### Characters -/

/-- A blank within a line. -/
def isBlank (c : Char) : Bool :=
  c == ' ' || c == '\t'

/-- A character that may stand in a comment or a literal string. -/
def isPlainText (c : Char) : Bool :=
  c == '\t' || (0x20 ≤ c.toNat && c.toNat ≠ 0x7F)

/-- Takes blanks. -/
def blanks : Scanner Unit := do
  let _ ← takeWhile isBlank

/-- Takes a line end. -/
def lineEnd : Scanner Unit :=
  char '\n' <|> literal ['\r', '\n']

/-- Takes a comment if there is one. -/
def comment : Scanner Unit := do
  if ← char? '#' then
    let _ ← takeWhile isPlainText

/-- Takes the rest of a line without content, and the blanks of the next. -/
def blankLine : Scanner Unit := do
  comment
  lineEnd
  blanks

/-- Takes blanks, comments and line ends. The fuel bounds them. -/
def blankLines (fuel : Nat) : Scanner Unit := do
  blanks
  let _ ← many blankLine fuel
  comment

/-! ### Strings -/

/-- The value of a hexadecimal digit. -/
def hexValue (c : Char) : Nat :=
  if c.isDigit then c.toNat - '0'.toNat
  else if 'a' ≤ c ∧ c ≤ 'f' then c.toNat - 'a'.toNat + 10
  else c.toNat - 'A'.toNat + 10

/-- Whether a character is a hexadecimal digit. -/
def isHexDigit (c : Char) : Bool :=
  c.isDigit || ('a' ≤ c && c ≤ 'f') || ('A' ≤ c && c ≤ 'F')

/-- A character by its code in `n` hexadecimal digits. -/
def codedChar (n : Nat) : Scanner Char := do
  let digits ← takeExactly n isHexDigit
  let code := digits.foldl (fun total c => total * 16 + hexValue c) 0
  require (code < 0xD800 || (0xE000 ≤ code && code < 0x110000))
  pure (Char.ofNat code)

/-- The character that an escape sequence stands for, after its backslash. -/
def escapedChar : Scanner Char := do
  let c ← satisfy fun _ => true
  match c with
  | 'b'  => pure (Char.ofNat 0x8)
  | 't'  => pure '\t'
  | 'n'  => pure '\n'
  | 'f'  => pure (Char.ofNat 0xC)
  | 'r'  => pure '\r'
  | '"'  => pure '"'
  | '\\' => pure '\\'
  | 'u'  => codedChar 4
  | 'U'  => codedChar 8
  | _    => failure

/-- A character in double quotes, plain or escaped. -/
def basicPiece : Scanner Char := do
  if ← char? '\\' then escapedChar
  else satisfy fun c => isPlainText c && c != '"'

/-- A string in double quotes on one line. -/
def basicString (fuel : Nat) : Scanner String := do
  char '"'
  let (text, _) ← manyUntil basicPiece (char '"') fuel
  pure (String.ofList text)

/-- A string in single quotes on one line. -/
def literalString : Scanner String := do
  char '\''
  let text ← takeWhile fun c => isPlainText c && c != '\''
  char '\''
  pure (String.ofList text)

/-- The end of a multi-line string: three quotes, with up to two more before them that belong to
the text. -/
def multiEnd (quote : Char) : Scanner (List Char) :=
  (do literal (List.replicate 5 quote); pure [quote, quote]) <|>
  (do literal (List.replicate 4 quote); pure [quote]) <|>
  (do literal (List.replicate 3 quote); pure [])

/-- A line end in a multi-line string, which is always read as `\n`. -/
def textLineEnd : Scanner (List Char) := do
  lineEnd
  pure ['\n']

/-- A backslash at the end of a line, with the blanks and line ends after it. -/
def lineJoin (fuel : Nat) : Scanner (List Char) := do
  char '\\'
  blanks
  lineEnd
  let _ ← many (lineEnd <|> (do let _ ← satisfy isBlank)) fuel
  pure []

/-- A piece of a string in three double quotes: a line end, one that is skipped, or a character. -/
def multiBasicPiece (fuel : Nat) : Scanner (List Char) :=
  textLineEnd <|> lineJoin fuel <|>
  (do
    char '\\'
    let c ← escapedChar
    pure [c]) <|>
  (do
    let c ← satisfy fun c => isPlainText c && c != '\\'
    pure [c])

/-- A piece of a string in three single quotes. -/
def multiLiteralPiece : Scanner (List Char) :=
  textLineEnd <|> (do
    let c ← satisfy isPlainText
    pure [c])

/-- A string in three quotes, given its pieces. A line end right at its start is no part of it. -/
def multiString (quote : Char) (piece : Scanner (List Char)) (fuel : Nat) : Scanner String := do
  literal (List.replicate 3 quote)
  lineEnd <|> pure ()
  let (pieces, last) ← manyUntil piece (multiEnd quote) fuel
  pure (String.ofList (pieces.flatten ++ last))

/-- A string in three double quotes. -/
def multiBasicString (fuel : Nat) : Scanner String :=
  multiString '"' (multiBasicPiece fuel) fuel

/-- A string in three single quotes. -/
def multiLiteralString (fuel : Nat) : Scanner String :=
  multiString '\'' multiLiteralPiece fuel

/-- A string of any form. -/
def string (fuel : Nat) : Scanner String := fun text =>
  if ['"', '"', '"'].isPrefixOf text then multiBasicString fuel text
  else if ['\'', '\'', '\''].isPrefixOf text then multiLiteralString fuel text
  else (basicString fuel <|> literalString) text

/-! ### Numbers -/

/-- A digit after others, with an underscore before it or none. -/
def laterDigit (digit : Char → Bool) : Scanner Char := do
  let _ ← char? '_'
  satisfy digit

/-- Digits with single underscores between them, without the underscores. -/
def digits (digit : Char → Bool) (fuel : Nat) : Scanner (List Char) := do
  let first ← satisfy digit
  let more ← many (laterDigit digit) fuel
  pure (first :: more)

/-- The number that digits spell in a base. -/
def numberOf (base : Nat) (text : List Char) : Nat :=
  text.foldl (fun total c => total * base + hexValue c) 0

/-- The greatest 64-bit integer. -/
def greatestInteger : Int := 9223372036854775807

/-- An integer that fits in 64 bits. -/
def fitting (n : Int) : Scanner Int := do
  require (decide (-greatestInteger - 1 ≤ n ∧ n ≤ greatestInteger))
  pure n

/-- An integer in base 16, 8 or 2, which has no sign. -/
def basedInteger (fuel : Nat) : Scanner Int := do
  char '0'
  let base ← satisfy fun c => c == 'x' || c == 'o' || c == 'b'
  let (size, digit) : Nat × (Char → Bool) :=
    if base == 'x' then (16, isHexDigit)
    else if base == 'o' then (8, fun c => '0' ≤ c && c ≤ '7')
    else (2, fun c => c == '0' || c == '1')
  let found ← digits digit fuel
  fitting (numberOf size found)

/-- A sign, if there is one; true for minus. -/
def sign : Scanner Bool := do
  if ← char? '-' then pure true
  else
    let _ ← char? '+'
    pure false

/-- The digits of a decimal integer, which has no zero in front. -/
def wholeDigits (fuel : Nat) : Scanner (List Char) := do
  let found ← digits Char.isDigit fuel
  require (found.length = 1 || found.head? ≠ some '0')
  pure found

/-- The fraction of a decimal. -/
def fraction (fuel : Nat) : Scanner (List Char) := do
  char '.'
  digits Char.isDigit fuel

/-- The exponent of a decimal. -/
def exponent (fuel : Nat) : Scanner Int := do
  let _ ← satisfy fun c => c == 'e' || c == 'E'
  let isNegative ← sign
  let found ← digits Char.isDigit fuel
  let size : Int := numberOf 10 found
  pure (if isNegative then -size else size)

/-- Whether a decimal with these digits and this power of ten is too great for a double. -/
def isInfinite (mantissa : Nat) (power : Int) : Bool :=
  let size : Int := (toString mantissa).length + power
  if mantissa = 0 ∨ size < 300 then false
  else if 320 < size then true
  else
    let bound := Nat.pow 2 1024 - Nat.pow 2 970
    if 0 ≤ power then decide (bound ≤ mantissa * Nat.pow 10 power.toNat)
    else decide (bound * Nat.pow 10 (-power).toNat ≤ mantissa)

/-- A decimal. -/
def decimal (fuel : Nat) : Scanner Unit := do
  let isNegative ← sign
  (literal ['i', 'n', 'f'] <|> literal ['n', 'a', 'n']) <|> (do
    let whole ← wholeDigits fuel
    let part ← fraction fuel <|> pure []
    let power ← (do let p ← exponent fuel; pure (some p)) <|> pure none
    require (!part.isEmpty || power.isSome)
    let mantissa := numberOf 10 (whole ++ part)
    require (isNegative || !isInfinite mantissa (power.getD 0 - part.length)))

/-- A decimal integer. -/
def wholeInteger (fuel : Nat) : Scanner Int := do
  let isNegative ← sign
  let found ← wholeDigits fuel
  let size : Int := numberOf 10 found
  fitting (if isNegative then -size else size)

/-! ### Dates -/

/-- A number in exactly `n` decimal digits, within bounds. -/
def fixedNumber (n least greatest : Nat) : Scanner Nat := do
  let found ← takeExactly n Char.isDigit
  let value := numberOf 10 found
  require (least ≤ value && value ≤ greatest)
  pure value

/-- How many days a month has. -/
def daysIn (year month : Nat) : Nat :=
  if month = 2 then
    if year % 4 = 0 ∧ (year % 100 ≠ 0 ∨ year % 400 = 0) then 29 else 28
  else if [4, 6, 9, 11].contains month then 30
  else 31

/-- A date. -/
def date : Scanner Unit := do
  let year ← fixedNumber 4 0 9999
  char '-'
  let month ← fixedNumber 2 1 12
  char '-'
  let _ ← fixedNumber 2 1 (daysIn year month)

/-- A time of day. -/
def time : Scanner Unit := do
  let _ ← fixedNumber 2 0 23
  char ':'
  let _ ← fixedNumber 2 0 59
  char ':'
  let _ ← fixedNumber 2 0 60
  (do
    char '.'
    let _ ← takeWhile1 Char.isDigit) <|> pure ()

/-- The distance of a time from universal time. -/
def offset : Scanner Unit :=
  (do let _ ← satisfy fun c => c == 'Z' || c == 'z') <|>
  (do
    let _ ← satisfy fun c => c == '+' || c == '-'
    let _ ← fixedNumber 2 0 23
    char ':'
    let _ ← fixedNumber 2 0 59)

/-- A date, a time, or both. -/
def moment : Scanner Unit :=
  (do
    date
    (do
      let _ ← satisfy fun c => c == 'T' || c == 't' || c == ' '
      time
      offset <|> pure ()) <|> pure ()) <|>
  time

/-- A date or a number. -/
def number (fuel : Nat) : Scanner Value :=
  (do moment; pure .moment) <|>
  (do decimal fuel; pure .decimal) <|>
  (do let n ← basedInteger fuel; pure (.integer n)) <|>
  (do let n ← wholeInteger fuel; pure (.integer n))

end CodeSurvey.Toml
