import CodeSurvey.Text.Lines
import CodeSurvey.Text.Identifier

/-!
# The shapes of tokens

How many characters each kind of token takes at the start of a text. Every measure is a function
of the characters alone, and none of them looks at what came before.

* `wordLength`, `numberLength` and `symbolAt` measure words, numbers and operators.
* `stringHead` reads the letters and quotes that open a string literal.
* `textRun` measures the text of a string literal up to its closing quote or, in a formatted one,
  up to the next replacement field.
-/

namespace CodeSurvey.Python

/-! ### Words and numbers -/

/-- The length of the identifier at the start of a text, or zero. -/
def wordLength : List Char → Nat
  | c :: rest =>
    if Text.startsIdentifier c then 1 + (rest.takeWhile Text.continuesIdentifier).length else 0
  | []        => 0

/-- The length of a run of digits in which single underscores may follow digits. -/
def digitsLength (digit : Char → Bool) : Bool → List Char → Nat
  | _, []                => 0
  | afterDigit, c :: rest =>
    if digit c then 1 + digitsLength digit true rest
    else if c == '_' && afterDigit then 1 + digitsLength digit false rest
    else 0

/-- The length of groups of digits, each with at most one underscore before it. -/
def groupsLength (digit : Char → Bool) : List Char → Nat
  | '_' :: c :: rest => if digit c then 2 + groupsLength digit rest else 0
  | c :: rest        => if digit c then 1 + groupsLength digit rest else 0
  | []               => 0

/-- The length of a one-letter suffix. -/
def suffixLength (letters : List Char) : List Char → Nat
  | c :: _ => if letters.contains c then 1 else 0
  | []     => 0

/-- The length of an exponent. -/
def exponentLength : List Char → Nat
  | e :: rest =>
    if e == 'e' || e == 'E' then
      let sign := suffixLength ['+', '-'] rest
      let digits := digitsLength Char.isDigit false (rest.drop sign)
      if digits = 0 then 0 else 1 + sign + digits
    else 0
  | [] => 0

/-- Whether a character is a hexadecimal digit. -/
def isHexDigit (c : Char) : Bool :=
  c.isDigit || ('a' ≤ c && c ≤ 'f') || ('A' ≤ c && c ≤ 'F')

/-- The digits of the number base that a letter after a zero announces. -/
def baseDigits (c : Char) : Option (Char → Bool) :=
  match c with
  | 'x' | 'X' => some isHexDigit
  | 'o' | 'O' => some fun d => '0' ≤ d && d ≤ '7'
  | 'b' | 'B' => some fun d => d == '0' || d == '1'
  | _         => none

/-- The length of a number with a base letter, or zero. -/
def basedLength : List Char → Nat
  | '0' :: c :: rest =>
    match baseDigits c with
    | none       => 0
    | some digit =>
      let digits := groupsLength digit rest
      if digits = 0 then 0 else 2 + digits + suffixLength ['l', 'L'] (rest.drop digits)
  | _ => 0

/-- The length of a decimal number, with its fraction, exponent and suffix. -/
def decimalLength (text : List Char) : Nat :=
  let whole := digitsLength Char.isDigit false text
  match text.drop whole with
  | '.' :: rest =>
    let part := digitsLength Char.isDigit false rest
    if whole = 0 && part = 0 then 0
    else
      let exponent := exponentLength (rest.drop part)
      let size := whole + 1 + part + exponent
      size + suffixLength ['j', 'J'] (text.drop size)
  | rest =>
    if whole = 0 then 0
    else
      let exponent := exponentLength rest
      let suffixes := if exponent = 0 then ['l', 'L', 'j', 'J'] else ['j', 'J']
      whole + exponent + suffixLength suffixes (rest.drop exponent)

/-- The length of the number at the start of a text, or zero. -/
def numberLength (text : List Char) : Nat :=
  let based := basedLength text
  if based = 0 then decimalLength text else based

/-! ### Operators -/

/-- The operators and delimiters, the longer before the shorter. -/
def symbols : List String :=
  ["**=", "//=", ">>=", "<<=", "...",
   "**", "//", ">>", "<<", "<=", ">=", "==", "!=", "<>", "->", ":=", "+=", "-=", "*=", "/=", "%=",
   "@=", "&=", "|=", "^=",
   "+", "-", "*", "/", "%", "@", "&", "|", "^", "~", "<", ">", "=", "(", ")", "[", "]",
   "\x7b", "\x7d", ",", ":", ";", "."]

/-- The operator at the start of a text. -/
def symbolAt (text : List Char) : Option String :=
  symbols.find? fun symbol => symbol.toList.isPrefixOf text

/-! ### String literals -/

/-- How a string literal is written. -/
structure StringStyle where
  quote  : Char
  triple : Bool
  raw    : Bool
  bytes  : Bool
  format : Bool

/-- Whether a letter may stand before the opening quote. -/
def isStringLetter (c : Char) : Bool :=
  ['f', 'F', 'r', 'R', 'b', 'B', 'u', 'U'].contains c

/-- The style of the string literal at the start of a text, and the length of its opening. -/
def stringHead (text : List Char) : Option (StringStyle × Nat) :=
  let letters := text.takeWhile isStringLetter
  match text.drop letters.length with
  | quote :: rest =>
    if quote == '"' || quote == '\'' || quote == '`' then
      let triple := quote != '`' && [quote, quote].isPrefixOf rest
      let style : StringStyle :=
        { quote
          triple
          raw    := letters.any fun c => c == 'r' || c == 'R'
          bytes  := letters.any fun c => c == 'b' || c == 'B'
          format := letters.any fun c => c == 'f' || c == 'F' }
      some (style, letters.length + if triple then 3 else 1)
    else none
  | [] => none

/-- The closing quotes of a style. -/
def StringStyle.closing (style : StringStyle) : List Char :=
  if style.triple then [style.quote, style.quote, style.quote] else [style.quote]

/-- How many characters after a backslash complete an escape sequence. -/
def escapeLength : List Char → Nat
  | 'x' :: rest           => if 2 ≤ ((rest.take 2).takeWhile isHexDigit).length then 3 else 0
  | 'u' :: rest           => if 4 ≤ ((rest.take 4).takeWhile isHexDigit).length then 5 else 0
  | 'U' :: rest           => if 8 ≤ ((rest.take 8).takeWhile isHexDigit).length then 9 else 0
  | 'N' :: '\x7b' :: rest =>
    let name := rest.takeWhile (· ≠ '\x7d')
    if name.isEmpty || (rest.drop name.length).isEmpty then 0 else name.length + 3
  | '\r' :: '\n' :: _     => 2
  | c :: rest             =>
    if c.isDigit then 1 + ((rest.take 2).takeWhile Char.isDigit).length
    else if ['\n', '\'', '"', 'a', 'b', 'f', 'r', 'n', 't', 'v', '\\'].contains c then 1
    else 0
  | []                    => 0

/-- What follows a backslash in a raw literal: how many characters go with it. -/
def rawEscapeLength (style : StringStyle) (text : List Char) : Nat :=
  let quoted := suffixLength [style.quote, '\\'] text
  match text.drop quoted with
  | '\r' :: '\n' :: _ => quoted + 2
  | '\r' :: _         => quoted + 1
  | '\n' :: _         => quoted + 1
  | _                 => quoted

/-- Where a run of literal text stops. -/
inductive TextStop where
  /-- At the closing quote. -/
  | closing
  /-- At the brace of a replacement field. -/
  | hole
deriving DecidableEq

/-- The length of the text of a string literal up to where it stops, added to `read`; none if it
never stops properly. `filled` says that text has been read since the opening quote, the last
escape sequence or the last replacement field; only before that may a line end stand in a literal
with single quotes. The fuel bounds the characters read. -/
def textRun (style : StringStyle) : Nat → Bool → Nat → List Char → Option (Nat × TextStop)
  | 0, _, _, _               => none
  | _ + 1, _, _, []          => none
  | fuel + 1, filled, read, c :: rest =>
    if style.format && c == '\x7b' then
      match rest with
      | '\x7b' :: later => textRun style fuel false (read + 2) later
      | _               => some (read, .hole)
    else if style.format && c == '\x7d' then
      match rest with
      | '\x7d' :: later => textRun style fuel false (read + 2) later
      | _               => none
    else if c == '\\' then
      if style.raw then
        let n := rawEscapeLength style rest
        textRun style fuel filled (read + 1 + n) (rest.drop n)
      else if style.bytes && (suffixLength ['N', 'u', 'U'] rest == 1) then
        textRun style fuel true (read + 3) (rest.drop 2)
      else
        let n := escapeLength rest
        textRun style fuel false (read + 1 + n) (rest.drop n)
    else if style.closing.isPrefixOf (c :: rest) then some (read, .closing)
    else if c == '\x00' then none
    else if c == '\n' && filled && !style.triple then none
    else textRun style fuel true (read + 1) rest

end CodeSurvey.Python
