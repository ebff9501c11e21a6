import CodeSurvey.Python.Token
import CodeSurvey.Python.Lexeme

/-!
# The scanner

From source text to logical lines.

A logical line ends at a line end outside brackets and string literals. Blank lines and lines with
only a comment are no logical lines. Scanning stops after the first line with something in it that
is no token, because nothing behind it is ever looked at.

* `Cursor` is a place in the source.
* `lexLine` reads the tokens of one logical line; a stack of `Mode`s keeps track of brackets,
  formatted literals and their replacement fields.
* `lex` reads them all.
-/

namespace CodeSurvey.Python

/-- A place in the source: the text from there on, its line and its offset. -/
structure Cursor where
  rest   : List Char
  line   : Nat
  offset : Nat

namespace Cursor

/-- The start of a source. -/
def start (source : List Char) : Cursor :=
  ⟨source, 1, 0⟩

/-- The place `n` characters further on. -/
def skip : Nat → Cursor → Cursor
  | 0, cursor                         => cursor
  | _ + 1, ⟨[], line, offset⟩         => ⟨[], line, offset⟩
  | n + 1, ⟨c :: rest, line, offset⟩  =>
    skip n ⟨rest, if c == '\n' then line + 1 else line, offset + 1⟩

end Cursor

/-- What the scanner is inside of. -/
inductive Mode where
  /-- Plain code, within so many brackets. -/
  | code (depth : Nat)
  /-- The text of a formatted literal. -/
  | text (style : StringStyle)
  /-- The expression of a replacement field, within so many brackets and before the colons of so
  many lambdas. -/
  | hole (depth lambdas : Nat)
  /-- The format specification of a replacement field. -/
  | spec

/-! ### Blanks -/

/-- Blanks that separate tokens and never end a line. -/
def isSpace (c : Char) : Bool :=
  c == ' ' || c == '\t' || c == '\r' || c.toNat == 0xB || c.toNat == 0xC ||
    c.toNat == 0x200B || c.toNat == 0x2060 || c.toNat == 0xFEFF

/-- The length of a backslash that joins two lines or ends the source, with its line end. -/
def joinLength : List Char → Nat
  | ['\\']                    => 1
  | ['\\', '\r']              => 2
  | '\\' :: '\n' :: _         => 2
  | '\\' :: '\r' :: '\n' :: _ => 3
  | _                         => 0

/-- The length of a comment. -/
def commentLength : List Char → Nat
  | '#' :: rest => 1 + (rest.takeWhile (· ≠ '\n')).length
  | _           => 0

/-- The indentation of the next logical line, and where it starts. A tab counts for eight
columns; a carriage return or a form feed starts over. The fuel bounds the characters read. -/
def indentation : Nat → Nat → Cursor → Nat × Cursor
  | 0, indent, cursor        => (indent, cursor)
  | fuel + 1, indent, cursor =>
    match cursor.rest with
    | []     => (0, cursor)
    | c :: _ =>
      if c == ' ' then indentation fuel (indent + 1) (cursor.skip 1)
      else if c == '\t' then indentation fuel (indent + 8) (cursor.skip 1)
      else if c == '\n' || c == '\r' || c.toNat == 0xC then indentation fuel 0 (cursor.skip 1)
      else if c == '#' then indentation fuel indent (cursor.skip (commentLength cursor.rest))
      else
        let n := joinLength cursor.rest
        if n = 0 then (indent, cursor) else indentation fuel indent (cursor.skip n)

/-! ### One line -/

/-- The mode after an operator: brackets change the depth, and a colon ends the head of a lambda. -/
def bracketMode (symbol : String) : Mode → Mode
  | .code depth =>
    if ["(", "[", "\x7b"].contains symbol then .code (depth + 1)
    else if [")", "]", "\x7d"].contains symbol then .code (depth - 1)
    else .code depth
  | .hole depth lambdas =>
    if ["(", "[", "\x7b"].contains symbol then .hole (depth + 1) lambdas
    else if [")", "]", "\x7d"].contains symbol then .hole (depth - 1) lambdas
    else if symbol == ":" && depth == 0 then .hole depth (lambdas - 1)
    else .hole depth lambdas
  | mode => mode

/-- The mode after a word. -/
def wordMode (word : String) : Mode → Mode
  | .hole 0 lambdas => if word == "lambda" then .hole 0 (lambdas + 1) else .hole 0 lambdas
  | mode            => mode

/-- Whether a line end is a blank here. -/
def Mode.spansLines : Mode → Bool
  | .code depth => depth != 0
  | _           => true

/-- Whether the tokens before a `:=` in a replacement field are one name at its start; anywhere
else the colon starts the format specification. -/
def namesField : List Token → Bool
  | ⟨.word _, _, _, _⟩ :: ⟨.holeOpen, _, _, _⟩ :: _ => true
  | _                                               => false

/-- What the scanner meets in code. -/
inductive Step where
  /-- Blanks, a comment or joined lines. -/
  | blank (length : Nat)
  /-- A token of so many characters, and the modes after it. -/
  | token (lexeme : Lexeme) (length : Nat) (modes : List Mode)
  /-- The end of the logical line. -/
  | finish (length : Nat)
  /-- No token. -/
  | fault

/-- The token of a string literal. A formatted one only opens. -/
def stringStep (fuel : Nat) (style : StringStyle) (opening : Nat) (text : List Char)
    (modes : List Mode) : Step :=
  if style.format then .token .formatOpen opening (.text style :: modes)
  else
    let body := text.drop opening
    match textRun style fuel false 0 body with
    | some (n, _) =>
      let value := if style.quote == '`' then none else some (String.ofList (body.take n))
      .token (.literal value) (opening + n + style.closing.length) modes
    | none => .fault

/-- The token of an operator. At the outer level of a replacement field, a closing brace ends the
field and a colon starts its format specification. -/
def symbolStep (before : List Token) (text : List Char) (mode : Mode) (modes : List Mode) : Step :=
  match mode, symbolAt text, text with
  | .hole 0 _, some "\x7d", _ => .token .holeClose 1 modes
  | .hole 0 0, some ":", _    => .token .holeSpec 1 (.spec :: mode :: modes)
  | .hole 0 0, some ":=", _   =>
    if namesField before then .token (.mark ":=") 2 (mode :: modes)
    else .token .holeSpec 1 (.spec :: mode :: modes)
  | .hole 0 _, none, '!' :: c :: _ =>
    if 'a' ≤ c && c ≤ 'z' then .token .conversion 2 (mode :: modes) else .fault
  | _, some symbol, _ => .token (.mark symbol) symbol.length (bracketMode symbol mode :: modes)
  | _, none, _        => .fault

/-- One step in code, inside or outside a replacement field. -/
def codeStep (fuel : Nat) (before : List Token) (text : List Char) (mode : Mode)
    (modes : List Mode) : Step :=
  match text with
  | []     => if mode matches .hole .. then .fault else .finish 0
  | c :: _ =>
    if isSpace c then .blank 1
    else if c == '\n' then if mode.spansLines then .blank 1 else .finish 1
    else if c == '#' then .blank (commentLength text)
    else if c == '\\' then
      let n := joinLength text
      if n = 0 then .fault else .blank n
    else
      match stringHead text with
      | some (style, opening) => stringStep fuel style opening text (mode :: modes)
      | none =>
        let word := wordLength text
        let number := numberLength text
        if word ≠ 0 then
          let spelled := String.ofList (text.take word)
          .token (.word spelled) word (wordMode spelled mode :: modes)
        else if number ≠ 0 then .token .number number (mode :: modes)
        else symbolStep before text mode modes

/-- One step in the text of a formatted literal. -/
def textStep (fuel : Nat) (style : StringStyle) (text : List Char) (modes : List Mode) : Step :=
  match textRun style fuel false 0 text with
  | some (n, .closing) => .token .formatClose (n + style.closing.length) modes
  | some (n, .hole)    => .token .holeOpen (n + 1) (.hole 0 0 :: .text style :: modes)
  | none               => .fault

/-- One step in a format specification. Its end is the end of the field. -/
def specStep (text : List Char) (modes : List Mode) : Step :=
  let plain := (text.takeWhile fun c => c ≠ '\x7b' ∧ c ≠ '\x7d').length
  match text.drop plain with
  | '\x7b' :: _ => .token .holeOpen (plain + 1) (.hole 0 0 :: .spec :: modes)
  | _ :: _      => .token .holeClose (plain + 1) (modes.drop 1)
  | []          => .fault

/-- One step of the scanner. The fuel bounds the characters of a string literal. -/
def step (fuel : Nat) (before : List Token) (text : List Char) : List Mode → Step
  | .text style :: modes => textStep fuel style text modes
  | .spec :: modes       => specStep text modes
  | mode :: modes        => codeStep fuel before text mode modes
  | []                   => .fault

/-- The tokens of a line of which `before` have been read, the last first; where the line ends;
and whether it is broken off. `gap` is the blank text since the last token, reversed. The fuel
bounds the steps and the characters of each. -/
def lexLine : Nat → List Mode → List Char → List Token → Cursor → List Token × Cursor × Bool
  | 0, _, _, before, cursor                 => (before.reverse, cursor, true)
  | fuel + 1, modes, gap, before, cursor =>
    match step fuel before cursor.rest modes with
    | .fault       => (before.reverse, cursor, true)
    | .finish n    => (before.reverse, cursor.skip n, false)
    | .blank n     =>
      lexLine fuel modes ((cursor.rest.take n).reverse ++ gap) before (cursor.skip n)
    | .token lexeme n modes =>
      let token := ⟨lexeme, cursor.line, cursor.offset, String.ofList gap.reverse⟩
      lexLine fuel modes [] (token :: before) (cursor.skip n)

/-! ### All lines -/

/-- The logical lines from a place on, up to the first broken one. `size` bounds the characters of
a line, and the fuel the lines. -/
def lexLines (size : Nat) : Nat → Cursor → List LogicalLine
  | 0, _             => []
  | fuel + 1, cursor =>
    let (indent, first) := indentation size 0 cursor
    if first.rest.isEmpty then []
    else
      let (tokens, next, broken) := lexLine size [.code 0] [] [] first
      let line := (tokens.head?.map Token.line).getD first.line
      if broken then [⟨indent, line, tokens, true⟩]
      else if tokens.isEmpty then lexLines size fuel next
      else ⟨indent, line, tokens, false⟩ :: lexLines size fuel next

/-- The logical lines of a source text. -/
def lex (source : String) : List LogicalLine :=
  let text := source.toList
  lexLines (text.length + 3) (text.length + 1) (.start text)

end CodeSurvey.Python
