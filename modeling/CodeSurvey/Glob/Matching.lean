import CodeSurvey.Glob.Pattern

/-!
# Matching globs

Which texts a pattern matches. Matching is on the bytes of the text.

A piece of a pattern may take more or less of a text, so it is described by all the rests that it
may leave. A pattern matches a text if it may leave nothing.

* `GlobToken.rests` are the rests of one piece, and `Glob.rests` those of a pattern.
* `Glob.matches` is the match. `isSplit` says that single bytes and stars do not reach across a
  slash.
-/

namespace CodeSurvey

/-- The bytes of a text, as numbers. -/
def bytesOf (text : String) : List Nat :=
  text.toUTF8.toList.map UInt8.toNat

namespace Glob

/-- The code of a slash. -/
def slash : Nat := 47

/-- Keeps one rest of every length, since rests of one text are equal if they are equally long. -/
def distinct : List (List Nat) → List (List Nat)
  | []           => []
  | rest :: more =>
    let others := distinct more
    if others.any fun other => other.length == rest.length then others else rest :: others

/-- The rests of a text after any number of bytes. -/
def restsOfStar (isSplit : Bool) : List Nat → List (List Nat)
  | []           => [[]]
  | byte :: text =>
    if isSplit && byte == slash then [byte :: text]
    else (byte :: text) :: restsOfStar isSplit text

/-- The rests of a text after each of its slashes. -/
def restsAfterSlashes : List Nat → List (List Nat)
  | []           => []
  | byte :: text => if byte = slash then text :: restsAfterSlashes text else restsAfterSlashes text

/-- The byte ranges of a range of characters. A character of several bytes counts byte by byte, so
that only the bytes next to the dash form a range. -/
def byteRanges (low high : Char) : List (Nat × Nat) :=
  let first := bytesOf low.toString
  let last := bytesOf high.toString
  if low = high then first.map fun b => (b, b)
  else
    first.dropLast.map (fun b => (b, b)) ++ [(first.getLastD 0, last.headD 0)] ++
      last.tail.map fun b => (b, b)

/-- Whether a byte is in a class. -/
def inClass (isNegated : Bool) (ranges : List (Char × Char)) (byte : Nat) : Bool :=
  let found := (ranges.flatMap fun (low, high) => byteRanges low high).any fun (low, high) =>
    low ≤ byte && byte ≤ high
  found != isNegated

/-- The rests of a text after a list of bytes. -/
def restsOfBytes : List Nat → List Nat → List (List Nat)
  | [], text                   => [text]
  | _ :: _, []                 => []
  | wanted :: more, byte :: text => if wanted = byte then restsOfBytes more text else []

mutual

/-- Whether a piece can only be empty: braces with nothing in them. -/
def isVacuous : GlobToken → Bool
  | .choice options => areVacuous options
  | _               => false

/-- Whether all pieces can only be empty. -/
def isVacuousList : List GlobToken → Bool
  | []            => true
  | token :: more => isVacuous token && isVacuousList more

/-- Whether all options can only be empty. -/
def areVacuous : List (List GlobToken) → Bool
  | []             => true
  | option :: more => isVacuousList option && areVacuous more

end

mutual

/-- The rests that a piece of a pattern may leave of a text. Options that can only be empty count
only if there are no others. -/
def tokenRests (isSplit : Bool) : GlobToken → List Nat → List (List Nat)
  | .literal c, text             => restsOfBytes (bytesOf c.toString) text
  | .any, []                     => []
  | .any, byte :: text           => if isSplit && byte == slash then [] else [text]
  | .star, text                  => restsOfStar isSplit text
  | .leading, text               => text :: restsAfterSlashes text
  | .trailing, []                => []
  | .trailing, byte :: text      => if byte = slash then restsOfStar false text else []
  | .between, []                 => []
  | .between, byte :: text       => if byte = slash then text :: restsAfterSlashes text else []
  | .oneOf .., []                => []
  | .oneOf isNegated ranges, byte :: text =>
    if inClass isNegated ranges byte then [text] else []
  | .choice options, text        =>
    if areVacuous options then [text] else optionRests isSplit options text

/-- The rests that a list of pieces may leave. -/
def rests (isSplit : Bool) : List GlobToken → List Nat → List (List Nat)
  | [], text            => [text]
  | token :: more, text => distinct ((tokenRests isSplit token text).flatMap (rests isSplit more))

/-- The rests that one of several options may leave. -/
def optionRests (isSplit : Bool) : List (List GlobToken) → List Nat → List (List Nat)
  | [], _               => []
  | option :: more, text =>
    let own := if isVacuousList option then [] else rests isSplit option text
    own ++ optionRests isSplit more text

end

/-- Whether a pattern matches a text. A pattern that is only `**` matches everything. -/
def matchesText (isSplit : Bool) (tokens : List GlobToken) (text : String) : Bool :=
  match tokens with
  | [.leading] => true
  | _          => (rests isSplit tokens (bytesOf text)).any List.isEmpty

end Glob

/-- The patterns of a list that can be read. -/
def readableGlobs (patterns : List String) : List (List GlobToken) :=
  patterns.filterMap Glob.parse

/-- Whether one of several patterns matches a text; stars reach across slashes. -/
def matchesAny (patterns : List (List GlobToken)) (text : String) : Bool :=
  patterns.any fun tokens => Glob.matchesText false tokens text

end CodeSurvey
