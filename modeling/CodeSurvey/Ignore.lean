import CodeSurvey.Glob.Matching
import CodeSurvey.Text.Lines
import CodeSurvey.Text.Utf8

/-!
# Ignore files

The rules of a `.gitignore` file at a project's root.

The last rule that matches a path decides. A rule that starts with `!` takes a path back in, one
that ends in a slash is for directories only, and one with a slash elsewhere holds from the root.
A path is also ignored if a directory above it is.

* `IgnoreRule.parse` reads a line.
* `readIgnoreFile` reads a file, up to the first line that is no text.
* `isIgnored` applies the rules to a path and those above it.
-/

namespace CodeSurvey

/-- A rule: its pattern, whether it takes paths back in, and whether it is for directories only. -/
structure IgnoreRule where
  tokens        : List GlobToken
  isWhitelist   : Bool
  directoryOnly : Bool

namespace IgnoreRule

/-- A line without its sign: the rest, whether it takes paths back in, and whether it is anchored
at the root. -/
def splitSign (line : List Char) : List Char × Bool × Bool :=
  let anchor (rest : List Char) (isWhitelist : Bool) : List Char × Bool × Bool :=
    match rest with
    | '/' :: inner => (inner, isWhitelist, true)
    | _            => (rest, isWhitelist, false)
  match line with
  | '\\' :: '!' :: rest => ('!' :: rest, false, false)
  | '\\' :: '#' :: rest => ('#' :: rest, false, false)
  | '!' :: rest         => anchor rest true
  | _                   => anchor line false

/-- A line without its final slash, and whether it had one. A backslash before the slash goes with
it. -/
def splitSlash (line : List Char) : List Char × Bool :=
  match line.reverse with
  | '/' :: '\\' :: rest => (rest.reverse, true)
  | '/' :: rest         => (rest.reverse, true)
  | _                   => (line, false)

/-- The pattern of a line: one without a slash holds in every directory, and one that ends in `/**`
is for what is inside a directory and not for the directory. -/
def patternOf (line : List Char) (isAnchored : Bool) : List Char :=
  let start := ['*', '*', '/']
  let anywhere :=
    if isAnchored || line.contains '/' || line == ['*', '*'] then line else start ++ line
  if ['/', '*', '*'].isSuffixOf anywhere then anywhere ++ ['/', '*'] else anywhere

/-- The rule of a line, if it is one. -/
def parse (line : String) : Option IgnoreRule :=
  let whole := line.toList
  let text := if ['\\', ' '].isSuffixOf whole then whole else Text.dropBlanksEnd whole
  if whole.head? = some '#' ∨ text.isEmpty then none
  else
    let (body, isWhitelist, isAnchored) := splitSign text
    let (pattern, directoryOnly) := splitSlash body
    (Glob.parse (String.ofList (patternOf pattern isAnchored))).map fun tokens =>
      { tokens, isWhitelist, directoryOnly }

/-- Whether the rule is about a path. -/
def applies (rule : IgnoreRule) (path : String) (isDirectory : Bool) : Bool :=
  (!rule.directoryOnly || isDirectory) && Glob.matchesText true rule.tokens path

end IgnoreRule

/-! ### Files -/

/-- The bytes of a file cut at its line ends; a final line end starts no further line. -/
def byteLines (bytes : List Nat) : List (List Nat) :=
  let pieces := bytes.splitOn 10
  if pieces.getLast? = some [] then pieces.dropLast else pieces

/-- The lines of a file up to the first one that is no text, without the carriage return at their
end. -/
def textLines : List (List Nat) → List String
  | []            => []
  | line :: later =>
    let bare := if line.getLast? = some 13 then line.dropLast else line
    match Text.decode (ByteArray.mk (bare.map UInt8.ofNat).toArray) with
    | .error _ => []
    | .ok text => text :: textLines later

/-- A text without the marks at its start. -/
def dropMarks (text : String) : String :=
  String.ofList (text.toList.dropWhile fun c => c.toNat == 0xFEFF)

/-- The rules of a file. -/
def readIgnoreFile (content : ByteArray) : List IgnoreRule :=
  match textLines (byteLines (content.toList.map UInt8.toNat)) with
  | []            => []
  | first :: rest => (dropMarks first :: rest).filterMap IgnoreRule.parse

/-! ### Paths -/

/-- What the rules say about one path: whether it is ignored, if they say anything. -/
def ignoreVerdict (rules : List IgnoreRule) (path : String) (isDirectory : Bool) : Option Bool :=
  (rules.reverse.find? fun rule => rule.applies path isDirectory).map fun rule => !rule.isWhitelist

/-- Whether a path below the root is ignored: by what the rules say about it, or about the nearest
directory above it that they say anything about. The names of the path are given from its end, and
the root is above all. -/
def isIgnored (rules : List IgnoreRule) (isDirectory : Bool) : List String → Bool
  | []            => (ignoreVerdict rules "" isDirectory).getD false
  | name :: above =>
    match ignoreVerdict rules (String.intercalate "/" (above.reverse ++ [name])) isDirectory with
    | some verdict => verdict
    | none         => isIgnored rules true above

end CodeSurvey
