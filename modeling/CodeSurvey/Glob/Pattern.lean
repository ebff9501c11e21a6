/-!
# Glob patterns

The syntax of file name patterns.

A `?` is one byte and a `*` any number of them. As a whole path component, `**` spans directories:
at the start, at the end or in between. A class `[a-z]` is one byte, `[!a-z]` any other, and
`{a,b}` is one of several patterns. A backslash takes the meaning from the character after it.

* `GlobToken` is a piece of a pattern.
* `Glob.parse` reads a pattern. A class or a brace without an end, a closing brace without a
  start, a range that runs backwards and a backslash at the end are no patterns.
-/

namespace CodeSurvey

/-- A piece of a pattern. -/
inductive GlobToken where
  /-- A character. -/
  | literal (c : Char)
  /-- One byte. -/
  | any
  /-- Any number of bytes. -/
  | star
  /-- Any directories at the start, or none. -/
  | leading
  /-- Anything below, at the end. -/
  | trailing
  /-- Any directories in between, or none. -/
  | between
  /-- One byte in some ranges, or outside all of them. -/
  | oneOf (isNegated : Bool) (ranges : List (Char × Char))
  /-- One of several patterns. -/
  | choice (options : List (List GlobToken))

namespace Glob

/-! ### Classes -/

/-- The rest of a class: its ranges, the last first; whether nothing has been read yet; and whether
a dash has announced the end of the last range. -/
def parseClass : List (Char × Char) → Bool → Bool → List Char →
    Option (List (Char × Char) × List Char)
  | _, _, _, []                              => none
  | ranges, isFirst, inRange, c :: rest =>
    if c = ']' ∧ !isFirst then
      some ((if inRange then ('-', '-') :: ranges else ranges).reverse, rest)
    else if c = '-' ∧ !isFirst ∧ !inRange then parseClass ranges false true rest
    else
      match inRange, ranges with
      | true, (low, _) :: others =>
        if c < low then none else parseClass ((low, c) :: others) false false rest
      | _, _ => parseClass ((c, c) :: ranges) false false rest

/-- A class after its opening bracket. -/
def classToken : List Char → Option (GlobToken × List Char)
  | '!' :: rest | '^' :: rest =>
    (parseClass [] true false rest).map fun (ranges, left) => (.oneOf true ranges, left)
  | rest =>
    (parseClass [] true false rest).map fun (ranges, left) => (.oneOf false ranges, left)

/-! ### Patterns -/

/-- The options of an open brace: those that are complete, and the tokens of the one being read.
All lists are reversed. -/
structure Group where
  options : List (List GlobToken)
  current : List GlobToken

/-- A pattern being read: the innermost brace and those around it. The outermost group is the
pattern itself. -/
structure State where
  top   : Group
  outer : List Group

namespace State

/-- Adds a token. -/
def push (state : State) (token : GlobToken) : State :=
  { state with top := { state.top with current := token :: state.top.current } }

/-- Replaces the last token; leading and trailing spans stay as they are. -/
def span (state : State) (token : GlobToken) : State :=
  match state.top.current with
  | .leading :: _  => state
  | .trailing :: _ => state
  | _ :: before    => { state with top := { state.top with current := token :: before } }
  | []             => state.push token

/-- Opens a brace. -/
def openGroup (state : State) : State :=
  ⟨⟨[], []⟩, state.top :: state.outer⟩

/-- Closes a brace. -/
def closeGroup (state : State) : Option State :=
  match state.outer with
  | []             => none
  | group :: outer =>
    let options := (state.top.current.reverse :: state.top.options).reverse
    some (State.push ⟨group, outer⟩ (.choice options))

/-- A comma: the end of an option, or itself outside braces. -/
def comma (state : State) : State :=
  if state.outer.isEmpty then state.push (.literal ',')
  else { state with top := ⟨state.top.current.reverse :: state.top.options, []⟩ }

end State

/-- Whether an option of a brace ends here. -/
def optionEnds (state : State) : List Char → Bool
  | []     => true
  | c :: _ => (c = ',' || c = '\x7d') && !state.outer.isEmpty

/-- Two stars, given the character before them and those after; what they mean, and what is left
to read with the character before that. -/
def doubleStar (before : Option Char) (rest : List Char) (state : State) :
    State × Option Char × List Char :=
  let plain := (state.push .star).push .star
  if state.top.current.isEmpty then
    match rest with
    | []          => (state.push .leading, some '*', [])
    | '/' :: more => (state.push .leading, some '/', more)
    | _           => (plain, some '*', rest)
  else if before ≠ some '/' ∧
      (state.outer.isEmpty ∨ (before ≠ some ',' ∧ before ≠ some '\x7b')) then
    (plain, some '*', rest)
  else if optionEnds state rest then (state.span .trailing, some '*', rest)
  else
    match rest with
    | '/' :: more => (state.span .between, some '/', more)
    | _           => (plain, some '*', rest)

/-- Reads a pattern from `before` on. The fuel bounds the tokens. -/
def parseFrom : Nat → Option Char → List Char → State → Option State
  | 0, _, _, _                              => none
  | _ + 1, _, [], state                     => some state
  | fuel + 1, before, c :: rest, state =>
    match c with
    | '?'    => parseFrom fuel (some c) rest (state.push .any)
    | '*'    =>
      match rest with
      | '*' :: more =>
        let (next, last, left) := doubleStar before more state
        parseFrom fuel last left next
      | _           => parseFrom fuel (some c) rest (state.push .star)
    | '['    => (classToken rest).bind fun (token, left) =>
      parseFrom fuel (some ']') left (state.push token)
    | '\x7b' => parseFrom fuel (some c) rest state.openGroup
    | '\x7d' => state.closeGroup.bind (parseFrom fuel (some c) rest)
    | ','    => parseFrom fuel (some c) rest state.comma
    | '\\'   =>
      match rest with
      | []            => none
      | literal :: more => parseFrom fuel (some literal) more (state.push (.literal literal))
    | _      => parseFrom fuel (some c) rest (state.push (.literal c))

/-- The tokens of a pattern. -/
def parse (pattern : String) : Option (List GlobToken) :=
  let text := pattern.toList
  match parseFrom (text.length + 1) none text ⟨⟨[], []⟩, []⟩ with
  | some ⟨top, []⟩ => some top.current.reverse
  | _              => none

end Glob

end CodeSurvey
