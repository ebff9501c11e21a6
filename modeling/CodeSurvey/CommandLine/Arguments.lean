import CodeSurvey.Text.Lines

/-!
# Arguments

What the words after the program's name ask for.

An option has a long name and perhaps a letter. Letters can be run together, and a value can follow
as the next word or be attached. A value that is a word of its own does not start with a hyphen,
unless it is nothing else. An option is given at most once.

* `lexArgument` takes one word apart.
* `Request.parse` reads all of them.
-/

namespace CodeSurvey

/-- Which survey to make: the directory, and the configuration file if it is not the usual one. -/
structure Target where
  path   : String
  config : Option String
deriving DecidableEq

/-- What the program can be asked to do. -/
inductive Command where
  | update (target : Target)
  | check (target : Target)
  | cleancode (target : Target) (least : Option Nat) (json : Bool)
  | config (output : Option String)
deriving DecidableEq

/-- What the arguments ask for. -/
inductive Request where
  | run (command : Command)
  | version
  | help
  /-- The arguments make no sense. -/
  | refused
deriving DecidableEq

/-! ### Words -/

/-- An option that can be given. -/
structure OptionSpec where
  name       : String
  letter     : Option Char
  takesValue : Bool

/-- A piece of an argument. -/
inductive Piece where
  | given (name : String) (value : Option String)
  /-- An option whose value is the next word. -/
  | waiting (name : String)
  | plain (word : String)
  /-- The mark after which there are no options. -/
  | escape
  | unknown
deriving DecidableEq

section

variable (specs : List OptionSpec)

/-- The pieces of letters run together. -/
def lexLetters : List Char → List Piece
  | []             => []
  | letter :: rest =>
    match specs.find? fun spec => spec.letter = some letter with
    | none      => [.unknown]
    | some spec =>
      if !spec.takesValue then .given spec.name none :: lexLetters rest
      else
        match rest with
        | []           => [.waiting spec.name]
        | '=' :: value => [.given spec.name (some (String.ofList value))]
        | value        => [.given spec.name (some (String.ofList value))]

/-- The piece of a long option. -/
def lexLong (body : List Char) : Piece :=
  let name := body.takeWhile (· ≠ '=')
  match specs.find? fun spec => spec.name = String.ofList name with
  | none      => .unknown
  | some spec =>
    match body.drop name.length with
    | []         => if spec.takesValue then .waiting spec.name else .given spec.name none
    | _ :: value =>
      if spec.takesValue then .given spec.name (some (String.ofList value)) else .unknown

/-- The pieces of a word. -/
def lexArgument (word : String) : List Piece :=
  match word.toList with
  | ['-']             => [.plain word]
  | ['-', '-']        => [.escape]
  | '-' :: '-' :: body => [lexLong specs body]
  | '-' :: letters    => lexLetters specs letters
  | _                 => [.plain word]

/-- Whether a word of its own can be a value. -/
def isValueWord (word : String) : Bool :=
  word = "-" || !Text.startsWith word "-"

/-- The options among words, with their values; there is nothing else among them. `waiting` is an
option that the next word is the value of. -/
def readOptions (waiting : Option String) : List String → Option (List (String × Option String))
  | []           => if waiting.isNone then some [] else none
  | word :: rest =>
    match waiting with
    | some name =>
      if isValueWord word then (readOptions none rest).map ((name, some word) :: ·) else none
    | none      =>
      match lexArgument specs word with
      | [.escape] => if rest.isEmpty then some [] else none
      | pieces    =>
        let settled := pieces.mapM fun
          | .given name value => some [(name, value)]
          | .waiting _        => some []
          | _                 => none
        let next := pieces.getLast?.bind fun
          | .waiting name => some name
          | _             => none
        settled.bind fun options => (readOptions next rest).map (options.flatten ++ ·)

/-- The options among words, each at most once. -/
def readOptionsOnce (words : List String) : Option (List (String × Option String)) :=
  (readOptions specs none words).bind fun options =>
    if (options.map Prod.fst).Nodup then some options else none

end

/-! ### Values -/

/-- Digits as a number. -/
def digitsValue (digits : List Char) : Option Nat :=
  if digits.isEmpty ∨ !digits.all Char.isDigit then none
  else some (digits.foldl (fun n c => n * 10 + (c.toNat - 48)) 0)

/-- A confidence from 0 to 100, which may have a sign. -/
def readConfidence (text : String) : Option Nat :=
  let value :=
    match text.toList with
    | '+' :: digits => digitsValue digits
    | '-' :: digits => (digitsValue digits).bind fun n => if n = 0 then some 0 else none
    | digits        => digitsValue digits
  value.bind fun n => if n ≤ 100 then some n else none

/-- The value of an option that is a path, if it is given; it is not empty. -/
def pathOption (options : List (String × Option String)) (name : String) :
    Option (Option String) :=
  match options.lookup name with
  | none                => some none
  | some none           => none
  | some (some "")      => none
  | some (some value)   => some (some value)

/-! ### Requests -/

/-- The options that are everywhere. -/
def commonOptions : List OptionSpec :=
  [⟨"verbose", some 'v', false⟩, ⟨"help", some 'h', false⟩]

/-- The options that go before a command. -/
def topOptions : List OptionSpec :=
  commonOptions ++ [⟨"version", some 'V', false⟩]

/-- The options of a survey. -/
def targetOptions : List OptionSpec :=
  commonOptions ++ [⟨"path", some 'p', true⟩, ⟨"config", some 'c', true⟩]

/-- The options of each command. -/
def commandOptions : String → Option (List OptionSpec)
  | "update" | "check" => some targetOptions
  | "cleancode"        =>
    some (targetOptions ++ [⟨"min-confidence", none, true⟩, ⟨"json", none, false⟩])
  | "config"           => some (commonOptions ++ [⟨"output", some 'o', true⟩])
  | "help"             => some commonOptions
  | _                  => none

/-- The command with a name and options, if their values are right. -/
def buildCommand (name : String) (options : List (String × Option String)) : Option Command := do
  let path ← pathOption options "path"
  let config ← pathOption options "config"
  let target : Target := ⟨path.getD ".", config⟩
  match name with
  | "update"    => some (.update target)
  | "check"     => some (.check target)
  | "cleancode" =>
    let json := (options.lookup "json").isSome
    match options.lookup "min-confidence" with
    | some (some value) => (readConfidence value).map fun n => .cleancode target (some n) json
    | _                 => some (.cleancode target none json)
  | "config"    => (pathOption options "output").map .config
  | _           => none

/-- The request of a command's name and the words after it. -/
def commandRequest (name : String) (words : List String) : Request :=
  match (commandOptions name).bind fun specs => readOptionsOnce specs words with
  | none         => .refused
  | some options =>
    if name = "help" ∨ (options.lookup "help").isSome then .help
    else
      match buildCommand name options with
      | some command => .run command
      | none         => .refused

/-- What the pieces of a word before the command ask for, if they settle the request. `given` are
the options before them. -/
def settleTop (given : List String) : List Piece → Except Request (List String)
  | []                      => .ok given
  | .given name _ :: pieces =>
    if name = "version" then .error .version
    else if name = "help" then .error .help
    else if given.contains name then .error .refused
    else settleTop (name :: given) pieces
  | _ :: _                  => .error .refused

/-- The request of words, after some options before the command. -/
def requestAfter (given : List String) : List String → Request
  | []           => .refused
  | word :: rest =>
    match lexArgument topOptions word with
    | [.plain name] => commandRequest name rest
    | pieces        =>
      match settleTop given pieces with
      | .error request => request
      | .ok now        => requestAfter now rest

/-- The request of the words after the program's name. -/
def Request.parse (words : List String) : Request :=
  requestAfter [] words

end CodeSurvey
