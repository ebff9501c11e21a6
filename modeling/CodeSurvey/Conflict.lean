import CodeSurvey.Count
import CodeSurvey.DeadCode.Score
import CodeSurvey.Diagnostic
import CodeSurvey.Graph.Build
import CodeSurvey.Text.LowerCase

/-!
# Naming conflicts

Directories and modules whose names differ only in case, punctuation or a plural `s`.

* `normalizeName` is what names are compared by.
* `conflictCandidates` lists the directories and modules of a project.
* `detectConflicts` groups candidates by name and names by their normal form. The result depends
  only on the candidates, not on their order.
-/

namespace CodeSurvey

/-- Whether a character is a lower-case ASCII letter or a digit. -/
def isPlain (c : Char) : Bool :=
  ('a' ≤ c && c ≤ 'z') || ('0' ≤ c && c ≤ '9')

/-- A text without one final `s`. -/
def singular (text : List Char) : List Char :=
  if text.getLast? = some 's' then text.dropLast else text

/-- A name in lower case, without a plural `s` and without everything that is not a letter or a
digit. -/
def normalizeName (name : String) : String :=
  String.ofList ((singular (Text.lower name).toList).filter isPlain)

/-! ### Candidates -/

/-- A directory or a module: its name, its path as spelled, how many files it holds, how many
references arrive from outside it, and whether it has any content. -/
structure Candidate where
  name      : String
  path      : String
  fileCount : Nat
  inbound   : Nat
  nonEmpty  : Bool
deriving DecidableEq

section

variable (files : List SourceFile) (graph : ReferenceGraph)

/-- How many references lead into a region from outside it. -/
def inboundFromOutside (inside : Path → Bool) : Nat :=
  graph.references.countP fun r =>
    r.resolution = .resolved &&
      match r.target with
      | some target => inside target.file && !inside r.file
      | none        => false

/-- Every directory on the way to a file, in order. -/
def directoriesOf : List Path :=
  sortedSet Path.order (files.flatMap fun file => file.path.ancestors)

/-- The candidate of a directory. -/
def directoryCandidate (directory : Path) : Option Candidate :=
  directory.fileName.map fun name =>
    let inside := files.filter fun file => file.path.isUnder directory
    { name
      path      := directory.text
      fileCount := inside.length
      inbound   := inboundFromOutside graph (·.isUnder directory)
      nonEmpty  := inside.any fun file => decide (0 < file.size) }

/-- The candidate of a module; names with two underscores at either end are none. -/
def moduleCandidate (file : SourceFile) : Option Candidate :=
  file.path.stem.bind fun stem =>
    if Text.startsWith stem "__" && Text.endsWith stem "__" then none
    else some
      { name      := stem
        path      := file.path.text
        fileCount := 1
        inbound   := inboundFromOutside graph (· = file.path)
        nonEmpty  := decide (0 < file.size) }

/-- The directories and modules of a project. -/
def conflictCandidates : List Candidate :=
  (directoriesOf files).filterMap (directoryCandidate files graph) ++
    files.filterMap (moduleCandidate graph)

end

/-! ### Conflicts -/

/-- How much a conflict matters: it is critical if every member has content and is used. -/
inductive Severity where
  | critical
  | informational
deriving DecidableEq

/-- The name of a severity. -/
def Severity.label : Severity → String
  | critical      => "critical"
  | informational => "informational"

/-- All candidates of one name. -/
structure ConflictMember where
  name      : String
  paths     : List String
  fileCount : Nat
  inbound   : Nat
  nonEmpty  : Bool
deriving DecidableEq

/-- Names with one normal form. -/
structure Conflict where
  key              : String
  members          : List ConflictMember
  suggestedPrimary : Option String
  severity         : Severity
  isAmbiguous      : Bool
  issue            : String
deriving DecidableEq

namespace Conflict

/-- The names of the members. -/
def memberNames (conflict : Conflict) : List String :=
  conflict.members.map ConflictMember.name

/-- The diagnostic of a conflict with more than two members. -/
def diagnostic (conflict : Conflict) : Option Diagnostic :=
  if conflict.isAmbiguous then some (.ofFailure (.ambiguous conflict.key conflict.memberNames))
  else none

end Conflict

/-- The order of spelled paths. -/
def orderSpelled (a b : String) : Ordering :=
  (Path.ofText a).order (Path.ofText b)

/-- All candidates of a name as one member, unless a count leaves its range. -/
def memberOf (candidates : List Candidate) (name : String) : Option ConflictMember := do
  let own := candidates.filter fun c => c.name = name
  let fileCount ← checkedCount ((own.map Candidate.fileCount).foldr (· + ·) 0)
  let inbound ← checkedCount ((own.map Candidate.inbound).foldr (· + ·) 0)
  pure
    { name
      paths    := sortedSet orderSpelled (own.map Candidate.path)
      fileCount, inbound
      nonEmpty := own.any Candidate.nonEmpty }

/-- Which of two members is the better name to keep: the one with more files and references, the
shorter one, the first. -/
def preferMember (a b : ConflictMember) : Ordering :=
  (compare (b.fileCount + b.inbound) (a.fileCount + a.inbound)).then
    (byLengthThenText a.name b.name)

/-- The member to keep, unless a count leaves its range. With more than two members there is
none. -/
def suggestPrimary (members : List ConflictMember) : Option (Option String) :=
  if 3 ≤ members.length then some none
  else
    (members.mapM fun m => checkedCount (m.fileCount + m.inbound)).map fun _ =>
      (leastBy preferMember members).map ConflictMember.name

/-- How a member is listed. -/
def listMember (member : ConflictMember) : String :=
  let paths := member.paths.map fun path => (Path.ofText path).slash
  s!"{member.name} (" ++ String.intercalate ", " paths ++ ")"

/-- The conflict of two or more members, unless a count leaves its range. -/
def buildConflict (key : String) (members : List ConflictMember) : Option Conflict :=
  (suggestPrimary members).map fun suggestedPrimary =>
    let listed := String.intercalate " vs " (members.map listMember)
    { key, members, suggestedPrimary
      severity    :=
        if members.all fun m => m.nonEmpty && decide (0 < m.inbound) then .critical
        else .informational
      isAmbiguous := decide (3 ≤ members.length)
      issue       :=
        match suggestedPrimary with
        | some primary => s!"similar names {listed}; consolidate into '{primary}'"
        | none         => s!"{members.length} names normalize to '{key}': {listed}" }

/-- The conflicts among candidates, unless a count leaves its range. -/
def detectConflicts (candidates : List Candidate) : Option (List Conflict) := do
  let members ← (sortedSet compare (candidates.map Candidate.name)).mapM (memberOf candidates)
  let keyed := members.filterMap fun m =>
    let key := normalizeName m.name
    if key = "" then none else some (key, m)
  let groups := (sortedSet compare (keyed.map Prod.fst)).map fun key =>
    (key, (keyed.filter fun p => p.1 = key).map Prod.snd)
  (groups.filter fun (_, members) => decide (2 ≤ members.length)).mapM fun (key, members) =>
    buildConflict key members

end CodeSurvey
