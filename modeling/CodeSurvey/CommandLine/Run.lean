import CodeSurvey.CommandLine.Arguments
import CodeSurvey.CommandLine.Summary
import CodeSurvey.Config.File
import CodeSurvey.Config.Template
import CodeSurvey.Document.Write

/-!
# Commands

What each command prints, how the program ends, and what it leaves in the file tree.

* `runCommand` carries out a command, and `runRequest` whatever the arguments ask for.
* `Outcome.output` is what is printed, once it is known how long the command took.
-/

namespace CodeSurvey

/-! ### Outcomes -/

/-- A line of output. -/
inductive OutputLine where
  | plain (text : String)
  /-- A line with the seconds that the command took, between two texts. -/
  | timed (before after : String)
deriving DecidableEq

/-- The text of a line; the time is in hundredths of a second. -/
def OutputLine.text (elapsed : Nat) : OutputLine → String
  | plain text         => text
  | timed before after => before ++ Double.point elapsed 2 ++ after

/-- How the program ends: with an exit code, some output, and a file tree. -/
structure Outcome where
  exit  : Nat
  lines : List OutputLine
  tree  : FileTree

/-- All that is printed by a command that took some hundredths of a second. -/
def Outcome.output (outcome : Outcome) (elapsed : Nat) : String :=
  Text.unlines (outcome.lines.map (OutputLine.text elapsed))

/-- The exit code of a command that fails. -/
def failureExit : Nat := 1

/-- The exit code of arguments that make no sense. -/
def usageExit : Nat := 2

/-- The exit code of a number that leaves its range. -/
def overflowExit : Nat := 101

/-! ### Surveys -/

/-- The configuration of a survey. -/
def targetConfig (tree : FileTree) (target : Target) : Except ConfigError Config :=
  let settings :=
    match target.config with
    | some path => Config.fromFile tree path
    | none      => Config.load tree target.path
  settings.map fun config => { config with targetDirectory := target.path }

/-- Carries out a command on the survey of a target. The command starts after the line that names
the target. -/
def surveyThen (tree : FileTree) (target : Target)
    (command : Config → ProjectModel → Outcome) : Outcome :=
  match targetConfig tree target with
  | .error _   => ⟨failureExit, [], tree⟩
  | .ok config =>
    if config.invalid.isSome then ⟨failureExit, [], tree⟩
    else
      let first := OutputLine.plain s!"🔍 Scanning {target.path}"
      match scanOnce tree config with
      | none       => ⟨overflowExit, [first], tree⟩
      | some model =>
        let outcome := command config model
        { outcome with lines := first :: outcome.lines }

/-- Writes the documents of a project. -/
def runUpdate (tree : FileTree) (target : Target) : Outcome :=
  surveyThen tree target fun config model =>
    let project := projectDocument model config.output
    let written := writeDocuments tree target.path model config.output project
    let start := ["", "📝 Writing documents..."]
    if !written.succeeded then ⟨failureExit, start.map .plain, written.tree⟩
    else
      let truncated :=
        if project.isTruncated then
          [s!"✂️  PROJECT.llm truncated: {project.dropped.length} modules omitted"]
        else []
      let troubles := (model.diagnostics ++ project.diagnostics).map fun d => s!"  ⚠️  {d.text}"
      let done := OutputLine.timed s!"✅ Updated {written.paths.length} documents in " "s"
      ⟨0, (start ++ truncated ++ troubles ++ [""]).map .plain ++ [done] ++
        written.paths.map (fun path => .plain s!"   - {path}"), written.tree⟩

/-- Shows what a survey found. -/
def runCheck (tree : FileTree) (target : Target) : Outcome :=
  surveyThen tree target fun config model =>
    let project := projectDocument model config.output
    let truncated :=
      if project.isTruncated then
        ["", s!"✂️  PROJECT.llm would omit {project.dropped.length} modules at the current budget"]
      else []
    let lines := [""] ++ model.summary ++
      project.diagnostics.map (fun d => s!"  ⚠️  {d.text}") ++ truncated
    ⟨0, lines.map .plain, tree⟩

/-- The line of a finding on the screen. -/
def findingText (finding : Finding) : String :=
  let evidence := String.intercalate ", " finding.evidence
  let note := if finding.testOnly then " (test-only)" else ""
  s!"  {finding.file.text}:{finding.line} {finding.kind.label} {finding.symbol} " ++
    s!"[{finding.confidence}%] {evidence}{note}"

/-- The findings in a bucket, under a head. -/
def bucketLines (report : DeadCodeReport) (bucket : Bucket) : List String :=
  let findings := report.inBucket bucket
  if findings.isEmpty then []
  else "" :: s!"{bucket.label} confidence ({findings.length}):" :: findings.map findingText

/-- The dead code report on the screen. -/
def deadCodeLines (least : Nat) (report : DeadCodeReport) : List String :=
  let empty :=
    if report.emptyFiles.isEmpty then []
    else "" :: "📄 Empty files:" :: report.emptyFiles.map fun file => s!"  {file.text}"
  let nothing :=
    if report.findings.isEmpty && report.emptyFiles.isEmpty then ["✨ No dead code found"] else []
  ["", s!"🧹 Dead code (confidence >= {least})"] ++
    [Bucket.high, .medium, .low].flatMap (bucketLines report) ++ empty ++ nothing

/-- Shows the dead code of a project, for people or for other programs. -/
def runCleancode (tree : FileTree) (target : Target) (least : Option Nat) (json : Bool) :
    Outcome :=
  surveyThen tree target fun config model =>
    let floor := least.getD config.analysis.confidenceThreshold
    let kept := model.deadCode.filtered floor
    let lines :=
      if json then [(reportWith model config.output kept).pretty] else deadCodeLines floor kept
    ⟨0, lines.map .plain, tree⟩

/-! ### Commands -/

/-- Writes a configuration file that explains itself. -/
def runConfig (tree : FileTree) (output : Option String) : Outcome :=
  let path := output.getD (Path.spellBelow "." [configFileName])
  let first := s!"📝 Generating configuration file: {path}"
  match tree.writeText path configTemplate with
  | none       => ⟨failureExit, [.plain first], tree⟩
  | some after =>
    ⟨0, [first, "✅ Configuration file created successfully!",
      "💡 Edit the file to tune exclusions, confidence threshold and output budgets."].map .plain,
      after⟩

/-- Carries out a command. -/
def runCommand (tree : FileTree) : Command → Outcome
  | .update target                => runUpdate tree target
  | .check target                 => runCheck tree target
  | .cleancode target least json  => runCleancode tree target least json
  | .config output                => runConfig tree output

/-- How the program is called. -/
def usageLines : List String :=
  ["Usage: context-scan [OPTIONS] <COMMAND>",
   "",
   "Commands:",
   "  update     Scan the project and write PROJECT.llm plus one CONTEXT.llm per directory",
   "  check      Scan the project and print the summary and diagnostics",
   "  cleancode  List dead-code findings grouped by confidence bucket",
   "  config     Generate a documented configuration file"]

/-- Does what the arguments ask for. -/
def runRequest (tree : FileTree) : Request → Outcome
  | .run command => runCommand tree command
  | .version     => ⟨0, [.plain s!"context-scan {programVersion}"], tree⟩
  | .help        => ⟨0, usageLines.map .plain, tree⟩
  | .refused     => ⟨usageExit, [], tree⟩

end CodeSurvey
