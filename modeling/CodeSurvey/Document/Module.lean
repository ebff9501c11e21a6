import CodeSurvey.Document.Bounded
import CodeSurvey.Document.Exports
import CodeSurvey.Scan
import CodeSurvey.Text.Lines

/-!
# Module documents

What a document says about a module: what it imports, what it offers, and what of it may be dead
code, within a budget that the three lists share.

* `moduleDocument` is the section of one module.
* `directoryDocuments` puts the sections of each directory together.
-/

namespace CodeSurvey

/-- The line of a finding. -/
def findingLine (finding : Finding) : String :=
  let evidence := String.intercalate ", " finding.evidence
  s!"- \x7bsymbol: {finding.symbol}, kind: {finding.kind.label}, line: {finding.line}, " ++
    s!"confidence: {finding.confidence}, bucket: {finding.bucket.label}, " ++
    s!"evidence: [{evidence}]\x7d"

section

variable (model : ProjectModel) (output : OutputConfig) (index : FileIndex)

/-- The first lines of a module's section. -/
def moduleHead : String :=
  Text.unlines [s!"@module: {index.moduleName}", s!"@path: {index.path.slash}"]

/-- The lines that are there even if all lists are empty. -/
def emptyLists : String :=
  Text.unlines ["@deps: []", "@exports:", "@dead_code:"]

/-- The room that the head leaves for the lists. -/
def moduleRoom : Nat :=
  output.moduleLimit - ((moduleHead index).length + emptyLists.length)

/-- What a module imports, within a third of the room. -/
def boundedDependencies : String :=
  String.intercalate ", "
    (bounded ((model.graph.dependencies index.path).map ModuleNode.moduleName)
      (moduleRoom output index / 3) 2)

/-- The room that is left after the imports. -/
def roomAfterDependencies : Nat :=
  moduleRoom output index - (boundedDependencies model output index).length

/-- What a module offers, within half of the room that is left. -/
def boundedExports : List String :=
  bounded (exportEntries index) (roomAfterDependencies model output index / 2) 1

/-- The room that is left after what a module offers. -/
def roomAfterExports : Nat :=
  roomAfterDependencies model output index -
    ((boundedExports model output index).map (entryCost 1)).foldr (· + ·) 0

/-- The findings in a module, within the room that is left. -/
def boundedFindings : List String :=
  bounded ((model.deadCode.forFile index.path).map findingLine)
    (roomAfterExports model output index) 1

/-- The section of a module. -/
def moduleDocument : String :=
  moduleHead index ++
    Text.unlines
      ([s!"@deps: [{boundedDependencies model output index}]", "@exports:"] ++
        boundedExports model output index ++ ["@dead_code:"] ++
        boundedFindings model output index)

end

/-- The directory of a file; the root is `.`. -/
def directoryOf (path : Path) : Path :=
  match path.parent with
  | some ⟨[]⟩ | none => ⟨[.here]⟩
  | some above       => above

/-- The sections of the modules in each directory, in path order. -/
def directoryDocuments (model : ProjectModel) (output : OutputConfig) : List (Path × String) :=
  let sections := model.files.map fun f => (directoryOf f.path, moduleDocument model output f)
  (sortedSet Path.order (sections.map Prod.fst)).map fun directory =>
    (directory, String.intercalate "\n"
      ((sections.filter fun s => s.1 = directory).map Prod.snd))

end CodeSurvey
