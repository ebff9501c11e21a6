import CodeSurvey.Scan
import CodeSurvey.Text.Lines

/-!
# The project document

One page about a whole project, within a budget. When the page is too long, modules are left out:
those that the fewest modules import go first, and as few go as will do.

* `renderProject` writes the page without some modules, and `dropOrder` says which go first.
* `projectDocument` finds how many have to go.
-/

namespace CodeSurvey

/-! ### Lines -/

/-- A section of the page: an empty line, a header, and the lines or a word that there are none. -/
def sectionLines (header : String) (lines : List String) : List String :=
  "" :: header :: if lines.isEmpty then ["- none"] else lines

/-- The line of a conflict. -/
def conflictLine (conflict : Conflict) : String :=
  let members := String.intercalate ", " conflict.memberNames
  let primary := conflict.suggestedPrimary.getD "none"
  s!"- \x7bissue: {conflict.issue}, members: [{members}], suggested_primary: {primary}, " ++
    s!"severity: {conflict.severity.label}\x7d"

/-- Paths in a row, with arrows between them. -/
def arrowLine (paths : List Path) : String :=
  "- " ++ String.intercalate " -> " (paths.map Path.slash)

/-- A module that the page lists: its path and the paths of what it imports and the page lists. -/
structure ListedModule where
  path         : Path
  dependencies : List Path

namespace ListedModule

/-- The dependencies of a module, separated by commas. -/
def dependencyList (module : ListedModule) : String :=
  String.intercalate ", " (module.dependencies.map Path.slash)

/-- The line of a module among the modules. -/
def architectureLine (module : ListedModule) : String :=
  if module.dependencies.isEmpty then s!"- {module.path.slash}"
  else s!"- {module.path.slash} [@deps: {module.dependencyList}]"

/-- The line of a module among the imports, if it imports anything. -/
def dependencyLine (module : ListedModule) : Option String :=
  if module.dependencies.isEmpty then none
  else some s!"{module.path.slash} -> {module.dependencyList}"

end ListedModule

/-! ### The page -/

section

variable (model : ProjectModel) (chains : List (List Path)) (dropped : List Path)

/-- The modules that the page lists. -/
def listedModules : List ListedModule :=
  (model.files.filter fun f => !dropped.contains f.path).map fun f =>
    { path         := f.path
      dependencies := ((model.graph.dependencies f.path).map ModuleNode.file).filter
        fun path => !dropped.contains path }

/-- The head of the page. -/
def headLines : List String :=
  let stats := model.stats
  [s!"@project: {model.name}",
   s!"@files: {stats.discoveredFiles} discovered, {stats.indexedFiles} indexed, " ++
     s!"{stats.failedFiles} failed",
   s!"@modules: {model.files.length}"] ++
  if model.isIncomplete then [s!"@incomplete: {stats.skippedFiles} files not indexed"] else []

/-- Lists of paths without those that name a module left out. -/
def keptRows (rows : List (List Path)) : List (List Path) :=
  rows.filter fun row => row.all fun path => !dropped.contains path

/-- The line of a cycle, which ends where it starts. -/
def cycleLine (cycle : List Path) : String :=
  arrowLine (cycle ++ cycle.head?.toList)

/-- The line with the numbers of the dead code report. -/
def deadCodeLine (summary : DeadCodeSummary) : String :=
  s!"@dead_code: high={summary.high} medium={summary.medium} low={summary.low} " ++
    s!"test_only={summary.testOnly} empty_files={summary.emptyFiles}"

/-- The lines of the page without some modules. -/
def projectLines : List String :=
  let modules := listedModules model dropped
  headLines model ++
    sectionLines "@architecture:" (modules.map ListedModule.architectureLine) ++
    sectionLines "@dependency_graph:" (modules.filterMap ListedModule.dependencyLine) ++
    sectionLines "@conflicts:" (model.conflicts.map conflictLine) ++
    sectionLines "@cycles:" ((keptRows dropped model.graph.cycles).map cycleLine) ++
    ["", deadCodeLine model.deadCode.summary] ++
    sectionLines "@critical_paths:" ((keptRows dropped chains).map arrowLine) ++
    if dropped.isEmpty then [] else ["", s!"@truncated: {dropped.length} modules omitted"]

/-- The page without some modules. -/
def renderProject : String :=
  Text.unlines (projectLines model chains dropped)

end

/-! ### The budget -/

/-- The modules in the order they are left out: the least imported first, and of those the last in
path order. -/
def dropOrder (model : ProjectModel) : List Path :=
  let counted := model.files.map fun f => (model.graph.inDegree f.path, f.path)
  (sortBy (fun a b => (compare a.1 b.1).then (b.2.order a.2)) counted).map Prod.snd

/-- A number from `low` to `high` at which a test holds, by halving; it holds at `high`. -/
def bisect (test : Nat → Bool) (low high : Nat) : Nat :=
  if low < high then
    let middle := low + (high - low) / 2
    if test middle then bisect test low middle else bisect test (middle + 1) high
  else low
termination_by high - low

/-- Goes down from a number while a test holds just below, but not below one. -/
def stepDown (test : Nat → Bool) : Nat → Nat
  | n + 2 => if test (n + 1) then stepDown test (n + 1) else n + 2
  | n     => n

/-- The page, the modules left out in their order, and what is wrong with it. -/
structure ProjectDocument where
  text        : String
  dropped     : List Path
  diagnostics : List Diagnostic

/-- Whether modules had to be left out. -/
def ProjectDocument.isTruncated (document : ProjectDocument) : Bool :=
  !document.dropped.isEmpty

/-- The page about a project within its budget. -/
def projectDocument (model : ProjectModel) (output : OutputConfig) : ProjectDocument :=
  let limit := output.aggregateLimit
  let order := dropOrder model
  let chains := model.graph.criticalPaths output.criticalPaths
  let render (count : Nat) : String := renderProject model chains (order.take count)
  let fits (count : Nat) : Bool := decide ((render count).length ≤ limit)
  let all := order.length
  if fits 0 then ⟨render 0, [], []⟩
  else if fits all then
    let count := stepDown fits (bisect fits 1 all)
    ⟨render count, order.take count, []⟩
  else ⟨render all, order, [.ofFailure (.budget limit (render all).length)]⟩

end CodeSurvey
