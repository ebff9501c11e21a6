import CodeSurvey.Graph.Links
import CodeSurvey.Graph.Usage
import CodeSurvey.Graph.Cycles
import CodeSurvey.Graph.Chains

/-!
# The reference graph

The modules of a project, the imports between them, and every reference with its final target.

* `buildGraph` builds the graph of a list of indexed files, whose order is the order of the nodes.
* `ReferenceGraph.dependencies`, `dependents` and `inDegree` read the imports, and `usage` and
  `inbound` the references.
* `ReferenceGraph.criticalPaths` are the longest import chains.
* `ReferenceGraph.analysis` sums the graph up.
-/

namespace CodeSurvey

/-- A module of the project. -/
structure ModuleNode where
  file       : Path
  moduleName : String
  isTest     : Bool
deriving DecidableEq

/-- The imports of one module by another: both by their places, and the lines of the imports. -/
structure ImportEdge where
  source : Nat
  target : Nat
  lines  : List Nat
deriving DecidableEq

/-- How many lines import the module. -/
def ImportEdge.weight (edge : ImportEdge) : Nat :=
  edge.lines.length

/-- The graph of a project. `external` lists what each file imports from outside the project. -/
structure ReferenceGraph where
  nodes      : List ModuleNode
  edges      : List ImportEdge
  symbols    : List Symbol
  references : List Reference
  external   : List (Path × List String)
  cycles     : List (List Path)

/-! ### Building -/

section

variable (files : List FileIndex)

/-- The modules that a file imports, with the line of every import. -/
def importedModules (importer : Nat) (file : FileIndex) : List (Nat × Nat) :=
  file.imports.filterMap fun entry =>
    (resolveImport files importer entry).bind fun target =>
      if target.module = importer then none else some (target.module, entry.line)

/-- The edges that start at a file, in the order of their targets. -/
def edgesFrom (importer : Nat) (file : FileIndex) : List ImportEdge :=
  let found := importedModules files importer file
  (sortedSet compare (found.map Prod.fst)).map fun target =>
    { source := importer, target
      lines  := sortedSet compare ((found.filter fun p => p.1 = target).map Prod.snd) }

/-- All edges, in the order of their sources and targets. -/
def importEdges : List ImportEdge :=
  files.zipIdx.flatMap fun (file, i) => edgesFrom files i file

/-- What a file imports from outside the project. -/
def externalLabels (importer : Nat) (file : FileIndex) : List String :=
  (file.imports.filter fun entry => (resolveImport files importer entry).isNone).map importLabel

/-- What each file imports from outside the project, in path order; files that import nothing from
there are left out. -/
def externalImports : List (Path × List String) :=
  let labelled := files.zipIdx.flatMap fun (file, i) =>
    (externalLabels files i file).map fun label => (file.path, label)
  (sortedSet Path.order (labelled.map Prod.fst)).map fun path =>
    (path, sortedSet compare ((labelled.filter fun p => p.1 = path).map Prod.snd))

end

/-- The nodes that edges lead to from a node, in order. -/
def successorsOf (edges : List ImportEdge) (node : Nat) : List Nat :=
  sortedSet compare ((edges.filter fun e => e.source = node).map ImportEdge.target)

/-- The module of an indexed file. -/
def moduleNode (index : FileIndex) : ModuleNode :=
  ⟨index.path, index.moduleName, index.file.isTest⟩

/-- The graph of indexed files. -/
def buildGraph (files : List FileIndex) : ReferenceGraph :=
  let nodes := files.map moduleNode
  let edges := importEdges files
  let pathOf (n : Nat) : Path := (nodes[n]?.map ModuleNode.file).getD ⟨[]⟩
  { nodes, edges
    symbols    := files.flatMap FileIndex.symbols
    references := linkReferences files
    external   := externalImports files
    cycles     := (findCycles nodes.length (successorsOf edges)).map fun cycle =>
      cycle.map pathOf }

namespace ReferenceGraph

variable (graph : ReferenceGraph)

/-! ### References -/

/-- Whether a file is a test. -/
def isTestFile (file : Path) : Bool :=
  graph.nodes.any fun node => node.isTest && node.file = file

/-- How often a symbol is used. -/
def usage (id : SymbolId) : SymbolUsage :=
  countUsage graph.symbols graph.isTestFile graph.references id

/-- The symbols that some reference counts for, in order. -/
def usedSymbols : List SymbolId :=
  sortedSet SymbolId.order (graph.references.flatMap (·.counted graph.symbols))

/-- How many references arrive at a file from other files. -/
def inbound (file : Path) : Nat :=
  countInbound graph.references file

/-- The files that references arrive at from other files, in order. -/
def inboundFiles : List Path :=
  (sortedSet Path.order (graph.references.filterMap fun r => r.target.map SymbolId.file)).filter
    fun file => decide (0 < graph.inbound file)

/-! ### Imports -/

/-- The node of a file; of several with one path, the last. -/
def nodeOf (file : Path) : Option Nat :=
  ((graph.nodes.zipIdx.filter fun (node, _) => node.file = file).getLast?).map Prod.snd

/-- The modules at some places, in path order, each path once. -/
def modulesAt (places : List Nat) : List ModuleNode :=
  sortedSet (fun a b => a.file.order b.file) (places.filterMap fun n => graph.nodes[n]?)

/-- The modules that a file imports, in path order. -/
def dependencies (file : Path) : List ModuleNode :=
  match graph.nodeOf file with
  | none   => []
  | some n => graph.modulesAt ((graph.edges.filter fun e => e.source = n).map ImportEdge.target)

/-- The modules that import a file, in path order. -/
def dependents (file : Path) : List ModuleNode :=
  match graph.nodeOf file with
  | none   => []
  | some n => graph.modulesAt ((graph.edges.filter fun e => e.target = n).map ImportEdge.source)

/-- How many modules import a file. -/
def inDegree (file : Path) : Nat :=
  (graph.dependents file).length

/-- The path of a node. -/
def pathOf (node : Nat) : Path :=
  (graph.nodes[node]?.map ModuleNode.file).getD ⟨[]⟩

/-- The longest import chains, at most `limit` of them. The modules of a cycle count as one, named
by the first of their paths. -/
def criticalPaths (limit : Nat) : List (List Path) :=
  let parts := components graph.nodes.length (successorsOf graph.edges)
  let edges := componentEdges (successorsOf graph.edges) parts
  let name (part : Nat) : Path :=
    (leastBy Path.order ((parts.getD part []).map graph.pathOf)).getD ⟨[]⟩
  (longestChains Path.order name edges).take limit

/-! ### Analysis -/

/-- The graph in numbers. The average degree is `totalEdges` over `totalModules`. -/
structure Analysis where
  totalModules       : Nat
  totalEdges         : Nat
  externalModules    : Nat
  totalReferences    : Nat
  resolvedReferences : Nat
  cycles             : Nat
  mostImported       : List (String × Nat)

/-- The modules that are imported, with how many edges lead to them; the most imported first. -/
def importedModules : List (String × Nat) :=
  let counted := graph.nodes.zipIdx.map fun (node, n) =>
    (node.moduleName, graph.edges.countP fun e => e.target = n)
  sortBy (fun a b => (compare b.2 a.2).then (compare a.1 b.1))
    (counted.filter fun (_, count) => decide (0 < count))

/-- The graph in numbers. -/
def analysis : Analysis :=
  { totalModules       := graph.nodes.length
    totalEdges         := graph.edges.length
    externalModules    := (sortedSet compare (graph.external.flatMap Prod.snd)).length
    totalReferences    := graph.references.length
    resolvedReferences := graph.references.countP fun r => r.resolution = .resolved
    cycles             := graph.cycles.length
    mostImported       := graph.importedModules.take 5 }

end ReferenceGraph

end CodeSurvey
