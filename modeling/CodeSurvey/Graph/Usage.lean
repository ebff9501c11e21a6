import CodeSurvey.Index.Symbol
import CodeSurvey.Order

/-!
# How often symbols are used

Counts the references to each symbol by where they come from.

A resolved reference counts for its target, within the file or across files. A reference that only
run time can confirm counts as dynamic: for its target if it has one, and otherwise for every
symbol of that name.
-/

namespace CodeSurvey

/-- How often a symbol is used. `fromTests` counts the uses across files that stand in tests. -/
structure SymbolUsage where
  selfFile  : Nat := 0
  crossFile : Nat := 0
  fromTests : Nat := 0
  dynamic   : Nat := 0
deriving DecidableEq

namespace SymbolUsage

/-- The uses that are certain. -/
def resolved (usage : SymbolUsage) : Nat :=
  usage.selfFile + usage.crossFile

/-- Whether all uses stand in tests, and there is one. -/
def onlyFromTests (usage : SymbolUsage) : Bool :=
  usage.selfFile == 0 && decide (0 < usage.crossFile) && usage.fromTests == usage.crossFile

end SymbolUsage

/-! ### What a reference counts for -/

namespace Reference

/-- Whether the reference is a certain use of a symbol. -/
def uses (reference : Reference) (id : SymbolId) : Bool :=
  reference.resolution = .resolved && reference.target = some id

/-- Whether the reference is a use of a symbol within its file. -/
def usesInside (reference : Reference) (id : SymbolId) : Bool :=
  reference.uses id && id.file = reference.file

/-- Whether the reference is a use of a symbol from another file. -/
def usesAcross (reference : Reference) (id : SymbolId) : Bool :=
  reference.uses id && id.file ≠ reference.file

/-- How often the reference counts as a dynamic use of a symbol, given all symbols. -/
def dynamicUses (reference : Reference) (symbols : List Symbol) (id : SymbolId) : Nat :=
  if reference.resolution = .dynamicUncertain then
    match reference.target with
    | some target => if target = id then 1 else 0
    | none        => symbols.countP fun symbol => symbol.id = id && symbol.name = reference.name
  else 0

/-- Whether the reference arrives at a file from another one. -/
def arrivesAt (reference : Reference) (file : Path) : Bool :=
  reference.resolution = .resolved &&
    match reference.target with
    | some target => target.file = file && target.file ≠ reference.file
    | none        => false

/-- The symbols that the reference counts for in any way. -/
def counted (reference : Reference) (symbols : List Symbol) : List SymbolId :=
  match reference.resolution, reference.target with
  | .resolved, some target         => [target]
  | .dynamicUncertain, some target => [target]
  | .dynamicUncertain, none        =>
    (symbols.filter fun symbol => symbol.name = reference.name).map Symbol.id
  | _, _                           => []

end Reference

/-! ### Counts -/

/-- How often references use a symbol, given all symbols and which files are tests. -/
def countUsage (symbols : List Symbol) (isTest : Path → Bool) (references : List Reference)
    (id : SymbolId) : SymbolUsage :=
  { selfFile  := references.countP (·.usesInside id)
    crossFile := references.countP (·.usesAcross id)
    fromTests := references.countP fun r => r.usesAcross id && isTest r.file
    dynamic   := (references.map (·.dynamicUses symbols id)).foldr (· + ·) 0 }

/-- How many references arrive at a file from other files. -/
def countInbound (references : List Reference) (file : Path) : Nat :=
  references.countP (·.arrivesAt file)

end CodeSurvey
