import CodeSurvey.Order
import CodeSurvey.Index.Symbol

/-!
# Where imports lead

Finds the file that a dotted name in an import stands for.

* `findModule` looks a module name up: by its exact name, then among the importer's siblings, then
  as the end of a longer name.
* `resolveDotted` takes the longest part of a dotted path that is a module; what is left names
  something inside it.
* `lookupSymbol` finds that symbol.
-/

namespace CodeSurvey

/-- Where an import leads: a file by its place, and the dotted names that are left over. -/
structure ImportTarget where
  module    : Nat
  remaining : List String
deriving DecidableEq

/-- The parts of a dotted name that are not empty. -/
def dottedNames (name : String) : List String :=
  (dottedParts name).filter (· ≠ "")

/-- Parts joined by dots. -/
def dotted (parts : List String) : String :=
  String.intercalate "." parts

section

variable (files : List FileIndex)

/-- The first file with a module name. -/
def moduleNamed (name : String) : Option Nat :=
  files.findIdx? fun file => file.moduleName = name

/-- The parts of the package that a file belongs to. -/
def packageParts (importer : Nat) : List String :=
  match files[importer]? with
  | none      => []
  | some file =>
    let parts := dottedNames file.moduleName
    if file.file.isPackageMarker then if file.moduleName = "__init__" then [] else parts
    else parts.dropLast

/-- The shortest module name that ends in a dot and the candidate, the first in order of those. -/
def moduleEndingIn (candidate : String) : Option String :=
  leastBy byLengthThenText
    ((files.map FileIndex.moduleName).filter fun name => Text.endsWith name s!".{candidate}")

/-- The file that a module name stands for in the importer. Only absolute imports may be met by a
sibling or by the end of a longer name. -/
def findModule (candidate : String) (importer : Nat) (isAbsolute : Bool) : Option Nat :=
  match moduleNamed files candidate with
  | some module => some module
  | none        =>
    if !isAbsolute then none
    else
      let package := dotted (packageParts files importer)
      let sibling :=
        if package = "" then none else moduleNamed files s!"{package}.{candidate}"
      match sibling with
      | some module => some module
      | none        => (moduleEndingIn files candidate).bind (moduleNamed files)

/-- The longest of the first `n` parts and fewer that name a module. -/
def resolveParts (importer : Nat) (isAbsolute : Bool) (parts : List String) :
    Nat → Option ImportTarget
  | 0     => none
  | n + 1 =>
    match findModule files (dotted (parts.take (n + 1))) importer isAbsolute with
    | some module => some { module, remaining := parts.drop (n + 1) }
    | none        => resolveParts importer isAbsolute parts n

/-- The package that `level` leading dots stand for: the importer's own for one, the one around it
for two, and so on. -/
def relativeBase (importer level : Nat) : Option (List String) :=
  let parts := packageParts files importer
  if level - 1 ≤ parts.length then some (parts.take (parts.length - (level - 1))) else none

/-- Where a dotted path with leading dots leads. -/
def resolveDotted (importer level : Nat) (parts : List String) : Option ImportTarget :=
  if level = 0 then resolveParts files importer true parts parts.length
  else
    match relativeBase files importer level with
    | none      => none
    | some base => resolveParts files importer false (base ++ parts) (base ++ parts).length

/-- Where an import leads. -/
def resolveImport (importer : Nat) (entry : Import) : Option ImportTarget :=
  resolveDotted files importer entry.level (dottedNames entry.module ++ entry.name.toList)

/-- The symbol that an import target names. -/
def lookupSymbol (target : ImportTarget) : Option Symbol :=
  match files[target.module]? with
  | none      => none
  | some file =>
    match target.remaining with
    | first :: second :: _ =>
      match file.findQualified s!"{first}.{second}" with
      | some symbol => some symbol
      | none        => file.topLevel first
    | [first] => file.topLevel first
    | []      => none

end

/-- How an import of something outside the project is listed. -/
def importLabel (entry : Import) : String :=
  let dots := String.ofList (List.replicate entry.level '.')
  match entry.name with
  | some name => if entry.module = "" then dots ++ name else dots ++ entry.module
  | none      => dots ++ entry.module

end CodeSurvey
