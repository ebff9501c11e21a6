import CodeSurvey.Graph.Imports

/-!
# References across files

Carries the references of every file over to the symbols of other files.

* `memberReferences` are the uses that `from x import name` makes of the names it imports.
* `linkReference` finds the target of a reference that its own file could not resolve: by way of
  an import, or among the names that a wildcard import brought in.
* `linkReferences` is all of them, file by file.
-/

namespace CodeSurvey

section

variable (files : List FileIndex)

/-- A reference that turns out to mean a symbol. -/
def Reference.resolvedTo (reference : Reference) (symbol : Symbol) : Reference :=
  { reference with target := some symbol.id, resolution := .resolved }

/-- The use of a name that an import of a member makes. -/
def memberReference (importer : Nat) (file : FileIndex) (entry : Import) : Option Reference :=
  if entry.name.isNone then none
  else
    ((resolveImport files importer entry).bind (lookupSymbol files)).map fun symbol =>
      { target := some symbol.id, name := symbol.name, access := none, file := file.path
        line := entry.line, resolution := .resolved }

/-- The uses of names that the imports of a file make. -/
def memberReferences (importer : Nat) (file : FileIndex) : List Reference :=
  file.imports.filterMap (memberReference files importer file)

/-- The files whose names a file takes in with wildcard imports. -/
def wildcardModules (importer : Nat) (file : FileIndex) : List Nat :=
  file.imports.filterMap fun entry =>
    if entry.isWildcard then
      (resolveImport files importer entry).bind fun target =>
        if target.remaining.isEmpty then some target.module else none
    else none

/-- The symbol behind an attribute that is reached through an import. -/
def accessedSymbol (importer : Nat) (file : FileIndex) (access : ImportAccess) : Option Symbol :=
  match file.imports[access.source]? with
  | none       => none
  | some entry =>
    (resolveDotted files importer entry.level
      (dottedNames entry.boundPath ++ access.attributes)).bind (lookupSymbol files)

/-- The symbol behind a name that wildcard imports brought in. -/
def wildcardSymbol (modules : List Nat) (name : String) : Option Symbol :=
  modules.findSome? fun m => files[m]?.bind fun file => file.topLevel name

/-- A reference with its target in another file, if it has one. -/
def linkReference (importer : Nat) (file : FileIndex) (wildcards : List Nat)
    (reference : Reference) : Reference :=
  let found :=
    match reference.access with
    | some access => accessedSymbol files importer file access
    | none        =>
      if reference.resolution = .unknown ∧ reference.target = none then
        wildcardSymbol files wildcards reference.name
      else none
  match found with
  | some symbol => reference.resolvedTo symbol
  | none        => reference

/-- The references of one file. -/
def linkFile (importer : Nat) (file : FileIndex) : List Reference :=
  let wildcards := wildcardModules files importer file
  memberReferences files importer file ++
    file.references.map (linkReference files importer file wildcards)

/-- The references of all files. -/
def linkReferences : List Reference :=
  files.zipIdx.flatMap fun (file, i) => linkFile files i file

end

end CodeSurvey
