/-!
# Paths

A path is the list of its components. Two spellings of one path, such as `a//b` and `a/./b`, are
the same list; a leading `.` is a component of its own.

* `Path.ofText` and `Path.text` read and write a path.
* `Path.order` compares component by component, so `a/z.py` comes before `a-b.py`.
* `Path.stem`, `Path.extension` and `Path.moduleName` name a file.
* `Path.strip` takes a leading directory off a spelled path and keeps the spelling of the rest.
-/

namespace CodeSurvey

/-- One step of a path. -/
inductive Component where
  /-- The root directory of an absolute path. -/
  | root
  /-- A leading `.`. -/
  | here
  /-- A `..`. -/
  | up
  /-- A directory or file name. -/
  | name (text : String)
deriving DecidableEq

namespace Component

/-- The kinds of component in their order. -/
def rank : Component → Nat
  | root   => 0
  | here   => 1
  | up     => 2
  | name _ => 3

/-- The text of a component. -/
def text : Component → String
  | root      => ""
  | here      => "."
  | up        => ".."
  | name text => text

/-- The name of a component that is one. -/
def name? : Component → Option String
  | name text => some text
  | _         => none

/-- The order of components: by kind, then by text. -/
def order (a b : Component) : Ordering :=
  (compare a.rank b.rank).then (compare a.text b.text)

end Component

/-- A path: its components from the outside in. -/
structure Path where
  parts : List Component
deriving DecidableEq

namespace Path

/-! ### Reading and writing -/

/-- The component that a piece between slashes stands for; empty pieces and inner dots are none.
The first piece of an absolute path is empty. -/
def pieceComponent (first absolute : Bool) (piece : String) : Option Component :=
  if piece = "" then if first && absolute then some .root else none
  else if piece = "." then if first then some .here else none
  else if piece = ".." then some .up
  else some (.name piece)

/-- The pieces of a spelled path, each with the component it stands for. -/
def pieces (text : String) : List (String × Option Component) :=
  match (text.toList.splitOn '/').map String.ofList with
  | []            => []
  | first :: rest =>
    (first, pieceComponent true (!rest.isEmpty) first) ::
      rest.map fun piece => (piece, pieceComponent false false piece)

/-- The path a text spells. -/
def ofText (text : String) : Path :=
  ⟨(pieces text).filterMap Prod.snd⟩

/-- The plain spelling of a path. -/
def text (path : Path) : String :=
  match path.parts with
  | [.root] => "/"
  | parts   => String.intercalate "/" (parts.map Component.text)

/-- The names of a path, joined by slashes. -/
def slash (path : Path) : String :=
  String.intercalate "/" (path.parts.filterMap Component.name?)

/-- The path of one name after another. -/
def ofNames (names : List String) : Path :=
  ⟨names.map .name⟩

/-! ### Order -/

/-- The lexicographic order of component lists. -/
def orderParts : List Component → List Component → Ordering
  | [], []           => .eq
  | [], _ :: _       => .lt
  | _ :: _, []       => .gt
  | a :: as, b :: bs => (a.order b).then (orderParts as bs)

/-- The order of paths. -/
def order (a b : Path) : Ordering :=
  orderParts a.parts b.parts

instance : Ord Path := ⟨order⟩

/-- Whether a path stands at or before another. -/
def le (a b : Path) : Bool :=
  (a.order b).isLE

/-! ### Parts of a path -/

/-- The last name, if the path ends in one. -/
def fileName (path : Path) : Option String :=
  path.parts.getLast?.bind Component.name?

/-- The path without its last component; the root and the empty path have none before them. -/
def parent (path : Path) : Option Path :=
  match path.parts.getLast? with
  | none | some .root => none
  | some _            => some ⟨path.parts.dropLast⟩

/-- A path followed by another. -/
def join (path below : Path) : Path :=
  match below.parts with
  | .root :: _ => below
  | parts      => if path.parts = [] then below else ⟨path.parts ++ parts.filter (· ≠ .here)⟩

/-- A path followed by a name. -/
def child (path : Path) (name : String) : Path :=
  ⟨path.parts ++ [.name name]⟩

/-- Whether a path is `directory` or lies below it. -/
def isUnder (path directory : Path) : Bool :=
  directory.parts.isPrefixOf path.parts

/-- Every directory above a path, the outermost first, without the empty one. -/
def ancestors (path : Path) : List Path :=
  (List.range path.parts.length).filterMap fun n =>
    let parts := path.parts.take n
    if parts = [] ∨ parts = [.root] then none else some ⟨parts⟩

/-! ### File names -/

/-- A file name cut at its last dot. A dot at the very start cuts nothing. -/
def splitName (name : String) : String × Option String :=
  let reversed := name.toList.reverse
  let tail := reversed.takeWhile (· ≠ '.')
  match reversed.drop tail.length with
  | _ :: stem@(_ :: _) => (String.ofList stem.reverse, some (String.ofList tail.reverse))
  | _                  => (name, none)

/-- The file name without its extension. -/
def stem (path : Path) : Option String :=
  path.fileName.map fun name => (splitName name).1

/-- What follows the last dot of the file name. -/
def extension (path : Path) : Option String :=
  path.fileName.bind fun name => (splitName name).2

/-- The dotted module name of a file: the names on the way to it, the last without its extension.
The file `__init__` of a package stands for the package. -/
def moduleName (path : Path) : String :=
  let names := path.parts.filterMap Component.name?
  match names.reverse with
  | []            => ""
  | last :: above =>
    let stem := (splitName last).1
    let kept := if stem = "__init__" ∧ above ≠ [] then above else stem :: above
    String.intercalate "." kept.reverse

/-! ### Spelled paths -/

/-- A spelled directory followed by names. -/
def spellBelow (directory : String) (names : List String) : String :=
  names.foldl (fun path name =>
    if path = "" ∨ path.toList.getLast? = some '/' then path ++ name else s!"{path}/{name}")
    directory

/-- Pieces without those at the end that stand for no component. -/
def dropEmptyEnd (pieces : List (String × Option Component)) : List (String × Option Component) :=
  (pieces.reverse.dropWhile (·.2.isNone)).reverse

/-- Pieces after the first `n` that stand for a component. -/
def dropPieces : Nat → List (String × Option Component) → List (String × Option Component)
  | 0, rest                  => rest.dropWhile (·.2.isNone)
  | _ + 1, []                => []
  | n + 1, (_, none) :: rest => dropPieces (n + 1) rest
  | n + 1, (_, some _) :: rest => dropPieces n rest

/-- The spelling of pieces. -/
def spell (pieces : List (String × Option Component)) : String :=
  match pieces with
  | [(_, some .root)] => "/"
  | pieces            => String.intercalate "/" (pieces.map Prod.fst)

/-- What a spelled path says below `base`, spelled as it was, if it lies there. -/
def strip (base text : String) : Option String :=
  let outer := (ofText base).parts
  if outer.isPrefixOf (ofText text).parts then
    let kept := if outer = [] then pieces text else dropPieces outer.length (pieces text)
    some (spell (dropEmptyEnd kept))
  else none

end Path

end CodeSurvey
