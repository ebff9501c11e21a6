import CodeSurvey.Order
import CodeSurvey.Path
import CodeSurvey.Text.Utf8

/-!
# File trees

A file system: files with their content and time of change, directories, and symbolic links.

An entry is known by its place, the names on the way to it from the root with no link among them.
A path leads to a place by way of links; more than forty of them are too many.

* `FileTree.locate` follows a path to a place, whether or not something is there.
* `FileTree.stat`, `isFile` and `read` look at what a path leads to, `statText` and `readText` at
  what a spelled path does.
* `FileTree.write`, `makeDirectories` and `remove` change the tree.
-/

namespace CodeSurvey

/-- The names on the way from the root to an entry. -/
abbrev Place : Type := List String

/-- Something in a file tree. -/
inductive FileEntry where
  | file (content : ByteArray) (modified : Nat)
  | directory
  | link (target : String)

/-- What a file is known by without looking into it: its size and its time of change. -/
structure Fingerprint where
  size     : Nat
  modified : Nat
deriving DecidableEq

/-- Why the file system refuses. -/
inductive OsError where
  | notFound
  | notDirectory
  | isDirectory
  | alreadyThere
  | tooManyLinks
deriving DecidableEq

/-- The text of a refusal. -/
def OsError.text : OsError → String
  | notFound     => "No such file or directory (os error 2)"
  | alreadyThere => "File exists (os error 17)"
  | notDirectory => "Not a directory (os error 20)"
  | isDirectory  => "Is a directory (os error 21)"
  | tooManyLinks => "Too many levels of symbolic links (os error 40)"

/-- A file system, the directory that relative paths start from, and the time that a change is
made at. The root is a directory without an entry. -/
structure FileTree where
  entries : List (Place × FileEntry)
  here    : Place
  clock   : Nat

namespace FileTree

/-! ### Places -/

/-- What is at a place. -/
def entryAt (tree : FileTree) : Place → Option FileEntry
  | []    => some .directory
  | place => tree.entries.lookup place

/-- The names in a directory, in order. -/
def namesIn (tree : FileTree) (directory : Place) : List String :=
  sortedSet compare (tree.entries.filterMap fun (place, _) =>
    if place.dropLast = directory then place.getLast? else none)

/-- The places of the directories below the root. -/
def directories (tree : FileTree) : List Place :=
  tree.entries.filterMap fun (place, entry) =>
    match entry with
    | .directory => some place
    | _          => none

/-- Follows components from a directory. `onLink` goes on at a link, with the directory it is in,
its target, and the components after it. Without `followLast` a link at the end is the goal. The
result is a place and what is there, if anything. -/
def walk (tree : FileTree) (followLast : Bool)
    (onLink : Place → Path → List Component → Except OsError (Place × Option FileEntry)) :
    Place → List Component → Except OsError (Place × Option FileEntry)
  | place, []                    => .ok (place, tree.entryAt place)
  | _, .root :: rest             => walk tree followLast onLink [] rest
  | place, .here :: rest         => walk tree followLast onLink place rest
  | place, .up :: rest           => walk tree followLast onLink place.dropLast rest
  | place, .name name :: rest    =>
    let next := place ++ [name]
    match tree.entryAt next with
    | none               => if rest.isEmpty then .ok (next, none) else .error .notFound
    | some .directory    => walk tree followLast onLink next rest
    | some (.file c m)   =>
      if rest.isEmpty then .ok (next, some (.file c m)) else .error .notDirectory
    | some (.link target) =>
      if rest.isEmpty && !followLast then .ok (next, some (.link target))
      else onLink place (Path.ofText target) rest

/-- Follows components from a directory, by way of at most so many links. -/
def follow (tree : FileTree) (followLast : Bool) :
    Nat → Place → List Component → Except OsError (Place × Option FileEntry)
  | 0, place, parts     => walk tree followLast (fun _ _ _ => .error .tooManyLinks) place parts
  | n + 1, place, parts =>
    walk tree followLast
      (fun directory target rest =>
        follow tree followLast n directory (target.parts ++ rest))
      place parts

/-- Follows a path to a place, and gives what is there, if anything. -/
def locate (tree : FileTree) (path : Path) (followLast : Bool := true) :
    Except OsError (Place × Option FileEntry) :=
  follow tree followLast 40 tree.here path.parts

/-! ### Looking -/

/-- What a path leads to. -/
def stat (tree : FileTree) (path : Path) (followLast : Bool := true) :
    Except OsError (Place × FileEntry) :=
  match tree.locate path followLast with
  | .error e              => .error e
  | .ok (_, none)         => .error .notFound
  | .ok (place, some entry) => .ok (place, entry)

/-- Whether a path leads to a file. -/
def isFile (tree : FileTree) (path : Path) : Bool :=
  match tree.stat path with
  | .ok (_, .file _ _) => true
  | _                  => false

/-- Whether a path leads to a directory. -/
def isDirectory (tree : FileTree) (path : Path) : Bool :=
  match tree.stat path with
  | .ok (_, .directory) => true
  | _                   => false

/-- Whether a path leads anywhere. -/
def exists? (tree : FileTree) (path : Path) : Bool :=
  (tree.stat path).toBool

/-- The content of a file. -/
def read (tree : FileTree) (path : Path) : Except OsError ByteArray :=
  match tree.stat path with
  | .error e                 => .error e
  | .ok (_, .file content _) => .ok content
  | .ok (_, _)               => .error .isDirectory

/-- The size and the time of change of a file. -/
def fingerprint (tree : FileTree) (path : Path) : Option Fingerprint :=
  match tree.stat path with
  | .ok (_, .file content modified) => some ⟨content.size, modified⟩
  | _                               => none

/-! ### Spelled paths -/

/-- Whether a spelled path can only be that of a directory. -/
def demandsDirectory (text : String) : Bool :=
  ['/'].isSuffixOf text.toList || ['/', '.'].isSuffixOf text.toList

/-- What a spelled path leads to. -/
def statText (tree : FileTree) (text : String) : Except OsError (Place × FileEntry) :=
  match tree.stat (Path.ofText text) with
  | .ok (place, .file content modified) =>
    if demandsDirectory text then .error .notDirectory else .ok (place, .file content modified)
  | other                               => other

/-- The text of a file, if there is one. -/
def readText (tree : FileTree) (text : String) : Option String :=
  match tree.statText text with
  | .ok (_, .file content _) => (Text.decode content).toOption
  | _                        => none

/-! ### Changing -/

/-- Puts an entry at a place. -/
def put (tree : FileTree) (place : Place) (entry : FileEntry) : FileTree :=
  { tree with entries :=
      tree.entries.filter (fun e => e.1 ≠ place) ++ [(place, entry)] }

/-- Writes a file. -/
def write (tree : FileTree) (path : Path) (content : ByteArray) : Except OsError FileTree :=
  match tree.locate path with
  | .error e                 => .error e
  | .ok (_, some .directory) => .error .isDirectory
  | .ok (place, _)           =>
    match tree.entryAt place.dropLast with
    | some .directory => .ok (tree.put place (.file content tree.clock))
    | _               => .error .notFound

/-- Writes a text to a file, if that can be done. -/
def writeText (tree : FileTree) (path content : String) : Option FileTree :=
  if demandsDirectory path then none
  else (tree.write (Path.ofText path) content.toUTF8).toOption

/-- Makes one directory unless there is one. A link that leads nowhere stands in the way. -/
def makeDirectory (tree : FileTree) (path : Path) : Except OsError FileTree :=
  match tree.locate path false with
  | .error e          => .error e
  | .ok (place, none) => .ok (tree.put place .directory)
  | .ok (_, some _)   => if tree.isDirectory path then .ok tree else .error .alreadyThere

/-- Makes a directory and those above it. -/
def makeDirectories (tree : FileTree) (path : Path) : Except OsError FileTree :=
  (List.range path.parts.length).foldlM (fun t n =>
    t.makeDirectory ⟨path.parts.take (n + 1)⟩) tree

/-- The tree with as many of a directory and those above it as can be made. -/
def makeDirectoriesFar (tree : FileTree) (path : Path) : FileTree :=
  (List.range path.parts.length).foldl (fun t n =>
    (t.makeDirectory ⟨path.parts.take (n + 1)⟩).toOption.getD t) tree

/-- Makes a link. -/
def link (tree : FileTree) (path : Path) (target : String) : Except OsError FileTree :=
  match tree.locate path false with
  | .error e          => .error e
  | .ok (_, some _)   => .error .alreadyThere
  | .ok (place, none) => .ok (tree.put place (.link target))

/-- Removes an entry and everything below it. -/
def remove (tree : FileTree) (path : Path) : FileTree :=
  match tree.locate path false with
  | .error _      => tree
  | .ok (place, _) =>
    { tree with entries := tree.entries.filter fun e => !place.isPrefixOf e.1 }

end FileTree

end CodeSurvey
