import CodeSurvey.Config.Reader
import CodeSurvey.Config.Writer
import CodeSurvey.FileTree

/-!
# Configuration files

Reads configurations from files and writes them.

* `Config.fromFile` reads one file, and `Config.load` the file of a project if it has one.
* `Config.saveTo` writes a file; none is written when the configuration has no text.
  `Config.save` gives the tree only if that succeeds.
-/

namespace CodeSurvey

/-- Why a configuration cannot be saved. -/
inductive SaveError where
  /-- A number is too large for the format. -/
  | unwritable
  /-- The file system refuses. -/
  | refused
deriving DecidableEq

/-- How saving ends: the tree that is left, and why it failed if it did. -/
structure Saving where
  tree    : FileTree
  failure : Option SaveError

/-- The directory that a spelled path puts a file in. -/
def directoryAbove (path : String) : Path :=
  ((Path.ofText path).parent).getD ⟨[]⟩

namespace Config

/-- The configuration in a file. -/
def fromFile (tree : FileTree) (path : String) : Except ConfigError Config :=
  match tree.readText path with
  | none      => .error .unreadable
  | some text => ofText text

/-- The configuration of a project: that of its file, or the defaults. -/
def load (tree : FileTree) (root : String) : Except ConfigError Config :=
  let path := Path.spellBelow root [configFileName]
  let settings :=
    if tree.exists? (Path.ofText path) then fromFile tree path else .ok {}
  settings.map fun config => { config with targetDirectory := root }

/-- Saves the configuration in a file. The directories above the file are made before anything
else, and stay when the rest fails. -/
def saveTo (config : Config) (tree : FileTree) (path : String) : Saving :=
  let above := directoryAbove path
  match tree.makeDirectories above with
  | .error _ => ⟨tree.makeDirectoriesFar above, some .refused⟩
  | .ok made =>
    match config.write with
    | none      => ⟨made, some .unwritable⟩
    | some text =>
      match made.writeText path text with
      | none       => ⟨made, some .refused⟩
      | some after => ⟨after, none⟩

/-- The tree with the configuration in a file. -/
def save (config : Config) (tree : FileTree) (path : String) : Except SaveError FileTree :=
  let saving := config.saveTo tree path
  match saving.failure with
  | some e => .error e
  | none   => .ok saving.tree

end Config

end CodeSurvey
