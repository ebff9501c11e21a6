import CodeSurvey.Config.Basic
import CodeSurvey.Diagnostic
import CodeSurvey.FileTree
import CodeSurvey.Ignore
import CodeSurvey.Source
import CodeSurvey.Text.LowerCase

/-!
# Discovery

Finds the source files of a project, in path order.

Directories are entered in the order of their names. A directory that matches an exclusion pattern,
that holds a virtual environment or that the ignore file names is not entered. A link to a
directory that the walk is inside of is reported and not followed.

* `Discovery` is a configuration made ready to match.
* `Discovery.walk` lists what the walk meets; `Discovery.run` splits it into files and diagnostics.
-/

namespace CodeSurvey

/-! ### Patterns -/

/-- A text without the slashes at its end. -/
def dropSlashesEnd (text : String) : String :=
  String.ofList ((text.toList.reverse.dropWhile (· == '/')).reverse)

/-- A configuration made ready to match. A pattern without a slash is for single names, one with a
slash for paths below the root. -/
structure Discovery where
  config       : Config
  namePatterns : List (List GlobToken)
  pathPatterns : List (List GlobToken)
  testPatterns : List (List GlobToken)
  rules        : List IgnoreRule

namespace Discovery

/-- Prepares a configuration; the rules are those of the ignore file. -/
def ofConfig (config : Config) (rules : List IgnoreRule) : Discovery :=
  let trimmed := config.excludePatterns.map dropSlashesEnd
  { config
    namePatterns := readableGlobs (trimmed.filter fun p => !p.toList.contains '/')
    pathPatterns := readableGlobs (trimmed.filter fun p => p.toList.contains '/')
    testPatterns := readableGlobs config.analysis.testFilePatterns
    rules }

variable (discovery : Discovery)

/-- Whether an exclusion pattern matches a name or a path below the root. -/
def isExcluded (name relative : String) : Bool :=
  matchesAny discovery.namePatterns name || matchesAny discovery.pathPatterns relative

/-- Whether the ignore file names a path below the root. -/
def ignores (names : List String) (isDirectory : Bool) : Bool :=
  !discovery.rules.isEmpty && isIgnored discovery.rules isDirectory names.reverse

/-- Whether a path below the root is that of a test: by its name, or by a directory above it. -/
def isTestPath (path : Path) : Bool :=
  matchesAny discovery.testPatterns (path.fileName.getD "") ||
    match path.parent with
    | none       => false
    | some above => above.parts.any fun
      | .name text => discovery.config.analysis.testDirectories.contains text
      | _          => false

/-! ### Entries -/

/-- What the walk meets: a source file, or something that is left out with a reason. -/
inductive Discovered where
  | file (source : SourceFile)
  | skipped (diagnostic : Diagnostic)

/-- The root as the configuration spells it. -/
def root : String :=
  discovery.config.targetDirectory

/-- The path of an entry, from its names below the root. -/
def pathTo (names : List String) : Path :=
  Path.ofText (Path.spellBelow discovery.root names)

/-- The diagnostic of an entry that cannot be looked at. -/
def walkFailure (names : List String) (error : OsError) : Diagnostic :=
  let file := if names.isEmpty then "." else String.intercalate "/" names
  let path := Path.spellBelow discovery.root names
  .ofFailure (.io file s!"IO error for operation on {path}: {error.text}")

/-- Whether a directory is not entered. -/
def isPruned (tree : FileTree) (names : List String) : Bool :=
  discovery.isExcluded (names.getLastD "") (String.intercalate "/" names) ||
    tree.isFile ((discovery.pathTo names).child "pyvenv.cfg") ||
    discovery.ignores names true

/-- The source file of an entry, or the diagnostic of one that is too large. -/
def fileEntry (names : List String) (size : Nat) : Option Discovered :=
  let path := Path.ofNames names
  let relative := String.intercalate "/" names
  if discovery.isExcluded (names.getLastD "") relative || discovery.ignores names false then none
  else
    let extension := path.extension.map Text.lower
    match extension with
    | none     => none
    | some ext =>
      if !discovery.config.fileExtensions.contains ext then none
      else if discovery.config.maxFileSize < size then
        some (.skipped (.skipped relative
          s!"{size} bytes exceeds max_file_size {discovery.config.maxFileSize}"))
      else some (.file
        { location := discovery.pathTo names
          path
          size
          language := .ofExtension extension
          isTest   := discovery.isTestPath path })

/-! ### The walk -/

/-- The entries below a directory at a place, in order. `above` are the directories that the walk
is inside of, the innermost first, with their names below the root. The fuel bounds the depth. -/
def walkFrom (tree : FileTree) : Nat → List (Place × List String) → Place → List String →
    List Discovered
  | 0, _, _, _                        => []
  | fuel + 1, above, place, names =>
    let inside := (place, names) :: above
    (tree.namesIn place).flatMap fun name =>
      let inner := names ++ [name]
      let enter (target : Place) : List Discovered :=
        if discovery.isPruned tree inner then [] else walkFrom tree fuel inside target inner
      match tree.entryAt (place ++ [name]) with
      | none                   => []
      | some .directory        => enter (place ++ [name])
      | some (.file content _) => (discovery.fileEntry inner content.size).toList
      | some (.link _)         =>
        if !discovery.config.followLinks then []
        else
          match tree.follow true 40 place [.name name] with
          | .error e                          => [.skipped (discovery.walkFailure inner e)]
          | .ok (_, none)                     => [.skipped (discovery.walkFailure inner .notFound)]
          | .ok (_, some (.file content _))   => (discovery.fileEntry inner content.size).toList
          | .ok (_, some (.link _))           => []
          | .ok (target, some .directory)     =>
            match inside.find? fun (ancestor, _) => ancestor = target with
            | some (_, ancestor) =>
              [.skipped (.ofFailure (.linkCycle (String.intercalate "/" inner)
                (String.intercalate "/" ancestor)))]
            | none => enter target

/-- How deep the walk can get: each link that it follows leads to a directory it is not inside of,
and between two links it goes down step by step. -/
def depthBound (tree : FileTree) : Nat :=
  let longest := tree.directories.foldl (fun depth place => max depth place.length) 0
  (tree.directories.length + 2) * (longest + 2)

/-- Everything the walk meets, in path order. -/
def walk (tree : FileTree) : List Discovered :=
  match tree.statText discovery.root with
  | .error e                 => [.skipped (discovery.walkFailure [] e)]
  | .ok (place, .directory)  => discovery.walkFrom tree (depthBound tree) [] place []
  | .ok _                    => []

/-- The source files and the diagnostics of the walk. -/
def run (tree : FileTree) : List SourceFile × List Diagnostic :=
  let met := discovery.walk tree
  (met.filterMap fun
    | .file source => some source
    | .skipped _   => none,
   met.filterMap fun
    | .file _             => none
    | .skipped diagnostic => some diagnostic)

end Discovery

/-- The rules of the ignore file in a directory, if it is respected. -/
def ignoreRules (tree : FileTree) (config : Config) : List IgnoreRule :=
  let path := Path.ofText (Path.spellBelow config.targetDirectory [".gitignore"])
  if config.respectGitignore then
    match tree.read path with
    | .ok content => readIgnoreFile content
    | .error _    => []
  else []

/-- The discovery of a configuration in a file tree. -/
def discoveryFor (tree : FileTree) (config : Config) : Discovery :=
  .ofConfig config (ignoreRules tree config)

/-! ### Statistics -/

/-- Source files in numbers. -/
structure FileStats where
  totalFiles : Nat
  totalSize  : Nat
  testFiles  : Nat
  languages  : List (String × Nat)
deriving DecidableEq

/-- Counts source files. -/
def fileStats (files : List SourceFile) : FileStats :=
  let names := files.map fun file => file.language.name
  { totalFiles := files.length
    totalSize  := (files.map SourceFile.size).foldr (· + ·) 0
    testFiles  := files.countP SourceFile.isTest
    languages  := (sortedSet compare names).map fun name => (name, names.count name) }

end CodeSurvey
