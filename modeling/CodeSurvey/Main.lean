import CodeSurvey.CommandLine.Run

/-!
# The program

Takes a picture of the files that a command can touch, carries the command out on the picture, and
writes back what has changed.
-/

namespace CodeSurvey

/-- The spelling of a place. -/
def placeText (place : Place) : String :=
  "/" ++ String.intercalate "/" place

/-- The place of an absolute path without links. -/
def placeOf (text : String) : Place :=
  (Path.ofText text).parts.filterMap Component.name?

/-- The target of a link that leads nowhere; no file has this name. -/
def nowhere : String := "\x00"

/-- Adds what is at a place to a picture, with everything above it. What is inside a directory is
added too if `deep` says so, and what a link leads to in any case. -/
partial def addPlace (deep : Bool) (place : Place) (picture : FileTree) : IO FileTree := do
  let above ←
    if place.length < 2 then pure picture else addPlace false place.dropLast picture
  if place.isEmpty || (!deep && (above.entryAt place).isSome) then return above
  let path := (← IO.currentDir) / placeText place
  try
    let about ← path.symlinkMetadata
    match about.type with
    | .dir     =>
      let mut inside := above.put place .directory
      if deep then
        for entry in ← path.readDir do
          inside ← addPlace true (place ++ [entry.fileName]) inside
      return inside
    | .symlink =>
      try
        let goal := placeOf (← IO.FS.realPath path).toString
        let linked := above.put place (.link (placeText goal))
        if (linked.entryAt goal).isSome then return linked else addPlace deep goal linked
      catch _ => return above.put place (.link nowhere)
    | _        =>
      return above.put place (.file (← IO.FS.readBinFile path) about.modified.sec.toNat)
  catch _ => return above

/-- Adds what a spelled path can lead to. -/
def addPath (deep : Bool) (text : String) (picture : FileTree) : IO FileTree :=
  let path := Path.ofText text
  let start := if path.parts.head? = some .root then [] else picture.here
  let place := path.parts.foldl (fun p part =>
    match part with
    | .name name => p ++ [name]
    | .up        => p.dropLast
    | _          => p) start
  addPlace deep place picture

/-- The files that a command can touch. -/
def takePicture (command : Command) (picture : FileTree) : IO FileTree := do
  let surveyed (target : Target) : IO FileTree := do
    let found ← addPath true target.path picture
    match target.config with
    | some path => addPath false path found
    | none      => pure found
  match command with
  | .update target | .check target | .cleancode target .. => surveyed target
  | .config output => addPath false (output.getD configFileName) picture

/-- Writes back the entries that are not as they were. -/
def writeBack (before after : FileTree) : IO Unit := do
  for (place, entry) in after.entries do
    match entry, before.entryAt place with
    | .directory, none => IO.FS.createDirAll (placeText place)
    | .file content _, some (.file old _) =>
      if content != old then IO.FS.writeBinFile (placeText place) content
    | .file content _, none => IO.FS.writeBinFile (placeText place) content
    | _, _ => pure ()

end CodeSurvey

open CodeSurvey in
/-- Runs the program. -/
def main (arguments : List String) : IO UInt32 := do
  let started ← IO.monoMsNow
  let here := placeOf (← IO.currentDir).toString
  let request := Request.parse arguments
  let bare ← addPlace false here ⟨[], here, 0⟩
  let picture ←
    match request with
    | .run command => takePicture command bare
    | _            => pure bare
  let outcome := runRequest picture request
  writeBack picture outcome.tree
  let elapsed := ((← IO.monoMsNow) - started) / 10
  (← IO.getStdout).putStr (outcome.output elapsed)
  return outcome.exit.toUInt32
