/-
The command line tool. It takes a picture of the files that its path may concern, works on the
picture, and writes back the files that changed.
-/
import Storyboard.Batch
import Storyboard.CommandLine

namespace Storyboard.Tool

/-- The folders on the way to a path, and the path itself if it is one. -/
def foldersOnWay (p : Path) : IO (List Path) := do
  let ways := (List.range (p.names.length + 1)).map fun n => { p with names := p.names.take n }
  ways.filterM fun way => do
    try (← IO.FS.realPath way.display).isDir
    catch _ => return false

/-- The files and folders right in a folder. -/
def picture (folder : Path) : IO FileSystem := do
  let entries ← (← IO.FS.realPath folder.display).readDir
  let mut files := []
  let mut folders := []
  for entry in entries do
    let place := folder.location.child entry.fileName.toList
    if ← entry.path.isDir then folders := place :: folders
    else
      let bytes ← IO.FS.readBinFile entry.path
      files := (place, bytes.toList) :: files
  return { files, folders }

/-- What a path may concern: the folder it is, or else the folder it is in. -/
def surroundings (p : Path) : IO FileSystem := do
  let folders ← foldersOnWay p
  let folder := if folders.contains p then p else { p with names := p.names.dropLast }
  let inside ← if folders.contains folder then picture folder else pure {}
  return { inside with folders := folders.map Path.location ++ inside.folders }

/-- Writes the files that are not as they were before. -/
def writeChanges (before after : FileSystem) : IO Unit :=
  after.files.forM fun (place, bytes) => do
    if before.contents? place ≠ some bytes then
      IO.FS.writeBinFile place.temporary.display (ByteArray.mk bytes.toArray)
      IO.FS.rename place.temporary.display place.display

def usage : String :=
  "usage: [-h] [--encoding ENCODING] [--scan-limit SCAN_LIMIT] [-v] path"

/-- Does what the arguments ask for and gives the exit code. -/
def serve (arguments : List String) : IO UInt32 := do
  match CommandLine.parse (arguments.map String.toList) with
  | .help =>
    IO.println usage
    return 0
  | .rejected =>
    IO.eprintln usage
    return 2
  | .run request =>
    let p := Path.ofText request.path
    let before ← surroundings p
    let result := Session.run request.settings p { files := before }
    let session := Attempt.final result
    writeChanges before session.files
    (session.log request.verbose).forM fun line => IO.eprintln line
    match Attempt.outcome result with
    | .ok code => return UInt32.ofNat code
    | .error e =>
      IO.eprintln e.message
      return 1

end Storyboard.Tool

def main (arguments : List String) : IO UInt32 := Storyboard.Tool.serve arguments
