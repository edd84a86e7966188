/-
Files and folders as a value.

A file system lists its files with their contents, and folders that may be empty; every folder on the
way to a file exists as well. `locate` follows a path down, so that all paths to one place give the
same location. What a location holds is `contents?`, and `put` changes just one location.

Besides there may be devices, which can be read as if they were empty files, and which are none. A name
has at most 255 bytes and a path less than 4096. Looking whether something is there fails only
where these are exceeded.

Links are not modelled, nor anything else by which a location has two names, and no rights to read or write.
A file is written as a whole or not at all: no write stops half-way.
-/
import Storyboard.Error
import Storyboard.Path

namespace Storyboard

structure FileSystem where
  files : List (Path × List UInt8) := []
  folders : List Path := []
  devices : List Path := []

namespace FileSystem

/-- The contents of the file at a location. -/
def contents? (fs : FileSystem) (location : Path) : Option (List UInt8) :=
  (fs.files.find? (·.1 = location)).map (·.2)

/-- There is a folder at a location: a root, the working folder or one above it, a listed one, or one
on the way to something. -/
def hasFolder (fs : FileSystem) (location : Path) : Bool :=
  location.names.all (· == Path.parentName) || fs.folders.contains location
    || fs.files.any (·.1.isBelow location) || fs.folders.any (·.isBelow location)

/-- How many bytes a name may have. -/
def nameLimit : Nat := 255

/-- A path has fewer bytes than this. -/
def pathLimit : Nat := 4096

/-- One name further from a location, which must be a folder. -/
def descend (fs : FileSystem) (shown : String) (location : Path) (name : Text) : Except Error Path :=
  if fs.hasFolder location then
    if nameLimit < Text.utf8Size name then .error (.nameTooLong shown) else .ok (location.step name)
  else if (fs.contents? location).isSome ∨ fs.devices.contains location then .error (.notFolder shown)
  else .error (.fileNotFound shown)

/-- The location that a path leads to, which was written as a text; nothing need be there. -/
def follow (fs : FileSystem) (written : Text) (p : Path) : Except Error Path :=
  if '\x00' ∈ written then .error .zeroInName
  else if pathLimit ≤ Text.utf8Size written then .error (.nameTooLong (.ofList written))
  else p.names.foldlM (fs.descend (.ofList written)) { root := p.root }

/-- The location that a path leads to. -/
def locate (fs : FileSystem) (p : Path) : Except Error Path := fs.follow p.toText p

/-- Whether the location that a path leads to is of a kind; nowhere is of none. -/
def isAt (fs : FileSystem) (p : Path) (kind : Path → Bool) : Except Error Bool :=
  match fs.locate p with
  | .ok location => .ok (kind location)
  | .error (.nameTooLong path) => .error (.nameTooLong path)
  | .error _ => .ok false

/-- There is a file. -/
def isFile (fs : FileSystem) (p : Path) : Except Error Bool :=
  fs.isAt p fun location => !fs.hasFolder location && (fs.contents? location).isSome

/-- There is a folder. -/
def isFolder (fs : FileSystem) (p : Path) : Except Error Bool := fs.isAt p fs.hasFolder

/-- The contents of the file that a path leads to, which was written as a text. -/
def readAs (fs : FileSystem) (written : Text) (p : Path) : Except Error (List UInt8) := do
  let location ← fs.follow written p
  if fs.hasFolder location then throw (.isFolder (.ofList written))
  match fs.contents? location with
  | some bytes => return bytes
  | none => if fs.devices.contains location then return [] else throw (.fileNotFound (.ofList written))

/-- The contents of the file that a path leads to. -/
def read (fs : FileSystem) (p : Path) : Except Error (List UInt8) := fs.readAs p.toText p

/-- The contents of the file that a text leads to; one that asks for a folder leads to none. -/
def readText (fs : FileSystem) (t : Text) : Except Error (List UInt8) := do
  if t.isEmpty then throw (.fileNotFound "")
  let bytes ← fs.readAs t (.ofText t)
  if Path.asksForFolder t then throw (.notFolder (.ofList t)) else return bytes

/-- The list with the contents of one location replaced, or added at its end. -/
def putFile (location : Path) (bytes : List UInt8) :
    List (Path × List UInt8) → List (Path × List UInt8)
  | [] => [(location, bytes)]
  | file :: files =>
    if file.1 = location then (location, bytes) :: files else file :: putFile location bytes files

/-- The file system with other contents at a location. -/
def put (fs : FileSystem) (location : Path) (bytes : List UInt8) : FileSystem :=
  { fs with files := putFile location bytes fs.files }

/-- Writes a file, whose folder must exist. -/
def write (fs : FileSystem) (p : Path) (bytes : List UInt8) : Except Error FileSystem := do
  let location ← fs.locate p
  if fs.hasFolder location then throw (.isFolder p.display)
  return fs.put location bytes

/-- Replaces a file as a whole: its new contents are written beside it under a longer name first. -/
def replace (fs : FileSystem) (p : Path) (bytes : List UInt8) : Except Error FileSystem := do
  let _ ← fs.locate p.temporary
  let location ← fs.locate p
  if p.names.isEmpty ∨ p.name = Path.parentName then throw (.folderInUse p.display)
  if fs.hasFolder location then throw (.isFolder p.display)
  return fs.put location bytes

/-- The names of the files and folders right in a folder, in order. -/
def entryNames (fs : FileSystem) (p : Path) : List Text :=
  match fs.locate p with
  | .error _ => []
  | .ok location =>
    let below := (fs.files.map (·.1) ++ fs.folders).filter (·.isBelow location)
    let names := below.filterMap fun place => place.names[location.names.length]?
    names.eraseDups.mergeSort fun a b => ¬ b < a

theorem find?_putFile_self (location : Path) (bytes : List UInt8) (files : List (Path × List UInt8)) :
    (putFile location bytes files).find? (·.1 = location) = some (location, bytes) := by
  induction files with
  | nil => simp [putFile]
  | cons file files ih =>
    unfold putFile
    split
    · simp
    · next h => simpa [h] using ih

theorem find?_putFile_other {location other : Path} (h : other ≠ location) (bytes : List UInt8)
    (files : List (Path × List UInt8)) :
    (putFile location bytes files).find? (·.1 = other) = files.find? (·.1 = other) := by
  induction files with
  | nil => simp [putFile, Ne.symm h]
  | cons file files ih =>
    unfold putFile
    split
    · next hl => simp [hl, Ne.symm h]
    · simp only [List.find?_cons, ih]

theorem contents?_put_self (fs : FileSystem) (location : Path) (bytes : List UInt8) :
    (fs.put location bytes).contents? location = some bytes := by
  simp only [contents?, put, find?_putFile_self, Option.map_some]

theorem contents?_put_other (fs : FileSystem) {location other : Path} (h : other ≠ location)
    (bytes : List UInt8) : (fs.put location bytes).contents? other = fs.contents? other := by
  simp only [contents?, put, find?_putFile_other h]

end FileSystem
end Storyboard
