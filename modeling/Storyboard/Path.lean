/-
Paths: a root or none, and the names on the way.

A path is read with its empty and one-dot names left out, and shown with one slash between the names.
The suffix of a name is what its last dot starts, unless that is its first or last character.
-/
import Storyboard.Text

namespace Storyboard

/-- Where a file or a folder is. The root has a slash, or two of them, for a path that does not
start from the working folder. -/
structure Path where
  root : Text := []
  names : List Text := []
deriving DecidableEq

namespace Path

/-- The name of the folder above. -/
def parentName : Text := ['.', '.']

/-- Two slashes are a root of their own, and three or more the same as one. -/
def readRoot (t : Text) : Text :=
  match (t.takeWhile (· = '/')).length with
  | 0 => []
  | 2 => ['/', '/']
  | _ => ['/']

def ofText (t : Text) : Path where
  root := readRoot t
  names := (t.splitOnP (· = '/')).filter fun name => !(name.isEmpty || name == ['.'])

def toText (p : Path) : Text :=
  if p.root.isEmpty ∧ p.names.isEmpty then ['.'] else p.root ++ ['/'].intercalate p.names

def display (p : Path) : String := String.ofList p.toText

/-- A path as text asks for a folder when it ends in a slash, or in a dot that is a name of its
own. -/
def asksForFolder (t : Text) : Bool :=
  let ending := (t.reverse.takeWhile (· ≠ '/')).reverse
  !t.isEmpty && (ending.isEmpty || ending == ['.'])

/-- The last name; the working folder and roots have an empty one. -/
def name (p : Path) : Text := p.names.getLast?.getD []

/-- The same path with another last name. -/
def withName (p : Path) (name : Text) : Path := { p with names := p.names.dropLast ++ [name] }

/-- The name under which new contents of a file are written beside it, before they take its place. -/
def temporaryName (name : Text) : Text :=
  '.' :: name ++ ['.', 'x', 'x', 'x', 'x', 'x', 'x', 'x', 'x', '.', 't', 'm', 'p']

/-- The path of something in this folder. -/
def child (p : Path) (name : Text) : Path := { p with names := p.names ++ [name] }

/-- One name further from a location, where two dots lead back up. -/
def step (location : Path) (name : Text) : Path :=
  if name = parentName ∧ location.names ≠ [] ∧ location.name ≠ parentName then
    { location with names := location.names.dropLast }
  else location.child name

/-- The location that a path leads to if all folders on its way exist. -/
def location (p : Path) : Path := p.names.foldl step { root := p.root }

/-- The location of the file beside this one that has its new contents first. -/
def temporary (p : Path) : Path := (location { p with names := p.names.dropLast }).child (temporaryName p.name)

/-- A name without its suffix, and the suffix with its dot. -/
def splitSuffix (name : Text) : Text × Text :=
  let tail := (name.reverse.takeWhile (· ≠ '.')).reverse
  let stem := name.take (name.length - tail.length - 1)
  if tail.isEmpty ∨ stem.isEmpty then (name, []) else (stem, '.' :: tail)

/-- The suffix of the last name, with its dot; empty if there is none. -/
def suffix (p : Path) : Text := (splitSuffix p.name).2

/-- The path without the suffix of its last name. -/
def withoutSuffix (p : Path) : Path := p.withName (splitSuffix p.name).1

/-- The path lies somewhere below a folder. -/
def isBelow (p folder : Path) : Bool :=
  p.root == folder.root && folder.names.isPrefixOf p.names && folder.names != p.names

end Path
end Storyboard
