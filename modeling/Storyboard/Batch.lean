/-
Working on a file, or on all storyboards and texts of a folder.

In a folder, a storyboard whose text is there too is not decoded, whatever the case of their letters,
since the text is going to be injected. A file that fails is reported, and the next one is taken.
-/
import Storyboard.Storage
import Storyboard.Text.LetterCase

namespace Storyboard.Session

/-- What a path's suffix says is to be done. -/
inductive Task where
  | decode
  | inject
deriving DecidableEq, Repr

/-- Storyboards are decoded and texts are injected, whatever the case of the suffix. -/
def task? (p : Path) : Option Task :=
  let suffix := Text.lowercase p.suffix
  if suffix = ['.', 's', 't', 'b'] then some .decode
  else if suffix = textSuffix then some .inject
  else none

/-- Works on one file and tells whether that went well; files of other kinds are left alone. -/
def processFile (settings : Settings) (p : Path) : Working Bool := fun s =>
  let work := match task? p with
    | some .decode => decodeFile settings p
    | some .inject => injectFile settings p
    | none => pure ()
  match work s with
  | .ok _ s => .ok true s
  | .error e s =>
    if e.failsFile then (do report (.failed p.display e); return false : Working Bool) s
    else .error e s

/-- The text that would be decoded from a storyboard is among the files. -/
def hasText (files : List Path) (p : Path) : Bool :=
  (files.map fun file => Text.lowercase file.name).contains (Text.lowercase (p.name ++ textSuffix))

/-- The storyboard's text is injected instead of decoding it. -/
def isSkipped (files : List Path) (p : Path) : Bool :=
  task? p = some .decode && hasText files p

/-- Those paths at which there is a storyboard or a text. -/
def supportedAmong (files : FileSystem) : List Path → Except Error (List Path)
  | [] => .ok []
  | p :: paths => do
    let supported := (← files.isFile p) && (task? p).isSome
    let others ← supportedAmong files paths
    return if supported then p :: others else others

/-- The storyboards and texts of a folder, in the order of their names. -/
def supportedFiles (files : FileSystem) (folder : Path) : Except Error (List Path) :=
  supportedAmong files ((files.entryNames folder).map folder.child)

/-- The files that a path stands for: itself, or the storyboards and texts of a folder. -/
def collectFiles (p : Path) : Working (Option (List Path)) := do
  let files := (← get).files
  if ← Attempt.ofExcept (files.isFolder p) then
    let supported ← Attempt.ofExcept (supportedFiles files p)
    (supported.filter (isSkipped supported)).forM fun q => report (.skipped (.ofList q.name))
    return some (supported.filter fun q => !isSkipped supported q)
  else if ← Attempt.ofExcept (files.isFile p) then return some [p]
  else
    report (.noInput p.display)
    return none

/-- Works on files in order and counts those that fail. -/
def processAll (settings : Settings) : List Path → Working Nat
  | [] => return 0
  | p :: files => do
    let succeeded ← processFile settings p
    let failures ← processAll settings files
    return (if succeeded then 0 else 1) + failures

/-- Works on what a path stands for and gives the exit code: 0 if all went well, 1 if a file
failed, and 2 if there is nothing at the path. -/
def run (settings : Settings) (p : Path) : Working Nat := do
  match ← collectFiles p with
  | none => return 2
  | some files =>
    let failures ← processAll settings files
    if failures = 0 then return 0
    report (.someFailed failures files.length)
    return 1

/-- The lines of the log; without `verbose` those of the lowest level are left out. -/
def log (verbose : Bool) (s : Session) : List String :=
  (s.notices.filter fun n => verbose || n.level ≠ .debug).map Notice.line

end Storyboard.Session
