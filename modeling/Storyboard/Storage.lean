/-
Storyboards in files: decoding one to text, injecting text or a script into one, and copying one.

Work goes on in a session, which has the files and what has been reported so far. A file is only
written as the last step, with everything that can fail behind it.
-/
import Storyboard.Container.Editing
import Storyboard.FileSystem
import Storyboard.Text.Lines

namespace Storyboard

/-- Files that are worked on, and what has been reported, latest last. -/
structure Session where
  files : FileSystem := {}
  notices : List Notice := []

namespace Session

variable {α : Type}

/-- Work on files that may fail. -/
abbrev Working (α : Type) := Attempt Session α

def report (n : Notice) : Working Unit := modify fun s => { s with notices := s.notices ++ [n] }

def readFile (p : Path) : Working (List UInt8) := do Attempt.ofExcept ((← get).files.read p)

def writeFile (p : Path) (bytes : List UInt8) : Working Unit := do
  let files ← Attempt.ofExcept ((← get).files.write p bytes)
  modify fun s => { s with files }

/-- Writes the new contents of a storyboard, which take the place of the old ones as a whole. -/
def saveStoryboard (p : Path) (bytes : List UInt8) : Working Unit := do
  let files ← Attempt.ofExcept ((← get).files.replace p bytes)
  modify fun s => { s with files }

/-- Fails unless there is a file at the path of a storyboard. -/
def requireStoryboard (p : Path) : Working Unit := do
  if !(← Attempt.ofExcept ((← get).files.isFile p)) then throw (.companionMissing p.display)

/-- Works on a container of its own and gives it with the result. -/
def onContainer (work : Workspace.Editing α) : Working (α × Container) := fun s =>
  match work { notices := s.notices } with
  | .ok a w => .ok (a, w.container) { s with notices := w.notices }
  | .error e w => .error e { s with notices := w.notices }

/-- Changes the storyboard in a file, which must be there. -/
def changeStoryboard (p : Path) (work : Workspace.Editing α) : Working α := do
  requireStoryboard p
  let bytes ← readFile p
  let (a, container) ← onContainer do
    Workspace.load bytes
    work
  saveStoryboard p container.bytes
  return a

/-- Replaces the script of a storyboard; gives how far the segments behind it moved. -/
def injectScript (p : Path) (script : List UInt8) : Working Int :=
  changeStoryboard p (Workspace.inject script)

/-- Replaces the script of a storyboard by lines. -/
def injectLines (settings : Settings) (p : Path) (lines : List Text) : Working Int :=
  changeStoryboard p do Workspace.inject (← Workspace.encode settings lines)

/-- Copies a storyboard, which must be a valid one, from where a text leads to. -/
def copyStoryboard (source : Text) (target : Path) : Working Unit := do
  let bytes ← Attempt.ofExcept ((← get).files.readText source)
  let (_, container) ← onContainer (Workspace.load bytes)
  saveStoryboard target container.bytes

/-- The text of a storyboard stands beside it, with this added to the name. -/
def textSuffix : Text := ['.', 't', 'x', 't']

/-- Decodes a storyboard to the text file beside it. -/
def decodeFile (settings : Settings) (p : Path) : Working Unit := do
  let bytes ← readFile p
  let (_, container) ← onContainer (Workspace.load bytes)
  let transcript ← Attempt.ofExcept (container.decode settings)
  transcript.notices.forM report
  if let some e := transcript.failure then throw e
  let output := p.withName (p.name ++ textSuffix)
  writeFile output (Encoding.Utf8.encode (Text.ofLines transcript.lines))
  report (.decoded (.ofList p.name) transcript.statements.length (.ofList output.name))

/-- The lines of a text file, which is in UTF-8. -/
def readLines (p : Path) : Working (List Text) := do
  match Encoding.Utf8.decode 0 (← readFile p) with
  | .ok t => return Text.fileLines t
  | .error fault => throw (.undecodable fault)

/-- Injects a text file into the storyboard beside it, which has its name without the suffix. -/
def injectFile (settings : Settings) (p : Path) : Working Unit := do
  let storyboard := p.withoutSuffix
  requireStoryboard storyboard
  let change ← injectLines settings storyboard (← readLines p)
  report (.injected (.ofList p.name) (.ofList storyboard.name) change)

end Session
end Storyboard
