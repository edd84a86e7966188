/-
Loading and changing a container.

`inject` replaces the records and texts of the script. When that changes the script's size, the
segments behind it move: their own offsets, their text references and their table entries are
corrected. Work that fails keeps what it had changed, in the container as well as in its notices.
-/
import Storyboard.Container

namespace Storyboard

/-- A container that is worked on, and what has been reported about it, latest last. -/
structure Workspace where
  container : Container := {}
  notices : List Notice := []
deriving DecidableEq

namespace Workspace

variable {α : Type}

/-- Work on a container that may fail. -/
abbrev Editing (α : Type) := Attempt Workspace α

def report (n : Notice) : Editing Unit := modify fun w => { w with notices := w.notices ++ [n] }

/-- Works on the bytes, from their start on. -/
def onBytes (work : Streaming α) : Editing α :=
  Attempt.within (fun w => ⟨w.container.bytes, 0⟩)
    (fun w s => { w with container := { w.container with bytes := s.bytes } }) work

/-- Takes over bytes, then the header they have, then their segment table. -/
def load (bytes : List UInt8) : Editing Unit := do
  modify fun w => { w with container := { w.container with bytes } }
  let header ← onBytes Container.readHeader
  modify fun w => { w with container := { w.container with header } }
  report (.loaded header.scriptStart header.tableStart header.tableCount)
  let segments ← onBytes (Container.readTable header)
  modify fun w => { w with container := { w.container with segments } }

/-- Assembles lines for the place of the script. -/
def encode (settings : Settings) (lines : List Text) : Editing (List UInt8) := do
  let (statements, size) ← Attempt.ofExcept (Assembly.measure lines)
  report (.encoding lines.length size)
  let start := codeStart (← get).container.header.scriptStart
  let assembly ← Attempt.ofExcept (Assembly.emit settings start size statements)
  return assembly.toBytes

/-- Moves the text references of the records from `position` on by `change`, up to the record that
leaves the script or to `stop`. Tells how many there were, and where the records ended if none left
the script. -/
def moveReferences (change stop : Int) (position : Nat) : Streaming (Nat × Option Nat) := do
  if _h : position + recordSize ≤ stop then
    Stream.jump position
    let record ← Record.read
    let moved ←
      if record.isTextReference then
        Stream.writeWordAt (position + 8) (record.operand + change)
        pure 1
      else pure 0
    if record.isExit then return (moved, none)
    let (count, unfinished) ← moveReferences change stop (position + recordSize)
    return (moved + count, unfinished)
  else return (0, some position)
  termination_by (stop - position).toNat
  decreasing_by simp only [recordSize] at _h ⊢; omega

/-- Corrects a segment that is about to move: its own offset, with which it starts, and its text
references. -/
def correctSegment (segment : Segment) (stop change : Int) : Editing Unit := do
  let (count, unfinished) ← onBytes do
    let own ← Stream.readWordAt segment.offset
    Stream.writeWordAt segment.offset (own + change)
    Stream.jump (codeStart segment.offset)
    moveReferences change stop (codeStart segment.offset).toNat
  if let some position := unfinished then report (.missingExit segment.id position)
  report (.corrected segment.id count)

/-- Writes a script at a position and zeros behind it up to the alignment. -/
def placeScript (position : Int) (script : List UInt8) : Streaming Unit := do
  Stream.jump position
  Stream.write script
  Stream.pad alignment

/-- Moves the table entry of an index. -/
def moveEntry (change : Int) (index : Nat) : Editing Unit := do
  let c := (← get).container
  match c.segments[index]? with
  | none => return
  | some segment =>
    let offset := segment.offset + change
    let segments := c.segments.set index { segment with offset }
    modify fun w => { w with container := { w.container with segments } }
    onBytes (Stream.writeWordAt (c.header.tableStart + index * tableEntrySize + 4) offset)

/-- Replaces the records and texts of the script; gives how far the segments behind it moved. -/
def inject (script : List UInt8) : Editing Int := do
  let c := (← get).container
  let index ← Attempt.ofExcept (c.findSegment c.header.scriptStart)
  let change := align script.length alignment - (← Attempt.ofExcept (c.codeLength index))
  let start := codeStart c.header.scriptStart
  report (.resizing index ((c.segments[index]?).elim 0 Segment.id) change)
  if change = 0 then
    onBytes (placeScript start script)
    return 0
  let trailing := c.segments.zipIdx.drop (index + 1)
  trailing.forM fun (segment, number) => correctSegment segment (c.segmentEnd number) change
  onBytes do
    let tail ← match trailing with
      | [] => pure []
      | (first, _) :: _ => do
        Stream.jump first.offset
        Stream.read (c.bytes.length - first.offset)
    placeScript start script
    Stream.write tail
    Stream.truncate
  trailing.forM fun (_, number) => moveEntry change number
  return change

end Workspace
end Storyboard
