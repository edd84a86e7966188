/-
Storyboard containers: a header, a table of segments, and the segments themselves.

The header says where the script and the table are, and each table entry where a segment starts. A
segment runs up to the next one of the table. A container keeps all its bytes and, beside them, the
header and the table as they were last read or changed.
-/
import Storyboard.Assembly
import Storyboard.Decoder

namespace Storyboard

/-- The fields of a container's header. -/
structure Header where
  scriptStart : Int := 0
  headerSize : Int := 0
  tableStart : Int := 0
  tableCount : Int := 0
deriving DecidableEq, Repr

/-- An entry of the segment table. -/
structure Segment where
  id : Int
  offset : Int
deriving DecidableEq, Repr

/-- Where the records of the segment at an offset start. -/
def codeStart (offset : Int) : Int := offset + segmentHeaderSize

structure Container where
  header : Header := {}
  segments : List Segment := []
  bytes : List UInt8 := []
deriving DecidableEq

namespace Container

/-- Reads the fields of a header. -/
def readHeader : Streaming Header := do
  Stream.jump headerPosition
  let scriptStart ← Stream.readWord
  let headerSize ← Stream.readWord
  let tableStart ← Stream.readWord
  let tableCount ← Stream.readWord
  return ⟨scriptStart, headerSize, tableStart, tableCount⟩

/-- Reads so many entries of a segment table. -/
def readEntries : Nat → Streaming (List Segment)
  | 0 => return []
  | count + 1 => do
    let id ← Stream.readWord
    let offset ← Stream.readWord
    return ⟨id, offset⟩ :: (← readEntries count)

/-- Reads the segment table that a header points at. -/
def readTable (h : Header) : Streaming (List Segment) := do
  Stream.jump h.tableStart
  readEntries h.tableCount.toNat

/-- The first segment at an offset. -/
def findSegment (c : Container) (offset : Int) : Except Error Nat :=
  match c.segments.findIdx? (·.offset = offset) with
  | some index => .ok index
  | none => .error (.segmentNotFound offset)

/-- Where the segment of an index ends: where the next one starts, or else with the bytes. -/
def segmentEnd (c : Container) (index : Nat) : Int :=
  match c.segments[index + 1]? with
  | some next => next.offset
  | none => c.bytes.length

/-- How many bytes the records and texts of a segment have. -/
def codeLength (c : Container) (index : Nat) : Except Error Int :=
  match c.segments[index]? with
  | some segment => .ok (c.segmentEnd index - codeStart segment.offset)
  | none => .error .noSuchSegment

/-- Decodes the script that the header points at. -/
def transcribe (settings : Settings) (c : Container) : Except Error Transcript :=
  match Decoder.jump (codeStart c.header.scriptStart) (.ofBytes settings c.bytes) with
  | .ok _ d => .ok d.transcribe
  | .error e _ => .error e

/-- Decodes the script that the header points at, where a fault of the storyboard is part of the
result. -/
def decode (settings : Settings) (c : Container) : Except Error Transcript :=
  match Decoder.jump (codeStart c.header.scriptStart) (.ofBytes settings c.bytes) with
  | .ok _ d => d.decode
  | .error e d => if e.isScriptFault then .ok ⟨[], some e, d⟩ else .error e

end Container
end Storyboard
