/-
Method records and the instructions they stand for.

A record is three words: an operation, its variant and an operand. `Instruction` has the operations
that the script machine knows; `Record.instruction?` reads a record as one and
`Instruction.toRecord` writes it.
-/
import Storyboard.Layout
import Storyboard.Stream

namespace Storyboard

/-- One step of a script as it is stored. -/
structure Record where
  operation : Int
  variant : Int := 0
  operand : Int := 0
deriving DecidableEq, Repr

/-- What the script machine can do. -/
inductive Instruction where
  /-- Ends the records of a segment. -/
  | finish
  | pushInt (v : Int)
  /-- Pushes the four-byte number with these bits. -/
  | pushFloat (bits : Int)
  /-- Pushes the text stored at this operand. -/
  | pushText (operand : Int)
  | pushTrue
  | pushNull
  | pushCode (v : Int)
  /-- Consumes a code: waits for a time when it is zero, else runs a macro. -/
  | call
  | exit
  /-- Consumes one argument fewer than `count`, and a descriptor. -/
  | callSub (count : Int)
deriving DecidableEq, Repr

namespace Instruction

def toRecord : Instruction → Record
  | finish => ⟨0x00, 0, 0⟩
  | pushInt v => ⟨0x03, 1, v⟩
  | pushFloat bits => ⟨0x03, 2, bits⟩
  | pushText operand => ⟨0x03, 3, operand⟩
  | pushTrue => ⟨0x06, 0, 0⟩
  | pushNull => ⟨0x0B, 0, 0⟩
  | pushCode v => ⟨0x13, 0, v⟩
  | call => ⟨0x04, 0, 0⟩
  | exit => ⟨0x0F, 0, 0⟩
  | callSub count => ⟨0x15, count, 0⟩

end Instruction

namespace Record

/-- The instruction a record stands for; only pushes and calls of sub methods look at more than
the operation. -/
def instruction? (r : Record) : Option Instruction :=
  if r.operation = 0x00 then some .finish
  else if r.operation = 0x03 then
    if r.variant = 1 then some (.pushInt r.operand)
    else if r.variant = 2 then some (.pushFloat r.operand)
    else if r.variant = 3 then some (.pushText r.operand)
    else none
  else if r.operation = 0x06 then some .pushTrue
  else if r.operation = 0x0B then some .pushNull
  else if r.operation = 0x13 then some (.pushCode r.operand)
  else if r.operation = 0x04 then some .call
  else if r.operation = 0x0F then some .exit
  else if r.operation = 0x15 then some (.callSub r.variant)
  else none

/-- The record ends a segment's records. -/
def isSentinel (r : Record) : Bool := r.operation == 0x00

/-- The record leaves the script. -/
def isExit (r : Record) : Bool := r.operation == 0x0F

/-- The record's operand says where a text is. -/
def isTextReference (r : Record) : Bool := r.operation == 0x03 && r.variant == 3

theorem instruction?_toRecord (i : Instruction) : i.toRecord.instruction? = some i := by
  cases i <;> rfl

/-- Reads the next record, word by word; where there is less than a record, the position goes behind
what is there. -/
def read : Streaming Record := fun s =>
  match s.rest with
  | a₀ :: a₁ :: a₂ :: a₃ :: b₀ :: b₁ :: b₂ :: b₃ :: c₀ :: c₁ :: c₂ :: c₃ :: _ =>
    .ok ⟨Word.ofBytes a₀ a₁ a₂ a₃, Word.ofBytes b₀ b₁ b₂ b₃, Word.ofBytes c₀ c₁ c₂ c₃⟩
      { s with position := s.position + recordSize }
  | short =>
    let words := short.length / 4
    .error (.endOfStream (s.position + 4 * words) 4 (short.length - 4 * words))
      { s with position := s.position + short.length }

/-- A record that was read is behind the position, all of it. -/
theorem read_eq_ok {s s' : Stream} {r : Record} (h : read s = .ok r s') :
    s' = { s with position := s.position + recordSize } ∧ s.position + recordSize ≤ s.bytes.length := by
  unfold read at h
  split at h
  · next hrest =>
    injection h with _ hs
    have hlen := congrArg List.length hrest
    simp only [Stream.rest, List.length_drop, List.length_cons] at hlen
    refine ⟨hs.symm, ?_⟩
    simp only [recordSize]
    omega
  · contradiction

/-- Writes a record. -/
def write (r : Record) : Streaming Unit := do
  Stream.writeWord r.operation
  Stream.writeWord r.variant
  Stream.writeWord r.operand

/-- Reads records up to the end of the bytes. -/
def readAll : Streaming (List Record) := fun s =>
  if s.bytes.length ≤ s.position then .ok [] s
  else match _hread : read s with
    | .error e s => .error e s
    | .ok r next => match readAll next with
      | .ok rs s => .ok (r :: rs) s
      | .error e s => .error e s
  termination_by s => s.bytes.length - s.position
  decreasing_by
    obtain ⟨rfl, hle⟩ := read_eq_ok _hread
    simp only [recordSize] at hle ⊢
    omega

/-- Writes records one after another. -/
def writeAll (rs : List Record) : Streaming Unit := rs.forM write

/-- The bytes of a record, each of whose numbers must fit a word. -/
def toBytes (r : Record) : Except Error (List UInt8) :=
  if Word.Fits r.operation ∧ Word.Fits r.variant ∧ Word.Fits r.operand then
    .ok (Word.toBytes r.operation ++ Word.toBytes r.variant ++ Word.toBytes r.operand)
  else .error .wordOverflow

end Record
end Storyboard
