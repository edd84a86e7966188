/-
Decoding: a script machine runs over the records of a segment and gives the statements that its
instructions amount to.

`execute` takes one record and `transcribe` all of them up to the sentinel. Taking a record leaves
the stream as it was, texts being looked at elsewhere (`final_execute`), so each record is read right
behind the one before it and the run ends with the bytes.
-/
import Storyboard.Notice
import Storyboard.Stack

namespace Storyboard

/-- A script machine: the bytes it reads and its stack. -/
structure Decoder where
  settings : Settings
  stream : Stream
  stack : Stack := []

/-- What a run gave: the statements up to its end, the failure that ended it unless a sentinel
did, and the machine as it was then. -/
structure Transcript where
  statements : List Statement
  failure : Option Error
  machine : Decoder

namespace Transcript

/-- The values that were left on the stack, the top first. -/
def leftover (t : Transcript) : Stack := t.machine.stack

/-- A run that a sentinel ends is expected to leave nothing on the stack. -/
def notices (t : Transcript) : List Notice :=
  if t.failure.isNone ∧ t.leftover ≠ [] then [.valuesLeft t.leftover.length] else []

/-- The statements as lines. -/
def lines (t : Transcript) : List Text := t.statements.map Statement.render

/-- Puts a statement in front, if there is one. -/
def prepend (statement : Option Statement) (t : Transcript) : Transcript :=
  { t with statements := statement.toList ++ t.statements }

end Transcript

namespace Decoder

variable {α : Type}

/-- Work on a script machine that may fail. -/
abbrev Running (α : Type) := Attempt Decoder α

/-- A machine at the start of some bytes. -/
def ofBytes (settings : Settings) (bytes : List UInt8) : Decoder := ⟨settings, ⟨bytes, 0⟩, []⟩

def onStream (work : Streaming α) : Running α :=
  Attempt.within stream (fun d s => { d with stream := s }) work

def onStack (work : Stacking α) : Running α :=
  Attempt.within stack (fun d s => { d with stack := s }) work

/-- Goes to a position. -/
def jump (target : Int) : Running Unit := onStream (Stream.jump target)

/-- The text that the operand of a record refers to. -/
def readOperand (operand : Int) : Running Text := fun d =>
  onStream (Stream.readTextAt d.settings (operand + textOperandBias)) d

/-- Takes one record, which was read at `position`; gives a statement when that is complete. -/
def execute (record : Record) (position : Int) : Running (Option Statement) :=
  match record.instruction? with
  | some (.pushText operand) => do
    onStack (Stack.push (.text (← readOperand operand)))
    return none
  | _ => onStack (Stack.perform record position)

theorem final_execute (record : Record) (position : Int) (d : Decoder) :
    (Attempt.final (execute record position d)).stream = d.stream := by
  have hstack : (Attempt.final (onStack (Stack.perform record position) d)).stream = d.stream := by
    simp only [onStack, Attempt.final_within]
  unfold execute
  rcases record.instruction? with _ | i
  · exact hstack
  · cases i with
    | pushText operand =>
      have hread : (Attempt.final (readOperand operand d)).stream = d.stream := by
        simp only [readOperand, onStream, Attempt.final_within, Stream.final_readTextAt]
      show (Attempt.final (EStateM.bind _ _ d)).stream = _
      unfold EStateM.bind
      cases h : readOperand operand d with
      | ok t d' =>
        rw [h] at hread
        exact hread
      | error e d' =>
        rw [h] at hread
        exact hread
    | _ => exact hstack

/-- Runs up to the sentinel or a failure. -/
def transcribe (d : Decoder) : Transcript :=
  match _hread : onStream Record.read d with
  | .error e d' => ⟨[], some e, d'⟩
  | .ok record d' =>
    if record.isSentinel then ⟨[], none, d'⟩
    else match _hrun : execute record d.stream.position d' with
      | .error e d'' => ⟨[], some e, d''⟩
      | .ok statement d'' => (transcribe d'').prepend statement
  termination_by d.stream.bytes.length - d.stream.position
  decreasing_by
    have hstream : d''.stream = d'.stream := by
      have := final_execute record d.stream.position d'
      rwa [_hrun] at this
    have hd' : d'.stream = (Attempt.final (Record.read d.stream)) := by
      have := congrArg Attempt.final _hread
      simp only [onStream, Attempt.final_within, Attempt.final_ok] at this
      rw [← this]
    cases hr : Record.read d.stream with
    | error e s => simp [onStream, Attempt.within, hr] at _hread
    | ok r s =>
      obtain ⟨rfl, hle⟩ := Record.read_eq_ok hr
      rw [hstream, hd', hr]
      simp only [Attempt.final_ok, recordSize] at hle ⊢
      omega

/-- A run whose failure does not lie in the storyboard is a failure itself. -/
def decode (d : Decoder) : Except Error Transcript :=
  let t := d.transcribe
  match t.failure with
  | some e => if e.endsDecoding then .ok t else .error e
  | none => .ok t

/-- Goes to the script that the header of a storyboard points at. -/
def openScript : Running Unit := do
  let start ← onStream (Stream.readWordAt headerPosition)
  jump (start + segmentHeaderSize)

/-- Runs the script that the header of a storyboard points at. -/
def transcribeBytes (settings : Settings) (bytes : List UInt8) : Except Error Transcript :=
  match openScript (ofBytes settings bytes) with
  | .ok _ d => .ok d.transcribe
  | .error e _ => .error e

/-- Decodes the script that the header of a storyboard points at. -/
def decodeBytes (settings : Settings) (bytes : List UInt8) : Except Error Transcript :=
  match openScript (ofBytes settings bytes) with
  | .ok _ d => d.decode
  | .error e d => if e.isScriptFault then .ok ⟨[], some e, d⟩ else .error e

end Decoder
end Storyboard
