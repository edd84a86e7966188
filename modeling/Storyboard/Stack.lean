/-
The stack of the script machine, and what each instruction does with it.

A value that is popped stays popped, also when it turns out to be the wrong one.
-/
import Storyboard.Instruction
import Storyboard.Literal
import Storyboard.Statement

namespace Storyboard

/-- The values of the script machine, the top first. -/
abbrev Stack := List Value

/-- Work on a stack that may fail. -/
abbrev Stacking (α : Type) := Attempt Stack α

/-- Fractions are shown with so many decimal places. -/
def fractionPlaces : Nat := 4

/-- The argument that a value is shown as: whole numbers in decimal, finite fractions with four
places, texts in double quotes as they are. -/
def Value.argument : Value → Except Error Text
  | .float32 x =>
    if x.isFinite then .ok (x.fixed fractionPlaces)
    else .error (.unexpectedValue .finiteFloat (.float32 x))
  | .int32 v => .ok (Number.integer v)
  | .text t => .ok ('"' :: t ++ ['"'])
  | v => .error (.unexpectedValue .argument v)

namespace Stack

variable {α : Type}

def push (v : Value) : Stacking Unit := modify (v :: ·)

def pop : Stacking Value
  | [] => .error .emptyStack []
  | v :: s => .ok v s

/-- Pops a value and looks at it as one of a given kind. -/
def popAs (kind : Value.Kind) (view : Value → Option α) : Stacking α := do
  let v ← pop
  match view v with
  | some a => return a
  | none => throw (.unexpectedValue (.kind kind) v)

def popInt32 : Stacking Int := popAs .int32 Value.int32?

def popUInt16 : Stacking Nat := popAs .uint16 Value.uint16?

/-- Pops values until `needed` of them are arguments, in the order they were pushed; a null marks
the next argument below it. -/
def popArguments : (needed : Nat) → (marked : Bool) → (found : List Text) → Stacking (List Text)
  | 0, _, found, s => .ok found s
  | _ + 1, _, _, [] => .error .emptyStack []
  | needed + 1, marked, found, v :: s =>
    if v = .null then popArguments (needed + 1) true found s
    else match v.argument with
      | .error e => .error e s
      | .ok t => popArguments needed false ((if marked then t ++ [Literal.mark] else t) :: found) s

/-- Pops the description of a sub method: true, its number and the marker, the top first. -/
def popDescriptor : Stacking Int
  | .bool true :: .int32 number :: .int32 marker :: s =>
    if marker = descriptorMarker then .ok number s
    else .error (.malformedDescriptor [.bool true, .int32 number, .int32 marker]) s
  | a :: b :: c :: s => .error (.malformedDescriptor [a, b, c]) s
  | _ => .error .emptyStack []

/-- Takes the instruction of a record at a position; pushing a text needs the bytes around it and
is left to who has them. -/
def perform (record : Record) (position : Int) : Stacking (Option Statement) :=
  match record.instruction? with
  | some (.pushInt v) => do push (.int32 v); return none
  | some (.pushFloat bits) => match Number.Binary.ofWord? bits with
    | some x => do push (.float32 x); return none
    | none => throw .wordOverflow
  | some .pushTrue => do push (.bool true); return none
  | some .pushNull => do push .null; return none
  | some (.pushCode v) => do push (.ofCode v); return none
  | some .call => do
    let code ← popUInt16
    if code = 0 then return some (.time (← popInt32)) else return some (.runMacro code)
  | some .exit => do return some (.exit (← popInt32))
  | some (.callSub count) => do
    let arguments ← popArguments (count - 1).toNat false []
    return some (.sub (← popDescriptor) arguments)
  | some .finish | some (.pushText _) | none =>
    throw (.unsupportedRecord record.operation record.variant position)

end Stack
end Storyboard
