/-
Reading statements from the lines of a script.

One newline at the end of a line is overlooked. The arguments of a sub method are only cut apart here,
while the number of a time or an exit is read as a literal.
-/
import Storyboard.Literal
import Storyboard.Statement
import Storyboard.Text.Blank

namespace Storyboard.Statement

open Text

/-- The number of a sub method and its argument list: three digits or more, and no newline between
the parentheses. -/
def sub? (t : Text) : Option (Text × Text) := do
  let rest ← after? subOpening t
  let digits := rest.takeWhile isDigit
  let list ← after? ['('] (rest.dropWhile isDigit)
  let arguments ← before? callEnding list
  if 3 ≤ digits.length ∧ '\n' ∉ arguments then some (digits, arguments) else none

/-- The code of a macro: one to four hexadecimal digits. -/
def macroCode? (t : Text) : Option Nat := do
  let rest ← after? macroOpening t
  let digits ← before? callEnding rest
  if digits.length ≤ 4 then Number.readHexadecimal? digits else none

/-- What is between an opening and an ending, without white space and not empty. -/
def word? (opening ending t : Text) : Option Text := do
  let rest ← after? opening t
  let word ← before? ending rest
  if word.isEmpty ∨ word.any isBlank then none else some word

def time? : Text → Option Text := word? timeOpening timeEnding

def exit? : Text → Option Text := word? exitOpening callEnding

/-- The largest number of a sub method. -/
def subLimit : Nat := 0x7FFFFFFF

/-- Reads the line that has the given number in its file. -/
def parse (number : Int) (line : Text) : Except Error Statement :=
  let t := withoutFinalNewline line
  match sub? t with
  | some (digits, arguments) => do
    let n ← Literal.readDigits digits
    if subLimit < n then throw (.unsupportedLine line number)
    return sub n (splitArguments arguments)
  | none =>
    match macroCode? t with
    | some code => .ok (runMacro code)
    | none =>
      match time? t with
      | some word => (Literal.readInt word).map time
      | none =>
        match exit? t with
        | some word => (Literal.readInt word).map exit
        | none => .error (.unsupportedLine line number)

/-- Reads lines whose first one has the given number. -/
def parseFrom (number : Int) : List Text → Except Error (List Statement)
  | [] => .ok []
  | line :: lines => return (← parse number line) :: (← parseFrom (number + 1) lines)

/-- Reads the lines of a script. -/
def parseLines (lines : List Text) : Except Error (List Statement) := parseFrom 1 lines

end Storyboard.Statement
