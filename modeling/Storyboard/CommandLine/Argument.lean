/-
What one argument of the command line is, by itself: a value, an option, or the two dashes behind
which nothing is an option.
-/
import Storyboard.Text.Digit

namespace Storyboard.CommandLine

open Text

/-- The options. -/
inductive Switch where
  | help
  | encoding
  | scanLimit
  | verbose
deriving DecidableEq, Repr

/-- The options that a value follows. -/
def Switch.takesValue : Switch → Bool
  | .encoding | .scanLimit => true
  | .help | .verbose => false

/-- The long names of options, with their dashes. -/
def longNames : List (Text × Switch) := [
  (['-', '-', 'h', 'e', 'l', 'p'], .help),
  (['-', '-', 'e', 'n', 'c', 'o', 'd', 'i', 'n', 'g'], .encoding),
  (['-', '-', 's', 'c', 'a', 'n', '-', 'l', 'i', 'm', 'i', 't'], .scanLimit),
  (['-', '-', 'v', 'e', 'r', 'b', 'o', 's', 'e'], .verbose)]

/-- The option of one letter. -/
def letter? : Char → Option Switch
  | 'h' => some .help
  | 'v' => some .verbose
  | _ => none

/-- The option with exactly this name, and whether the name is a letter. -/
def named? (t : Text) : Option (Switch × Bool) :=
  match t with
  | ['-', c] => (letter? c).map (·, true)
  | _ => (longNames.find? (·.1 = t)).map fun entry => (entry.2, false)

/-- The two dashes behind which nothing is an option. -/
def separator : Text := ['-', '-']

/-- What one argument is, by itself. -/
inductive Argument where
  | value (t : Text)
  /-- An option, whether it is named by a letter, and what is attached to it: with an equals sign or
  right behind the letter. -/
  | option (switch : Switch) (byLetter : Bool) (attached : Option Text)
  /-- Looks like an option, but there is none of that name. -/
  | unknown
  /-- Could be several options. -/
  | ambiguous
  | separator
deriving DecidableEq

/-- A negative number: digits, or a fraction whose whole part may be left out. -/
def isNegativeNumber (t : Text) : Bool :=
  match withoutFinalNewline t with
  | '-' :: unsigned =>
    let rest := unsigned.dropWhile isDigit
    match rest with
    | [] => !unsigned.isEmpty
    | '.' :: fraction => !fraction.isEmpty && fraction.all isDigit
    | _ => false
  | _ => false

/-- What an argument that is no option stands for, if it starts with a dash. -/
def dashed (t : Text) : Argument :=
  if isNegativeNumber t ∨ ' ' ∈ t then .value t else .unknown

/-- Classifies an argument in front of the separator. -/
def classify (t : Text) : Argument :=
  match t with
  | '-' :: second :: rest =>
    match named? t with
    | some (switch, byLetter) => .option switch byLetter none
    | none =>
      let name := t.takeWhile (· ≠ '=')
      let value := t.dropWhile (· ≠ '=')
      let attached := if value.isEmpty then none else some (value.drop 1)
      match (if value.isEmpty then none else named? name) with
      | some (switch, byLetter) => .option switch byLetter attached
      | none =>
        if second = '-' then
          match longNames.filter fun entry => name.isPrefixOf entry.1 with
          | [] => dashed t
          | [entry] => .option entry.2 false attached
          | _ => .ambiguous
        else match letter? second with
          | some switch => .option switch true (some rest)
          | none => dashed t
  | _ => .value t

/-- Classifies all arguments; behind the first separator all of them are values. -/
def classifyAll : List Text → List Argument
  | [] => []
  | ['-', '-'] :: rest => .separator :: rest.map .value
  | t :: rest => classify t :: classifyAll rest

/-- The options that the letters attached to another one stand for; there must be some. -/
def letters? (t : Text) : Option (List Switch) := if t.isEmpty then none else t.mapM letter?

end Storyboard.CommandLine
