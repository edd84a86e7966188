/-
Statements, the lines of a script as text.

A statement calls a sub method with arguments, runs a macro, waits until a time or leaves the script.
`render` writes it as a line.
-/
import Storyboard.Number.Hexadecimal
import Storyboard.Statement.Arguments

namespace Storyboard

/-- A line of a script. -/
inductive Statement where
  /-- Calls the sub method of a number; the arguments are still text. -/
  | sub (number : Int) (arguments : List Text)
  | runMacro (code : Nat)
  | time (v : Int)
  | exit (v : Int)
deriving DecidableEq

namespace Statement

open Number

/-- What a call of a sub method starts with. -/
def subOpening : Text := ['s', 'u', 'b']

/-- What a macro starts with, up to its hexadecimal digits. -/
def macroOpening : Text := ['m', 'a', 'c', 'r', 'o', '(', '0', 'x']

def timeOpening : Text := ['t', 'i', 'm', 'e', ' ', '=', ' ']

def exitOpening : Text := ['e', 'x', 'i', 't', '(']

/-- What ends a statement with parentheses. -/
def callEnding : Text := [')', ';']

def timeEnding : Text := [';']

/-- The line of a statement: sub method numbers have at least three characters, macro codes four
hexadecimal digits. -/
def render : Statement → Text
  | sub number arguments =>
    subOpening ++ paddedInteger 3 number ++ '(' :: joinArguments arguments ++ callEnding
  | runMacro code => macroOpening ++ zeroPadded 4 (hexadecimal code) ++ callEnding
  | time v => timeOpening ++ integer v ++ timeEnding
  | exit v => exitOpening ++ integer v ++ callEnding

end Statement
end Storyboard
