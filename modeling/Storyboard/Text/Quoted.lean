/-
Quoted text, as messages show it.

The quotation mark is an apostrophe, unless the text has an apostrophe and no double quote. The
mark itself, a backslash, a line feed, a carriage return and a tab are escaped with a backslash, and
characters that are not printable are written as their code point.
-/
import Storyboard.Text.Printable
import Storyboard.Number.Decimal

namespace Storyboard.Text

/-- A code point in lower-case hexadecimal, with two, four or eight digits after the letter that
says how many. -/
def escapedCode (c : Char) : Text :=
  let digits := Nat.toDigits 16 c.toNat
  if c.toNat < 0x100 then '\\' :: 'x' :: Number.zeroPadded 2 digits
  else if c.toNat < 0x10000 then '\\' :: 'u' :: Number.zeroPadded 4 digits
  else '\\' :: 'U' :: Number.zeroPadded 8 digits

/-- One character between the quotation marks `mark`. -/
def escaped (mark c : Char) : Text :=
  if c = mark ∨ c = '\\' then ['\\', c]
  else if c = '\n' then ['\\', 'n']
  else if c = '\r' then ['\\', 'r']
  else if c = '\t' then ['\\', 't']
  else if isPrintable c then [c]
  else escapedCode c

/-- The text in quotation marks. -/
def quoted (t : Text) : Text :=
  let mark := if '\'' ∈ t ∧ '"' ∉ t then '"' else '\''
  mark :: t.flatMap (escaped mark) ++ [mark]

end Storyboard.Text
