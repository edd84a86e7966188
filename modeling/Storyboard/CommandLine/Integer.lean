/-
Whole numbers as the value of an option: decimal, or in base 16, 8 or 2 after a zero and a letter,
with single underscores between digits, a sign, and white space around them. Digits and white space
may be of any script.
-/
import Storyboard.Number.Hexadecimal
import Storyboard.Text.Blank
import Storyboard.Text.Digit

namespace Storyboard.CommandLine

open Text

/-- The value of a digit in a number's base; capital letters count like small ones. -/
def baseDigit? (base : Nat) (c : Char) : Option Nat :=
  (Number.hexDigit? c).filter (· < base)

/-- Digits of a base, with single underscores between them. -/
def digits? (base : Nat) : Text → Option (List Nat)
  | [] => none
  | [c] => (baseDigit? base c).map ([·])
  | c :: '_' :: rest => do return (← baseDigit? base c) :: (← digits? base rest)
  | c :: rest => do return (← baseDigit? base c) :: (← digits? base rest)

/-- A number without a sign: decimal, or in base 16, 8 or 2 after a zero and a letter. A decimal
number starts with a zero only if it is zero. -/
def unsigned? (t : Text) : Option Nat := do
  let (base, body) := match t with
    | '0' :: c :: rest =>
      if c = 'x' ∨ c = 'X' then (16, rest)
      else if c = 'o' ∨ c = 'O' then (8, rest)
      else if c = 'b' ∨ c = 'B' then (2, rest)
      else (10, t)
    | _ => (10, t)
  let body := if base ≠ 10 then (match body with | '_' :: rest => rest | _ => body) else body
  let digits ← digits? base body
  let n := digits.foldl (fun n d => base * n + d) 0
  if base = 10 ∧ (digitLimit < digits.length ∨ (t.head? = some '0' ∧ n ≠ 0)) then none else some n

/-- White space that may surround a number, once all digits and spaces are plain. -/
def isSpace (c : Char) : Bool := c = ' ' || ('\t' ≤ c && c ≤ '\r')

/-- Writes a number with plain digits and spaces; text with nothing but ASCII stays as it is. -/
def plainNumber (t : Text) : Text :=
  if t.all (·.toNat < 0x80) then t
  else t.map fun c =>
    if c.toNat < 0x7F then c
    else if isBlank c then ' '
    else match digit? c with
      | some d => Nat.digitChar d
      | none => '?'

/-- A whole number, which may have a sign and white space around it. -/
def integer? (t : Text) : Option Int :=
  let trimmed := (((plainNumber t).dropWhile isSpace).reverse.dropWhile isSpace).reverse
  match trimmed with
  | '-' :: rest => (unsigned? rest).map fun n => -(n : Int)
  | '+' :: rest => (unsigned? rest).map fun n => (n : Int)
  | rest => (unsigned? rest).map fun n => (n : Int)

end Storyboard.CommandLine
