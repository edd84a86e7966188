/-
Numbers as hexadecimal text with upper-case digits.
-/
import Storyboard.Number.Decimal

namespace Storyboard.Number

/-- The upper-case hexadecimal digits of `n`, most significant first. -/
def hexadecimal (n : Nat) : List Char := (Nat.toDigits 16 n).map Char.toUpper

/-- A number in hexadecimal, padded with zeros to `width` characters; a minus sign counts as
one. -/
def paddedHexadecimal (width : Nat) (v : Int) : List Char :=
  signed (v < 0) (zeroPadded (if v < 0 then width - 1 else width) (hexadecimal v.natAbs))

/-- The value of a hexadecimal digit of either case. -/
def hexDigit? (c : Char) : Option Nat :=
  if '0' ≤ c ∧ c ≤ '9' then some (c.toNat - '0'.toNat)
  else if 'a' ≤ c ∧ c ≤ 'f' then some (c.toNat - 'a'.toNat + 10)
  else if 'A' ≤ c ∧ c ≤ 'F' then some (c.toNat - 'A'.toNat + 10)
  else none

/-- The number that hexadecimal digits spell; `none` without digits or with another character. -/
def readHexadecimal? (cs : List Char) : Option Nat :=
  if cs.isEmpty then none
  else cs.foldlM (fun n c => (hexDigit? c).map (16 * n + ·)) 0

end Storyboard.Number
