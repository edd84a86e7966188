/-
Numbers as decimal text: whole numbers, whole numbers padded with zeros, and quotients and
floating-point numbers with a fixed count of places.
-/
import Storyboard.Number.Binary

namespace Storyboard.Number

/-- The decimal digits of `n`, most significant first, `0` for zero. -/
def decimal (n : Nat) : List Char := Nat.toDigits 10 n

/-- Zeros in front of `cs` up to `width` characters. -/
def zeroPadded (width : Nat) (cs : List Char) : List Char :=
  List.replicate (width - cs.length) '0' ++ cs

/-- A minus sign in front of the text of a negative number. -/
def signed (negative : Bool) (cs : List Char) : List Char := if negative then '-' :: cs else cs

/-- A whole number: its digits, after a minus sign when it is negative. -/
def integer (v : Int) : List Char := signed (v < 0) (decimal v.natAbs)

/-- A whole number padded with zeros to `width` characters; the sign counts as one. -/
def paddedInteger (width : Nat) (v : Int) : List Char :=
  signed (v < 0) (zeroPadded (if v < 0 then width - 1 else width) (decimal v.natAbs))

/-- `num / den` with `places` decimal places, a half rounded to the even neighbour. -/
def fixed (places num den : Nat) : List Char :=
  let scaled := roundHalfEven (num * Nat.pow 10 places) den
  decimal (scaled / Nat.pow 10 places) ++ '.' :: zeroPadded places (decimal (scaled % Nat.pow 10 places))

/-- A finite floating-point number with `places` decimal places; zeros keep their sign. -/
def Binary.fixed {f : BinaryFormat} (places : Nat) (x : Binary f) : List Char :=
  signed x.negative (Number.fixed places x.units (Nat.pow 2 f.unitExponent))

end Storyboard.Number
