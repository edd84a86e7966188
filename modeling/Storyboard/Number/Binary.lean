/-
Binary floating-point numbers, each a sign and the rank of its magnitude among the format's
magnitudes.

The magnitudes of a format, zero first and infinity after the largest finite one, are numbered in
order by their bit patterns without the sign bit. `units` says what a rank is worth, counted in the
format's least positive magnitude, so that comparing and rounding are questions about natural
numbers. `ofRatio` rounds an exact quotient to the nearest rank, a half to the even one, and
`convert` goes from one format to another.
-/
import Storyboard.Word
import Storyboard.Number.Rounding

namespace Storyboard.Number

/-- A binary format: how many bits hold the fraction, and how many the exponent. -/
structure BinaryFormat where
  fractionBits : Nat
  exponentBits : Nat

namespace BinaryFormat

/-- The four-byte format: 24 significant bits. -/
def single : BinaryFormat := ⟨23, 8⟩

/-- The eight-byte format: 53 significant bits. -/
def double : BinaryFormat := ⟨52, 11⟩

/-- How many magnitudes the format numbers, those of the NaNs included. -/
def ranks (f : BinaryFormat) : Nat := Nat.pow 2 (f.exponentBits + f.fractionBits)

/-- The rank of infinity; the ranks above it are NaNs. -/
def infinity (f : BinaryFormat) : Nat := (Nat.pow 2 f.exponentBits - 1) * Nat.pow 2 f.fractionBits

/-- The least positive magnitude is `2 ^ -f.unitExponent`. -/
def unitExponent (f : BinaryFormat) : Nat := Nat.pow 2 (f.exponentBits - 1) - 2 + f.fractionBits

/-- What the magnitude of rank `r` is worth, in units of the least positive magnitude: below
`2 ^ fractionBits` the rank itself, and above it a significand with its leading bit restored,
shifted by the exponent. -/
def units (f : BinaryFormat) (r : Nat) : Nat :=
  let fractions := Nat.pow 2 f.fractionBits
  if r < fractions then r else (fractions + r % fractions) * Nat.pow 2 (r / fractions - 1)

/-- The rank nearest to `num / den` units, a half to the even rank, infinity when the quotient is
too large for a finite one. -/
def nearest (f : BinaryFormat) (num den : Nat) : Nat :=
  let bits := if num / den = 0 then 0 else Nat.log2 (num / den) + 1
  let shift := bits - (f.fractionBits + 1)
  min (shift * Nat.pow 2 f.fractionBits + roundHalfEven num (den * Nat.pow 2 shift)) f.infinity

theorem infinity_lt_ranks (f : BinaryFormat) : f.infinity < f.ranks := by
  simp only [infinity, ranks, Nat.pow_eq, Nat.pow_add]
  exact Nat.mul_lt_mul_of_pos_right (Nat.sub_lt (Nat.two_pow_pos _) Nat.one_pos) (Nat.two_pow_pos _)

theorem nearest_le_infinity (f : BinaryFormat) (num den : Nat) : f.nearest num den ≤ f.infinity :=
  Nat.min_le_right _ _

end BinaryFormat

/-- A floating-point number of the format `f`: its sign and the rank of its magnitude. -/
structure Binary (f : BinaryFormat) where
  negative : Bool
  rank : Nat
  rank_lt : rank < f.ranks
deriving DecidableEq

/-- A number of the four-byte format. -/
abbrev Single := Binary .single

/-- A number of the eight-byte format. -/
abbrev Double := Binary .double

namespace Binary

variable {f : BinaryFormat}

def isFinite (x : Binary f) : Bool := x.rank < f.infinity

def isInfinite (x : Binary f) : Bool := x.rank == f.infinity

def isNaN (x : Binary f) : Bool := f.infinity < x.rank

/-- What a finite number's magnitude is worth, in units of the least positive magnitude. -/
def units (x : Binary f) : Nat := f.units x.rank

/-- The bit pattern: the sign bit above the rank. -/
def toBits (x : Binary f) : Nat := (if x.negative then f.ranks else 0) + x.rank

/-- The number with a bit pattern; bits above the sign bit are not looked at. -/
def ofBits (bits : Nat) : Binary f where
  negative := bits / f.ranks % 2 == 1
  rank := bits % f.ranks
  rank_lt := Nat.mod_lt _ (Nat.two_pow_pos _)

/-- The number nearest to `num / den` units with the given sign, infinite when that quotient is
too large. -/
def ofRatio (negative : Bool) (num den : Nat) : Binary f where
  negative
  rank := f.nearest num den
  rank_lt := Nat.lt_of_le_of_lt (f.nearest_le_infinity num den) f.infinity_lt_ranks

/-- The decimal fraction `digits / 10 ^ places`, rounded. -/
def ofDecimal (negative : Bool) (digits places : Nat) : Binary f :=
  ofRatio negative (digits * Nat.pow 2 f.unitExponent) (Nat.pow 10 places)

/-- The infinity of a sign. -/
def infinite (negative : Bool) : Binary f where
  negative
  rank := f.infinity
  rank_lt := f.infinity_lt_ranks

/-- The plain NaN of a sign: only the uppermost fraction bit is set. -/
def nan (negative : Bool) : Binary f where
  negative
  rank := f.infinity + Nat.pow 2 f.fractionBits / 2
  rank_lt := by
    have hF := Nat.two_pow_pos f.fractionBits
    have hE : 1 ≤ 2 ^ f.exponentBits := Nat.two_pow_pos _
    simp only [BinaryFormat.infinity, BinaryFormat.ranks, Nat.pow_eq, Nat.pow_add, Nat.sub_mul]
    have := Nat.mul_le_mul_right (2 ^ f.fractionBits) hE
    omega

/-- The same number in another format: exact where that has it, else the nearest it has. -/
def convert (g : BinaryFormat) (x : Binary f) : Binary g :=
  if x.isNaN then nan x.negative
  else if x.isInfinite then infinite x.negative
  else ofRatio x.negative (x.units * Nat.pow 2 g.unitExponent) (Nat.pow 2 f.unitExponent)

end Binary

/-- Every four-byte number is also an eight-byte number. -/
def Binary.widen (x : Single) : Double := x.convert .double

/-- The nearest four-byte number, unless a finite number would become infinite. -/
def Binary.narrow? (x : Double) : Option Single :=
  let y : Single := x.convert .single
  if x.isFinite && y.isInfinite then none else some y

/-- The four-byte number whose bits are the word `v`. -/
def Binary.ofWord? (v : Int) : Option Single :=
  if Word.Fits v then some (.ofBits (Word.pattern v)) else none

/-- The bits of a four-byte number, read as a signed word. -/
def Binary.toWord (x : Single) : Int := Word.wrap x.toBits

end Storyboard.Number
