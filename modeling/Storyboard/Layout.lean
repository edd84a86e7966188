/-
The fixed measures of the storyboard format, and the rounding of sizes to the alignment.
-/
namespace Storyboard

/-- Bytes of one method record: operation, variant and operand. -/
def recordSize : Nat := 12

/-- Bytes of one entry of the segment table: identifier and offset. -/
def tableEntrySize : Nat := 8

/-- Where the container header's first field, the script's offset, stands. -/
def headerPosition : Nat := 4

/-- Bytes between the start of a segment and its first record. -/
def segmentHeaderSize : Nat := 0x38

/-- Text operands are stored this much below the position of the text. -/
def textOperandBias : Int := 0x58

/-- The number that closes the description of a sub method, deepest on the stack. -/
def descriptorMarker : Int := 0x40

/-- Segments start at multiples of this. -/
def alignment : Int := 4

/-- Clears in `v` every bit that is set in `mask`; negative numbers have infinitely many leading
ones, as in two's complement. -/
def clearBits : Int → Int → Int
  | .ofNat v, .ofNat mask => .ofNat (v ^^^ (v &&& mask))
  | .ofNat v, .negSucc mask => .ofNat (v &&& mask)
  | .negSucc v, .ofNat mask => .negSucc (v ||| mask)
  | .negSucc v, .negSucc mask => .ofNat (mask ^^^ (mask &&& v))

/-- Rounds `v` up to a multiple of `amount`, when that is a power of two: the sum with
`amount - 1`, less its low bits. -/
def align (v amount : Int) : Int := clearBits (v + amount - 1) (amount - 1)

end Storyboard
