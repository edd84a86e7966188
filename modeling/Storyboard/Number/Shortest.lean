/-
The shortest decimal text of a floating-point number: of the decimal fractions that round to the
number, one with the fewest digits, and of those the nearest, a tie going to the even digit.

`shortest` finds the digits. For each count of digits it tries the two neighbours of the number on
the grid of decimal fractions with that many digits; 17 digits always suffice for eight bytes.
`shortestText` writes them out: with an exponent below 10^-4 and from 10^16 on, otherwise with a
decimal point and at least one digit after it.
-/
import Storyboard.Number.Decimal

namespace Storyboard.Number

/-- A positive decimal fraction `digits * 10 ^ exponent`. -/
structure Scientific where
  digits : Nat
  exponent : Int

/-- The `e` with `10 ^ (e - 1) ≤ num / den < 10 ^ e`, for a positive quotient. -/
def magnitude (num den : Nat) : Int :=
  if den ≤ num then (decimal (num / den)).length
  else 1 - (decimal ((den + num - 1) / num - 1)).length

/-- `num * 10 ^ e / den` as a quotient of natural numbers. -/
def scaled (e : Int) (num den : Nat) : Nat × Nat :=
  if 0 ≤ e then (num * Nat.pow 10 e.toNat, den) else (num, den * Nat.pow 10 (-e).toNat)

namespace Binary

/-- The decimal fraction with `count` digits nearest to a positive finite `x`, when it lies
between the halfway points to the neighbours of `x`, these included iff the rank is even. -/
def decimalWithDigits? (x : Double) (count : Nat) : Option Scientific :=
  let den := 2 * Nat.pow 2 BinaryFormat.double.unitExponent
  let here := 2 * x.units
  let below := BinaryFormat.double.units (x.rank - 1) + x.units
  let above := x.units + BinaryFormat.double.units (x.rank + 1)
  let shift := count - magnitude here den
  let value := scaled shift here den
  let low := (scaled shift below den).1
  let high := (scaled shift above den).1
  let fits (d : Nat) : Bool :=
    if x.rank % 2 = 0 then low ≤ d * value.2 && d * value.2 ≤ high
    else low < d * value.2 && d * value.2 < high
  let nearest := roundHalfEven value.1 value.2
  let floor := value.1 / value.2
  if fits nearest then some ⟨nearest, -shift⟩
  else if fits floor then some ⟨floor, -shift⟩
  else if fits (floor + 1) then some ⟨floor + 1, -shift⟩
  else none

/-- The shortest decimal fraction that rounds to a positive finite `x`. -/
def shortest (x : Double) : Scientific :=
  ((List.range' 1 17).findSome? x.decimalWithDigits?).getD ⟨0, 0⟩

end Binary

/-- Leaves out the zeros at the end, though not all digits. -/
def withoutTrailingZeros (cs : List Char) : List Char :=
  match (cs.reverse.dropWhile (· == '0')).reverse with
  | [] => ['0']
  | kept => kept

/-- Digits with the decimal point after the first `point` of them. -/
def positional (digits : List Char) (point : Int) : List Char :=
  if point ≤ 0 then ['0', '.'] ++ List.replicate (-point).toNat '0' ++ digits
  else
    let whole := digits.take point.toNat
    let fraction := digits.drop point.toNat
    whole ++ List.replicate (point.toNat - digits.length) '0'
      ++ '.' :: (if fraction.isEmpty then ['0'] else fraction)

/-- Digits with one before the decimal point and a power of ten of at least two digits. -/
def withExponent (digits : List Char) (point : Int) : List Char :=
  let exponent := point - 1
  let fraction := digits.drop 1
  digits.take 1 ++ (if fraction.isEmpty then [] else '.' :: fraction)
    ++ 'e' :: (if exponent < 0 then '-' else '+') :: zeroPadded 2 (decimal exponent.natAbs)

/-- The shortest text of a number; infinities and NaNs have names. -/
def shortestText (x : Double) : List Char :=
  if x.isNaN then ['n', 'a', 'n']
  else if x.isInfinite then signed x.negative ['i', 'n', 'f']
  else if x.rank = 0 then signed x.negative ['0', '.', '0']
  else
    let short := x.shortest
    let all := decimal short.digits
    let point := short.exponent + all.length
    let digits := withoutTrailingZeros all
    signed x.negative
      (if -4 < point ∧ point ≤ 16 then positional digits point else withExponent digits point)

end Storyboard.Number
