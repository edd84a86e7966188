/-
Literals: the arguments of statements as text.

A literal is a whole number, a fraction or a text in double quotes, and the first two may carry a
mark, the letter f at the end, that has the machine push a null above them. `classify` reads a
literal.
-/
import Storyboard.Error
import Storyboard.Text.Digit

namespace Storyboard

/-- An argument of a statement. -/
inductive Literal where
  | int (v : Int) (marked : Bool)
  | float (x : Number.Double) (marked : Bool)
  | text (t : Text)
deriving DecidableEq

namespace Literal

open Text

/-- The letter that marks a literal. -/
def mark : Char := 'f'

def isMarked : Literal → Bool
  | int _ marked => marked
  | float _ marked => marked
  | text _ => false

/-- What is between the quotes of a text: it starts with one and ends with another one. -/
def unquoted? (t : Text) : Option Text :=
  match t with
  | '"' :: rest => before? ['"'] rest
  | _ => none

/-- How a numeral starts: digits after an optional minus sign, and after a point the digits of a
fraction, if there is one. -/
structure Numeral where
  negative : Bool
  whole : Text
  fraction : Option Text
  rest : Text

/-- Reads the start of a numeral; a point without digits on both sides is no part of one. -/
def numeral? (t : Text) : Option Numeral :=
  let negative := t.head? == some '-'
  let unsigned := if negative then t.drop 1 else t
  let whole := unsigned.takeWhile isDigit
  let rest := unsigned.dropWhile isDigit
  if whole.isEmpty then none
  else match rest with
    | '.' :: tail =>
      let fraction := tail.takeWhile isDigit
      if fraction.isEmpty then some ⟨negative, whole, none, rest⟩
      else some ⟨negative, whole, some fraction, tail.dropWhile isDigit⟩
    | _ => some ⟨negative, whole, none, rest⟩

/-- The number that decimal digits spell. -/
def readDigits (digits : Text) : Except Error Nat :=
  if digitLimit < digits.length then .error .numeralTooLong else .ok (natural digits)

/-- A whole number that fits a word, written in digits after an optional sign. -/
def readInteger (source unsigned : Text) (negative : Bool) : Except Error Int := do
  if unsigned.isEmpty ∨ !unsigned.all isDigit then throw (.unsupportedLiteral source)
  let n ← readDigits unsigned
  let v : Int := if negative then -n else n
  if Word.Fits v then return v else throw (.unsupportedLiteral source)

/-- A whole number after a plus or minus sign or none. -/
def readSigned (source t : Text) : Except Error Int :=
  match t with
  | '-' :: unsigned => readInteger source unsigned true
  | '+' :: unsigned => readInteger source unsigned false
  | unsigned => readInteger source unsigned false

/-- A decimal fraction, rounded to eight bytes; it must not become infinite in four bytes unless
it already is. -/
def readFraction (source whole fraction : Text) (negative : Bool) : Except Error Number.Double :=
  let x : Number.Double := .ofDecimal negative (natural (whole ++ fraction)) fraction.length
  if x.narrow?.isSome then .ok x else .error (.unsupportedLiteral source)

/-- A whole number written in up to eight hexadecimal digits, taken as the bits of a word. -/
def readHexadecimal (source digits : Text) : Except Error Int :=
  match Number.readHexadecimal? (withoutFinalNewline digits) with
  | some n => if digits.length ≤ 8 then .ok (Word.wrap n) else .error (.unsupportedLiteral source)
  | none => .error (.unsupportedLiteral source)

/-- Reads a literal. One newline at the end is overlooked, except after a mark. -/
def classify (source : Text) : Except Error Literal :=
  let t := withoutFinalNewline source
  match unquoted? t with
  | some content => .ok (.text content)
  | none =>
    match numeral? t with
    | some ⟨negative, whole, some fraction, ['f']⟩ =>
      if t = source then (readFraction source whole fraction negative).map (.float · true)
      else .error .unreadableFraction
    | some ⟨negative, whole, none, ['f']⟩ =>
      if t = source then (readInteger source whole negative).map (.int · true)
      else .error (.unsupportedLiteral source)
    | some ⟨negative, whole, some fraction, []⟩ =>
      (readFraction source whole fraction negative).map (.float · false)
    | _ =>
      match after? ['0', 'x'] source with
      | some digits => (readHexadecimal source digits).map (.int · false)
      | none => (readSigned source t).map (.int · false)

/-- Reads a literal that must be a whole number without a mark. -/
def readInt (source : Text) : Except Error Int := do
  match ← classify source with
  | .int v false => return v
  | _ => throw (.unsupportedLiteral source)

/-- The number that a record holds to push a fraction: the bits of its nearest four bytes. -/
def floatOperand (x : Number.Double) : Except Error Int :=
  match x.narrow? with
  | some y => .ok y.toWord
  | none => .error .floatOverflow

end Literal
end Storyboard
