/-
Code page 932: Shift-JIS with the vendor rows of Japanese Windows.

A byte stands for a character itself or leads a pair. The pairs with lead bytes 0xF0 to 0xF9 are
private use characters by a formula, and the others are looked up in the table. Several pairs may
have one character; its own code is the first of them. Six characters that no code has are written
as their full-width forms.
-/
import Storyboard.Encoding.Fault
import Storyboard.Encoding.CodePage932.Table

namespace Storyboard.Encoding.CodePage932

/-- The character that one byte stands for, unless it leads a pair. -/
def single? (b : UInt8) : Option Char :=
  let n := b.toNat
  if n ≤ 0x80 then some (.ofNat n)
  else if n = 0xA0 then some (.ofNat 0xF8F0)
  else if 0xA1 ≤ n ∧ n ≤ 0xDF then some (.ofNat (n - 0xA1 + 0xFF61))
  else if 0xFD ≤ n then some (.ofNat (n - 0xFD + 0xF8F1))
  else none

/-- The cell of a row that a trail byte selects. -/
def cell? (trail : UInt8) : Option Nat :=
  let n := trail.toNat
  if 0x40 ≤ n ∧ n ≤ 0x7E then some (n - 0x40)
  else if 0x80 ≤ n ∧ n ≤ 0xFC then some (n - 0x41)
  else none

/-- The trail byte that selects a cell. -/
def trail (cell : Nat) : UInt8 := .ofNat (if cell < 63 then 0x40 + cell else 0x41 + cell)

/-- What the table has where a code has no character. -/
def noCharacter : Char := .ofNat 0xFFFD

/-- The character of a pair. -/
def pair? (lead trail : UInt8) : Option Char := do
  let cell ← cell? trail
  if 0xF0 ≤ lead ∧ lead ≤ 0xF9 then some (.ofNat (0xE000 + 188 * (lead.toNat - 0xF0) + cell))
  else
    let row ← rows.find? fun row => row.1 = lead.toNat
    let c ← row.2[cell]?
    if c = noCharacter then none else some c

/-- Decodes bytes whose first one stands at position `start`. -/
def decode (start : Nat) : List UInt8 → Except DecodeFault Text
  | [] => .ok []
  | b :: bytes => match single? b with
    | some c => return c :: (← decode (start + 1) bytes)
    | none => match bytes with
      | [] => .error ⟨.codePage932, start, [b], .incompleteSequence⟩
      | t :: bytes => match pair? b t with
        | some c => return c :: (← decode (start + 2) bytes)
        | none => .error ⟨.codePage932, start, [b], .illegalSequence⟩

/-- The full-width form that stands for a character without a code. -/
def fullWidth (c : Char) : Char :=
  match c.toNat with
  | 0xA2 => .ofNat 0xFFE0
  | 0xA3 => .ofNat 0xFFE1
  | 0xAC => .ofNat 0xFFE2
  | 0x2016 => .ofNat 0x2225
  | 0x2212 => .ofNat 0xFF0D
  | 0x301C => .ofNat 0xFF5E
  | _ => c

/-- The byte that a character stands in alone. -/
def singleByte? (c : Char) : Option UInt8 :=
  let n := c.toNat
  if n ≤ 0x80 then some (.ofNat n)
  else if n = 0xF8F0 then some 0xA0
  else if 0xFF61 ≤ n ∧ n ≤ 0xFF9F then some (.ofNat (n - 0xFF61 + 0xA1))
  else if 0xF8F1 ≤ n ∧ n ≤ 0xF8F3 then some (.ofNat (n - 0xF8F1 + 0xFD))
  else none

/-- The first pair that has the character. -/
def pairBytes? (c : Char) : Option (List UInt8) :=
  if 0xE000 ≤ c.toNat ∧ c.toNat < 0xE758 then
    let n := c.toNat - 0xE000
    some [.ofNat (0xF0 + n / 188), trail (n % 188)]
  else if c = noCharacter then none
  else rows.findSome? fun row => (row.2.idxOf? c).map fun cell => [.ofNat row.1, trail cell]

/-- The bytes of one character. -/
def encodeChar? (c : Char) : Option (List UInt8) :=
  match singleByte? c with
  | some b => some [b]
  | none => pairBytes? (fullWidth c)

/-- Encodes characters, the first one standing at position `start`. -/
def encode (start : Nat) : Text → Except EncodeFault (List UInt8)
  | [] => .ok []
  | c :: t => match encodeChar? c with
    | some bytes => return bytes ++ (← encode (start + 1) t)
    | none => .error ⟨.codePage932, start, [c]⟩

end Storyboard.Encoding.CodePage932
