/-
UTF-8: one to four bytes for each character.

Only the shortest form of a character is accepted, and no surrogate. A fault covers the bytes that
begin a character, up to the first one that cannot go on.
-/
import Storyboard.Encoding.Fault

namespace Storyboard.Encoding.Utf8

/-- The bytes of one character. -/
def encodeChar (c : Char) : List UInt8 :=
  let n := c.toNat
  if n < 0x80 then [.ofNat n]
  else if n < 0x800 then [.ofNat (0xC0 + n / 0x40), .ofNat (0x80 + n % 0x40)]
  else if n < 0x10000 then
    [.ofNat (0xE0 + n / 0x1000), .ofNat (0x80 + n / 0x40 % 0x40), .ofNat (0x80 + n % 0x40)]
  else
    [.ofNat (0xF0 + n / 0x40000), .ofNat (0x80 + n / 0x1000 % 0x40), .ofNat (0x80 + n / 0x40 % 0x40),
      .ofNat (0x80 + n % 0x40)]

/-- The bytes of a text; every text has some. -/
def encode (t : Text) : List UInt8 := t.flatMap encodeChar

/-- A byte that goes on with a character. -/
def isContinuation (b : UInt8) : Bool := 0x80 ≤ b && b < 0xC0

/-- Whether `next` may follow `lead`: it goes on with a character, which has no shorter form, is no
surrogate and lies within Unicode. -/
def mayFollow (lead next : UInt8) : Bool :=
  isContinuation next
    && (if lead = 0xE0 then 0xA0 ≤ next
      else if lead = 0xED then next < 0xA0
      else if lead = 0xF0 then 0x90 ≤ next
      else if lead = 0xF4 then next < 0x90
      else true)

/-- The character of a lead byte, less `base`, and of continuation bytes. -/
def character (base : Nat) (lead : UInt8) (tail : List UInt8) : Char :=
  .ofNat (tail.foldl (fun n b => 0x40 * n + (b.toNat - 0x80)) (lead.toNat - base))

/-- Decodes bytes whose first one stands at position `start`. -/
def decode (start : Nat) : List UInt8 → Except DecodeFault Text
  | [] => .ok []
  | a :: rest =>
    let fault (bytes : List UInt8) (reason : DecodeReason) : Except DecodeFault Text :=
      .error ⟨.utf8, start, bytes, reason⟩
    if a < 0x80 then return .ofNat a.toNat :: (← decode (start + 1) rest)
    else if a < 0xC2 ∨ 0xF4 < a then fault [a] .invalidStart
    else match rest with
      | [] => fault [a] .unexpectedEnd
      | b :: rest =>
        if !mayFollow a b then fault [a] .invalidContinuation
        else if a < 0xE0 then return character 0xC0 a [b] :: (← decode (start + 2) rest)
        else match rest with
          | [] => fault [a, b] .unexpectedEnd
          | c :: rest =>
            if !isContinuation c then fault [a, b] .invalidContinuation
            else if a < 0xF0 then return character 0xE0 a [b, c] :: (← decode (start + 3) rest)
            else match rest with
              | [] => fault [a, b, c] .unexpectedEnd
              | d :: rest =>
                if !isContinuation d then fault [a, b, c] .invalidContinuation
                else return character 0xF0 a [b, c, d] :: (← decode (start + 4) rest)

end Storyboard.Encoding.Utf8
