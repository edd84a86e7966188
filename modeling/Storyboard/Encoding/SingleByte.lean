/-
The encodings with one byte for each character: ASCII with 128 of them and Latin-1 with 256, each
character's byte being its code point.
-/
import Storyboard.Encoding.Fault

namespace Storyboard.Encoding

/-- Decodes bytes whose first one stands at position `start`. -/
def decodeAscii (start : Nat) : List UInt8 → Except DecodeFault Text
  | [] => .ok []
  | b :: bytes =>
    if b < 0x80 then return .ofNat b.toNat :: (← decodeAscii (start + 1) bytes)
    else .error ⟨.ascii, start, [b], .notAscii⟩

/-- Every byte is a character. -/
def decodeLatin1 (bytes : List UInt8) : Text := bytes.map fun b => .ofNat b.toNat

/-- Encodes characters below `limit`, the first one standing at position `start`; a fault covers
all characters in a row that are not below it. -/
def encodeBelow (limit : Nat) (encoding : Encoding) (start : Nat) : Text → Except EncodeFault (List UInt8)
  | [] => .ok []
  | c :: t =>
    if c.toNat < limit then return .ofNat c.toNat :: (← encodeBelow limit encoding (start + 1) t)
    else .error ⟨encoding, start, (c :: t).takeWhile (limit ≤ ·.toNat)⟩

end Storyboard.Encoding
