/-
The encodings of text as bytes, and what can go wrong with them.

A fault says where it lies and which bytes or characters it covers; `message` words it.
-/
import Storyboard.Text.Quoted

namespace Storyboard

/-- The encodings that texts may be stored in; others are not modelled. -/
inductive Encoding where
  | ascii
  | latin1
  | utf8
  | codePage932
deriving DecidableEq, Repr

/-- Why bytes spell no text. -/
inductive DecodeReason where
  | notAscii
  | illegalSequence
  | incompleteSequence
  | invalidStart
  | invalidContinuation
  | unexpectedEnd
deriving DecidableEq

/-- Bytes that spell no text: `bytes`, never empty, from position `start` on. -/
structure DecodeFault where
  encoding : Encoding
  start : Nat
  bytes : List UInt8
  reason : DecodeReason
deriving DecidableEq

/-- Characters that an encoding does not have: `characters`, never empty, from position `start`
on. -/
structure EncodeFault where
  encoding : Encoding
  start : Nat
  characters : Text
deriving DecidableEq

/-- The name by which messages call an encoding. -/
def Encoding.label : Encoding → String
  | .ascii => "ascii"
  | .latin1 => "latin-1"
  | .utf8 => "utf-8"
  | .codePage932 => "cp932"

def DecodeReason.message : DecodeReason → String
  | .notAscii => "ordinal not in range(128)"
  | .illegalSequence => "illegal multibyte sequence"
  | .incompleteSequence => "incomplete multibyte sequence"
  | .invalidStart => "invalid start byte"
  | .invalidContinuation => "invalid continuation byte"
  | .unexpectedEnd => "unexpected end of data"

/-- One position, or a range with both ends included. -/
def positionRange (start count : Nat) : String :=
  if count ≤ 1 then s!"{start}" else s!"{start}-{start + count - 1}"

def DecodeFault.message (f : DecodeFault) : String :=
  let what := match f.bytes with
    | [b] => "byte 0x" ++ String.ofList (Number.zeroPadded 2 (Nat.toDigits 16 b.toNat))
    | _ => "bytes"
  "'" ++ f.encoding.label ++ "' codec can't decode " ++ what ++ " in position "
    ++ positionRange f.start f.bytes.length ++ ": " ++ f.reason.message

/-- Why an encoding lacks characters. -/
def Encoding.lackMessage : Encoding → String
  | .ascii => "ordinal not in range(128)"
  | .latin1 => "ordinal not in range(256)"
  | .utf8 => "surrogates not allowed"
  | .codePage932 => "illegal multibyte sequence"

def EncodeFault.message (f : EncodeFault) : String :=
  let what := match f.characters with
    | [c] => "character '" ++ String.ofList (Text.escapedCode c) ++ "'"
    | _ => "characters"
  "'" ++ f.encoding.label ++ "' codec can't encode " ++ what ++ " in position "
    ++ positionRange f.start f.characters.length ++ ": " ++ f.encoding.lackMessage

end Storyboard
