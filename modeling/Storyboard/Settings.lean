/-
How the texts of a storyboard are stored: their encoding, known by its name until a text is really
read or written, and how far the end of a text is looked for.

Reading is defined for any decoders (`decodeTextWith`); those of the modelled encodings are `decoders`.
-/
import Storyboard.Encoding
import Storyboard.Error

namespace Storyboard

/-- The encoding's name, and how many bytes of a text are looked at, its final zero included. Either
may be missing, which is noticed once it is needed. -/
structure Settings where
  encoding : Option String := some "cp932"
  scanLimit : Option Int := some 0x1000
deriving DecidableEq

namespace Settings

/-- The name of the encoding, which must not have a zero character. -/
def encodingName (settings : Settings) : Except Error String :=
  match settings.encoding with
  | none => .error .settingMissing
  | some name => if '\x00' ∈ name.toList then .error .zeroInName else .ok name

/-- The encoding of a name, if it is one of those that are modelled. -/
def findEncoding (name : String) : Except Error Encoding :=
  match Encoding.ofName? name with
  | none => .error (.unknownEncoding name)
  | some e => .ok e

/-- The bytes of a text. -/
def encodeText (settings : Settings) (t : Text) : Except Error (List UInt8) := do
  let e ← findEncoding (← settings.encodingName)
  (e.encode t).mapError .unencodable

/-- What decodes bytes, by the names of encodings; a name without a decoder is unknown. -/
abbrev Decoders := String → Option (List UInt8 → Except Error Text)

/-- The decoders of the encodings that are modelled. -/
def decoders : Decoders := fun name =>
  (Encoding.ofName? name).map fun e bytes => (e.decode bytes).mapError .undecodable

/-- The text that bytes spell, where there are these decoders; no bytes are no text in any encoding, known
or not. -/
def decodeTextWith (decoders : Decoders) (settings : Settings) (bytes : List UInt8) : Except Error Text := do
  let name ← settings.encodingName
  if bytes.isEmpty then return []
  match decoders name with
  | none => throw (.unknownEncoding name)
  | some decode => decode bytes

/-- The text that bytes spell. -/
def decodeText (settings : Settings) (bytes : List UInt8) : Except Error Text :=
  settings.decodeTextWith decoders bytes

/-- Bytes are decoded in the encoding of the name. -/
theorem decodeText_eq (settings : Settings) (bytes : List UInt8) :
    settings.decodeText bytes = (do
      let name ← settings.encodingName
      if bytes.isEmpty then return []
      let e ← findEncoding name
      (e.decode bytes).mapError .undecodable) := by
  unfold decodeText decodeTextWith
  refine congrArg (settings.encodingName >>= ·) (funext fun name => ?_)
  simp only [decoders, findEncoding]
  split
  · rfl
  · cases Encoding.ofName? name <;> rfl

/-- The encoding is one of those that are modelled, and it is known how far the end of a text is looked for. -/
structure Supported (settings : Settings) : Prop where
  encoding : ∃ name e, settings.encodingName = .ok name ∧ findEncoding name = .ok e
  scanLimit : settings.scanLimit.isSome = true

end Settings
end Storyboard
