/-
Texts to bytes and back, in a given encoding.
-/
import Storyboard.Encoding.SingleByte
import Storyboard.Encoding.Utf8
import Storyboard.Encoding.CodePage932
import Storyboard.Encoding.Name

namespace Storyboard.Encoding

def encode : Encoding → Text → Except EncodeFault (List UInt8)
  | .ascii => encodeBelow 0x80 .ascii 0
  | .latin1 => encodeBelow 0x100 .latin1 0
  | .utf8 => fun t => .ok (Utf8.encode t)
  | .codePage932 => CodePage932.encode 0

def decode : Encoding → List UInt8 → Except DecodeFault Text
  | .ascii => decodeAscii 0
  | .latin1 => fun bytes => .ok (decodeLatin1 bytes)
  | .utf8 => Utf8.decode 0
  | .codePage932 => CodePage932.decode 0

end Storyboard.Encoding
