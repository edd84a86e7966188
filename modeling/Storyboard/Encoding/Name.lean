/-
The names of encodings. Case does not matter, and neither does which punctuation separates the parts
of a name.

Only the four encodings of `Encoding` are modelled. The many others that texts may be stored in are left
out, so that their names are names of none here; `Settings.decodeTextWith` takes decoders of any.
-/
import Storyboard.Encoding.Fault

namespace Storyboard.Encoding

/-- The letters, digits and dots of a name in lower case, with one underscore in place of whatever
else stands between two of them. -/
def normalizedName (name : Text) : Text :=
  let kept (c : Char) : Bool := c.isAlphanum || c = '.'
  let parts := name.splitOnP fun c => !kept c
  ['_'].intercalate ((parts.filter (!·.isEmpty)).map (·.map Char.toLower))

/-- The names of each encoding, in normal form. -/
def names : List (Encoding × List String) := [
  (.ascii, ["ascii", "646", "ansi_x3.4_1968", "ansi_x3.4_1986", "ansi_x3_4_1968", "cp367", "csascii",
    "ibm367", "iso646_us", "iso_646.irv_1991", "iso_ir_6", "us", "us_ascii"]),
  (.latin1, ["latin_1", "8859", "cp819", "csisolatin1", "ibm819", "iso8859", "iso8859_1", "iso_8859_1",
    "iso_8859_1_1987", "iso_ir_100", "l1", "latin", "latin1"]),
  (.utf8, ["utf_8", "cp65001", "u8", "utf", "utf8", "utf8_ucs2", "utf8_ucs4"]),
  (.codePage932, ["cp932", "932", "ms932", "ms_kanji", "mskanji"])]

/-- The names that are no mere alternatives; in them a dot does not pass for an underscore. -/
def properNames : List String := ["ascii", "latin_1", "utf_8", "cp932"]

/-- The encoding of a name, if it is one of those that are modelled. -/
def ofName? (name : String) : Option Encoding :=
  let normal := String.ofList (normalizedName name.toList)
  let undotted := normal.map fun c => if c = '.' then '_' else c
  let isNamed (all : List String) : Bool :=
    all.contains normal || (all.contains undotted && !properNames.contains undotted)
  (names.find? fun entry => isNamed entry.2).map (·.1)

end Storyboard.Encoding
