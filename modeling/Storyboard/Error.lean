/-
What can go wrong with a storyboard, and how it is told.

A constructor names a cause; `message` words it. `isScriptFault` marks the causes that lie in the
storyboard or in its text. Decoding reports these and undecodable text, and working on a file reports
these, faults of encodings and faults of the file system; the others stop the whole run.
-/
import Storyboard.Encoding.Fault
import Storyboard.Number.Hexadecimal
import Storyboard.Value

namespace Storyboard

/-- What a consumer wanted on top of the stack. -/
inductive Expectation where
  | kind (k : Value.Kind)
  | finiteFloat
  | argument
deriving DecidableEq

def Expectation.label : Expectation → String
  | .kind k => k.label
  | .finiteFloat => "finite Float32"
  | .argument => "Int32, Float32 or String"

/-- The causes of failure. -/
inductive Error where
  /-- A record that no instruction is written as. -/
  | unsupportedRecord (operation variant position : Int)
  /-- The three values that should describe a sub method, top of the stack first. -/
  | malformedDescriptor (values : List Value)
  /-- An argument or operand that is no literal. -/
  | unsupportedLiteral (text : Text)
  /-- A line that is no statement. -/
  | unsupportedLine (line : Text) (number : Int)
  /-- The script's offset is not in the segment table. -/
  | segmentNotFound (offset : Int)
  /-- A text file has no storyboard beside it. -/
  | companionMissing (path : String)
  | emptyStack
  | unexpectedValue (expected : Expectation) (got : Value)
  /-- Fewer bytes than wanted, from `position` on. -/
  | endOfStream (position : Nat) (expected : Int) (got : Nat)
  | negativeOffset (offset : Int)
  /-- No zero byte among the `limit` bytes from `position` on. -/
  | unterminatedText (position : Nat) (limit : Int)
  | undecodable (fault : DecodeFault)
  | unencodable (fault : EncodeFault)
  | unknownEncoding (name : String)
  /-- A number that does not fit a word. -/
  | wordOverflow
  /-- A finite number that would become infinite in four bytes. -/
  | floatOverflow
  /-- A position or a count beyond what any stream has. -/
  | offsetOverflow
  /-- More zeros than there is room for. -/
  | outOfMemory
  /-- A stream was to end where no position is left behind its end. -/
  | endOverflow
  /-- A decimal numeral with more digits than are read. -/
  | numeralTooLong
  /-- A decimal fraction that does not end after its digits. -/
  | unreadableFraction
  /-- The code has another size than was announced. -/
  | sizeMismatch (written : Nat) (announced : Int)
  /-- An index beyond the segment table. -/
  | noSuchSegment
  /-- A zero character in the name of an encoding or in a path. -/
  | zeroInName
  | fileNotFound (path : String)
  | isFolder (path : String)
  | notFolder (path : String)
  /-- A name on the path, or the path itself, has too many bytes. -/
  | nameTooLong (path : String)
  /-- A folder that is in use cannot be replaced by a file. -/
  | folderInUse (path : String)
  /-- An option was left without a value. -/
  | settingMissing
deriving DecidableEq

namespace Error

open Number

/-- A number in hexadecimal after its mark. -/
def hex (width : Nat) (v : Int) : String := "0x" ++ String.ofList (paddedHexadecimal width v)

/-- A number in decimal. -/
def dec (v : Int) : String := String.ofList (integer v)

def shown (t : Text) : String := String.ofList (Text.quoted t)

def message : Error → String
  | unsupportedRecord operation variant position =>
    "Got opcode " ++ hex 1 operation ++ " with subcode " ++ hex 1 variant ++ " at " ++ hex 8 position
      ++ ". This instruction is not supported!"
  | malformedDescriptor values =>
    "The sub method type descriptor does not match (true, <type>, 64)! (Got "
      ++ ", ".intercalate (values.map Value.describe) ++ ")"
  | unsupportedLiteral text => "The argument " ++ shown text ++ " is not a supported literal!"
  | unsupportedLine line number =>
    "Line " ++ dec number ++ ": " ++ shown line ++ " is not a supported instruction!"
  | segmentNotFound offset => "No script segment starts at " ++ hex 8 offset ++ " in the meta table!"
  | companionMissing path =>
    "The storyboard " ++ path ++ " belonging to this text file does not exist!"
  | emptyStack => "Tried to pop a value from an empty stack!"
  | unexpectedValue expected got =>
    "Expected a " ++ expected.label ++ " value on the stack, got " ++ got.describe ++ "!"
  | endOfStream position expected got =>
    "Expected " ++ dec expected ++ " bytes at " ++ hex 8 position ++ ", got " ++ dec got ++ "!"
  | negativeOffset offset => "Tried to seek to the negative offset " ++ dec offset ++ "!"
  | unterminatedText position limit =>
    "The string at " ++ hex 8 position ++ " is not terminated within " ++ dec limit ++ " bytes!"
  | undecodable fault => fault.message
  | unencodable fault => fault.message
  | unknownEncoding name => "unknown encoding: " ++ name
  | wordOverflow => "The number does not fit four bytes."
  | floatOverflow => "The number is too large for four bytes."
  | offsetOverflow => "The offset is too large."
  | endOverflow => "The stream would end at the last position."
  | outOfMemory => "There is no room for that many bytes."
  | numeralTooLong => "The numeral has too many digits."
  | unreadableFraction => "The numeral does not end after its digits."
  | sizeMismatch written announced =>
    "Wrote " ++ hex 1 written ++ " bytes of code, expected " ++ hex 1 announced ++ "."
  | noSuchSegment => "list index out of range"
  | zeroInName => "The name has a zero character."
  | fileNotFound path => "[Errno 2] No such file or directory: " ++ shown path.toList
  | isFolder path => "[Errno 21] Is a directory: " ++ shown path.toList
  | notFolder path => "[Errno 20] Not a directory: " ++ shown path.toList
  | nameTooLong path => "[Errno 36] File name too long: " ++ shown path.toList
  | folderInUse path => "[Errno 16] Device or resource busy: " ++ shown path.toList
  | settingMissing => "An option has no value."

/-- The cause lies in the storyboard or in its text. -/
def isScriptFault : Error → Bool
  | unsupportedRecord .. | malformedDescriptor .. | unsupportedLiteral .. | unsupportedLine ..
  | segmentNotFound .. | companionMissing .. | emptyStack | unexpectedValue .. | endOfStream ..
  | negativeOffset .. | unterminatedText .. => true
  | _ => false

/-- Decoding ends with such a cause and still gives the lines before it. -/
def endsDecoding : Error → Bool
  | undecodable _ => true
  | e => e.isScriptFault

/-- A batch goes on to the next file after such a cause. -/
def failsFile : Error → Bool
  | unencodable _ | fileNotFound _ | isFolder _ | notFolder _ | nameTooLong _ | folderInUse _ => true
  | e => e.endsDecoding

end Error
end Storyboard
