/-
What is reported while storyboards are worked on. A notice has a level and a message.
-/
import Storyboard.Error

namespace Storyboard

inductive Level where
  | debug
  | info
  | warning
  | error
deriving DecidableEq, Repr

def Level.label : Level → String
  | .debug => "DEBUG"
  | .info => "INFO"
  | .warning => "WARNING"
  | .error => "ERROR"

inductive Notice where
  /-- A container was read: its script's offset, and its segment table's offset and size. -/
  | loaded (scriptStart tableStart tableCount : Int)
  /-- Lines are about to become so many bytes of code. -/
  | encoding (lines size : Nat)
  /-- The segment of an index and an identifier changes its size. -/
  | resizing (index : Nat) (id change : Int)
  /-- A segment ended without a record that leaves its script. -/
  | missingExit (id : Int) (position : Nat)
  /-- So many texts of a segment were moved. -/
  | corrected (id : Int) (count : Nat)
  /-- A script left so many values on the stack. -/
  | valuesLeft (count : Nat)
  /-- A storyboard is not decoded, as its text is injected. -/
  | skipped (name : String)
  /-- A storyboard was decoded to so many lines. -/
  | decoded (name : String) (lines : Nat) (output : String)
  /-- A text was injected, which changed the storyboard's size. -/
  | injected (name storyboard : String) (change : Int)
  | failed (path : String) (cause : Error)
  /-- So many files of all failed. -/
  | someFailed (failures total : Nat)
  /-- There is no file or folder to work on. -/
  | noInput (path : String)
deriving DecidableEq

namespace Notice

open Error (dec hex)

def level : Notice → Level
  | loaded .. | encoding .. | resizing .. | corrected .. => .debug
  | decoded .. | injected .. => .info
  | missingExit .. | valuesLeft .. | skipped .. => .warning
  | failed .. | someFailed .. | noInput .. => .error

/-- A change of size, with its sign even if it is not negative. -/
def signedDec (v : Int) : String := if v < 0 then dec v else "+" ++ dec v

def message : Notice → String
  | loaded scriptStart tableStart tableCount =>
    "Script at " ++ hex 8 scriptStart ++ ", meta table at " ++ hex 8 tableStart ++ " with "
      ++ dec tableCount ++ " entries."
  | encoding lines size =>
    "Encoding " ++ dec lines ++ " line(s) into " ++ hex 1 size ++ " bytes of code."
  | resizing index id change =>
    "Segment " ++ dec index ++ " (id " ++ dec id ++ ") changes size by " ++ dec change ++ " byte(s)."
  | missingExit id position =>
    "Segment " ++ dec id ++ " has no exit record, stopped scanning at " ++ hex 8 position ++ "."
  | corrected id count => "Segment " ++ dec id ++ ": corrected " ++ dec count ++ " string reference(s)."
  | valuesLeft count =>
    "Reached the end of the script with " ++ dec count ++ " value(s) left on the stack."
  | skipped name => name ++ ": skipping decode, " ++ name ++ ".txt is injected instead."
  | decoded name lines output => name ++ ": " ++ dec lines ++ " lines -> " ++ output
  | injected name storyboard change =>
    name ++ " -> " ++ storyboard ++ " (" ++ signedDec change ++ " bytes)"
  | failed path cause => path ++ ": " ++ cause.message
  | someFailed failures total => dec failures ++ " of " ++ dec total ++ " file(s) failed."
  | noInput path => "Input path '" ++ path ++ "' does not exist."

/-- A notice as a line of the log. -/
def line (n : Notice) : String := n.level.label ++ ": " ++ n.message

end Notice
end Storyboard
