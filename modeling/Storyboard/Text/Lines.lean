/-
The lines of a text file.

Carriage returns, alone or before a line feed, first become line feeds. Lines then end at any of the
characters that `isLineBreak` names; a break at the very end of the text opens no further line.
-/
import Storyboard.Text

namespace Storyboard.Text

/-- Makes every line ending a single line feed. -/
def uniformNewlines : Text → Text
  | [] => []
  | '\r' :: '\n' :: t => '\n' :: uniformNewlines t
  | c :: t => (if c = '\r' then '\n' else c) :: uniformNewlines t

/-- Line feed, vertical tab, form feed, carriage return, the three information separators above the
unit separator, next line, line separator and paragraph separator. -/
def isLineBreak (c : Char) : Bool :=
  inRanges [(0x0A, 0x0D), (0x1C, 0x1E), (0x85, 0x85), (0x2028, 0x2029)] c

/-- Cuts a text at its line breaks; `line` holds the characters of the current line, latest
first. -/
def cutLines (line : Text) : Text → List Text
  | [] => if line.isEmpty then [] else [line.reverse]
  | c :: t => if isLineBreak c then line.reverse :: cutLines [] t else cutLines (c :: line) t

/-- The lines of a text file. -/
def fileLines (t : Text) : List Text := cutLines [] (uniformNewlines t)

/-- The text file with the given lines, each ended by a line feed. -/
def ofLines (lines : List Text) : Text := lines.flatMap (· ++ ['\n'])

end Storyboard.Text
