/-
White space of all scripts, the separators U+001C to U+001F among it.
-/
import Storyboard.Text

namespace Storyboard.Text

/-- The code points of white space, as ranges with both ends included. -/
def blankRanges : List (Nat × Nat) := [
  (0x9, 0xD), (0x1C, 0x20), (0x85, 0x85), (0xA0, 0xA0), (0x1680, 0x1680), (0x2000, 0x200A),
  (0x2028, 0x2029), (0x202F, 0x202F), (0x205F, 0x205F), (0x3000, 0x3000)]

def isBlank (c : Char) : Bool := inRanges blankRanges c

end Storyboard.Text
