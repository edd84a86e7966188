/-
The argument list of a statement, cut at the separators that are not inside a text.

A text starts with a quote at the start of an argument, and a quote ends it only before a separator
or at the end of the list, so that texts may hold quotes themselves.
-/
import Storyboard.Text

namespace Storyboard.Statement

/-- What stands between two arguments. -/
def separator : Text := [',', ' ']

/-- The rest of an argument list is empty or starts with a separator. -/
def endsArgument (rest : Text) : Bool := rest.isEmpty || (Text.after? separator rest).isSome

/-- Cuts the rest of an argument list; `current` holds the characters of the argument that has
begun, latest first, and `inText` tells whether it is a text that has not ended. -/
def cutArguments : (inText : Bool) → (current : Text) → Text → List Text
  | _, current, [] => [current.reverse]
  | true, current, c :: rest => cutArguments (!(c = '"' && endsArgument rest)) (c :: current) rest
  | false, current, ',' :: ' ' :: rest => current.reverse :: cutArguments false [] rest
  | false, current, c :: rest => cutArguments (c = '"' && current.isEmpty) (c :: current) rest

/-- The arguments of a list; an empty list has none. -/
def splitArguments (t : Text) : List Text := if t.isEmpty then [] else cutArguments false [] t

/-- The argument list of some arguments. -/
def joinArguments (arguments : List Text) : Text := separator.intercalate arguments

end Storyboard.Statement
