/-
Text as the script language sees it: a list of characters.
-/
namespace Storyboard

abbrev Text := List Char

namespace Text

/-- Leaves out one newline at the very end. -/
def withoutFinalNewline (t : Text) : Text :=
  if t.getLast? = some '\n' then t.dropLast else t

/-- What follows the opening `opening`, if the text has it. -/
def after? : (opening : Text) → Text → Option Text
  | [], t => some t
  | _ :: _, [] => none
  | o :: opening, c :: t => if o = c then after? opening t else none

/-- What precedes the ending `ending`, if the text has it. -/
def before? (ending t : Text) : Option Text :=
  (after? ending.reverse t.reverse).map List.reverse

/-- How many bytes a text has in UTF-8. -/
def utf8Size (t : Text) : Nat := (t.map Char.utf8Size).foldr (· + ·) 0

/-- Whether a character's code point lies in one of the ranges, both ends included. -/
def inRanges (ranges : List (Nat × Nat)) (c : Char) : Bool :=
  ranges.any fun (first, last) => first ≤ c.toNat && c.toNat ≤ last

theorem after?_append (opening t : Text) : after? opening (opening ++ t) = some t := by
  induction opening with
  | nil => rfl
  | cons o opening ih => simp [after?, ih]

theorem eq_append_of_after? {opening t rest : Text} (h : after? opening t = some rest) :
    t = opening ++ rest := by
  induction opening generalizing t with
  | nil => simpa [after?] using h
  | cons o opening ih =>
    cases t with
    | nil => simp [after?] at h
    | cons c t =>
      by_cases hc : o = c
      · simp only [after?, hc, if_true] at h
        rw [hc, ih h, List.cons_append]
      · simp [after?, hc] at h

theorem before?_append (t ending : Text) : before? ending (t ++ ending) = some t := by
  simp [before?, List.reverse_append, after?_append]

theorem eq_append_of_before? {ending t rest : Text} (h : before? ending t = some rest) :
    t = rest ++ ending := by
  simp only [before?, Option.map_eq_some_iff] at h
  obtain ⟨r, hr, rfl⟩ := h
  simpa using congrArg List.reverse (eq_append_of_after? hr)

end Text
end Storyboard
