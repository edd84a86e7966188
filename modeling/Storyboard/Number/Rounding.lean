/-
Rounding a quotient of natural numbers to the nearest whole number, a half to the even neighbour.
-/
namespace Storyboard.Number

/-- `num / den` rounded to the nearest whole number; of two equally near ones the even one. -/
def roundHalfEven (num den : Nat) : Nat :=
  let whole := num / den
  let rest := num % den
  if 2 * rest < den ∨ (2 * rest = den ∧ whole % 2 = 0) then whole else whole + 1

end Storyboard.Number
