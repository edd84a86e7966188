/-
A four-byte number goes through eight bytes and comes back.

Eight bytes hold whatever four bytes hold (`Binary.value_widen`), subnormal numbers as normal ones, so that rounding to
four bytes again has nothing to round (`Binary.convert_widen`). Words that are not those of a NaN are therefore the
operands of the fractions they are shown as, and those without a sign are in the order of these fractions
(`floatOperand_widen`).
-/
import Mathlib.Algebra.Order.Field.Rat
import Mathlib.Order.WithBot
import Storyboard.Literal
import Storyboard.Proofs.Places

namespace Storyboard

namespace Number

namespace Binary

variable {f g : BinaryFormat}

/-! ## What a number is worth -/

/-- What a finite number is worth. -/
def toRat (x : Binary f) : ℚ := (if x.negative then -1 else 1) * (x.units / 2 ^ f.unitExponent)

/-- What a number is worth that is no NaN. -/
def value (x : Binary f) : WithBot (WithTop ℚ) :=
  if x.isFinite then (x.toRat : WithTop ℚ)
  else if x.negative then ⊥
  else ⊤

theorem value_infinite (negative : Bool) : (infinite negative : Binary f).value = if negative then ⊥ else ⊤ := by
  have hfinite : (infinite negative : Binary f).isFinite = false := decide_eq_false (Nat.lt_irrefl _)
  unfold value
  rw [if_neg (by simp [hfinite])]
  rfl

/-- The same sign and the same units at another place are worth the same. -/
theorem toRat_eq_of_units {x : Binary f} {y : Binary g} {d : Nat} (hd : g.unitExponent = f.unitExponent + d)
    (hsign : y.negative = x.negative) (hunits : y.units = x.units * 2 ^ d) : y.toRat = x.toRat := by
  unfold toRat
  rw [hsign, hunits, hd, pow_add, Nat.cast_mul, Nat.cast_pow, Nat.cast_ofNat, mul_div_mul_right]
  exact pow_ne_zero d two_ne_zero

/-- **Numbers without a sign are in the order of their ranks**, up to infinity. -/
theorem value_lt_of_rank_lt {x y : Binary f} (hx : x.negative = false) (hy : y.negative = false)
    (hnumber : y.isNaN = false) (h : x.rank < y.rank) : x.value < y.value := by
  have hle : y.rank ≤ f.infinity := Nat.le_of_not_lt (of_decide_eq_false hnumber)
  have hfinite : x.isFinite = true := decide_eq_true (Nat.lt_of_lt_of_le h hle)
  unfold value
  rw [if_pos hfinite]
  by_cases hyfinite : y.isFinite = true
  · rw [if_pos hyfinite, WithBot.coe_lt_coe, WithTop.coe_lt_coe]
    have hunits : x.units < y.units := f.units_strictMono h
    unfold toRat
    rw [hx, hy]
    simp only [Bool.false_eq_true, if_false, one_mul]
    exact div_lt_div_of_pos_right (Nat.cast_lt.2 hunits) (pow_pos two_pos _)
  · rw [if_neg hyfinite, if_neg (by simp [hy])]
    exact WithBot.coe_lt_coe.2 (WithTop.coe_lt_top _)

/-! ## Through eight bytes -/

/-- A number that has a rank in another format is converted to that rank. -/
theorem convert_of_units {x : Binary f} (hx : x.isFinite = true) {r : Nat} (hr : r < g.infinity)
    (h : g.units r * 2 ^ f.unitExponent = x.units * 2 ^ g.unitExponent) :
    (x.convert g).negative = x.negative ∧ (x.convert g).rank = r := by
  rw [convert_of_isFinite hx]
  exact ⟨rfl, BinaryFormat.nearest_of_units (Nat.two_pow_pos _) hr h⟩

theorem unitExponent_double :
    BinaryFormat.double.unitExponent = BinaryFormat.single.unitExponent + 925 := rfl

/-- The largest numbers of four bytes are far from the largest of eight. -/
theorem lt_infinity_of_units {r r' : Nat} (hr : r < BinaryFormat.single.infinity)
    (h : BinaryFormat.double.units r' = BinaryFormat.single.units r * 2 ^ 925) :
    r' < BinaryFormat.double.infinity := by
  have htop := BinaryFormat.double.units_infinity (by decide)
  have hexponent : 2 ^ BinaryFormat.double.exponentBits - 2 = 2046 := rfl
  rw [hexponent] at htop
  refine BinaryFormat.double.units_strictMono.lt_iff_lt.1 ?_
  rw [h, htop]
  refine Nat.lt_of_lt_of_le (Nat.mul_lt_mul_of_pos_right (units_lt hr) (pow_pos two_pos _)) ?_
  rw [← pow_add, ← pow_add, ← pow_add]
  exact pow_le_pow_right₀ one_le_two (by decide)

/-- **Eight bytes hold every finite number of four.** -/
theorem widen_of_isFinite {x : Single} (hx : x.isFinite = true) :
    x.widen.isFinite = true ∧ x.widen.negative = x.negative ∧ x.widen.units = x.units * 2 ^ 925 := by
  obtain ⟨r, hr⟩ := exists_units_double x.rank (show 52 ≤ 925 by decide)
  have hlt : r < BinaryFormat.double.infinity := lt_infinity_of_units (of_decide_eq_true hx) hr
  have hscale : BinaryFormat.double.units r * 2 ^ BinaryFormat.single.unitExponent
      = x.units * 2 ^ BinaryFormat.double.unitExponent := by
    rw [hr, unitExponent_double, mul_assoc, ← pow_add, Nat.add_comm 925]
    rfl
  obtain ⟨hsign, hrank⟩ := convert_of_units hx hlt hscale
  refine ⟨decide_eq_true ?_, hsign, ?_⟩
  · exact hrank.symm ▸ hlt
  · exact (congrArg BinaryFormat.double.units hrank).trans hr

/-- A number that is no NaN is the same after it has been in eight bytes. -/
theorem convert_widen {x : Single} (hnumber : x.isNaN = false) : (x.widen.convert .single : Single) = x := by
  by_cases hx : x.isFinite = true
  · obtain ⟨hfinite, hsign, hunits⟩ := widen_of_isFinite hx
    have hscale : BinaryFormat.single.units x.rank * 2 ^ BinaryFormat.double.unitExponent
        = x.widen.units * 2 ^ BinaryFormat.single.unitExponent := by
      rw [hunits, unitExponent_double, mul_assoc, ← pow_add, Nat.add_comm 925]
      rfl
    obtain ⟨hsign', hrank⟩ := convert_of_units hfinite (of_decide_eq_true hx) hscale
    exact eq_of_rank (hsign'.trans hsign) hrank
  · rw [eq_infinite_of_not_isFinite hnumber (Bool.eq_false_iff.2 hx)]
    unfold widen
    rw [convert_infinite, convert_infinite]

/-- A number that is no NaN is worth the same in eight bytes. -/
theorem value_widen {x : Single} (hnumber : x.isNaN = false) : x.widen.value = x.value := by
  by_cases hx : x.isFinite = true
  · obtain ⟨hfinite, hsign, hunits⟩ := widen_of_isFinite hx
    unfold value
    rw [if_pos hx, if_pos hfinite, toRat_eq_of_units unitExponent_double hsign hunits]
  · rw [eq_infinite_of_not_isFinite hnumber (Bool.eq_false_iff.2 hx)]
    unfold widen
    rw [convert_infinite, value_infinite, value_infinite]

/-- Four bytes hold again what they held before. -/
theorem narrow?_widen {x : Single} (hnumber : x.isNaN = false) : x.widen.narrow? = some x := by
  unfold narrow?
  rw [convert_widen hnumber]
  by_cases hx : x.isFinite = true
  · obtain ⟨-, hinfinite⟩ := (isFinite_iff x).1 hx
    simp [hinfinite]
  · rw [eq_infinite_of_not_isFinite hnumber (Bool.eq_false_iff.2 hx)]
    unfold widen
    rw [convert_infinite]
    rfl

/-! ## Words -/

/-- A word holds a sign and, below it, a rank. -/
theorem exists_ofWord? {v : Int} (h : Word.Fits v) : ∃ x : Single, ofWord? v = some x ∧
    x.negative = decide (v < 0) ∧ (x.rank : Int) = if v < 0 then v + 0x80000000 else v := by
  have hranks : BinaryFormat.single.ranks = 0x80000000 := rfl
  unfold ofWord?
  rw [if_pos h]
  refine ⟨_, rfl, ?_⟩
  simp only [ofBits, hranks, Word.pattern]
  simp only [Word.Fits] at h
  by_cases hv : v < 0
  · have hpattern : (v % 0x100000000).toNat = (v + 0x80000000).toNat + 0x80000000 := by omega
    rw [if_pos hv, decide_eq_true hv, hpattern, Nat.add_div_right _ (by decide), Nat.div_eq_of_lt (by omega)]
    exact ⟨rfl, by omega⟩
  · have hpattern : (v % 0x100000000).toNat = v.toNat := by omega
    rw [if_neg hv, decide_eq_false hv, hpattern, Nat.div_eq_of_lt (by omega)]
    exact ⟨rfl, by omega⟩

end Binary
end Number

namespace Literal

open Number

/-- **Operands of fractions survive eight bytes.** The number that a word holds is worth the same in eight bytes, and
its operand there is the word again, unless it is a NaN: these are the words above that of infinity, with a sign or
without. Words without a sign are in the order of what they are worth in eight bytes, up to infinity. -/
theorem floatOperand_widen :
    (∀ b, Word.Fits b → ∃ x, Binary.ofWord? b = some x ∧
      (x.isNaN = true ↔ 0x7F800000 < b ∨ -0x800000 < b ∧ b < 0) ∧
      (x.isNaN = false → x.widen.value = x.value ∧ floatOperand x.widen = .ok b)) ∧
    ∀ b c, 0 ≤ b → b < c → c ≤ 0x7F800000 → ∃ x y,
      Binary.ofWord? b = some x ∧ Binary.ofWord? c = some y ∧ x.widen.value < y.widen.value := by
  have hinfinity : BinaryFormat.single.infinity = 0x7F800000 := rfl
  refine ⟨fun b hb => ?_, fun b c hb hlt hc => ?_⟩
  · obtain ⟨x, hx, -, hrank⟩ := Binary.exists_ofWord? hb
    refine ⟨x, hx, ?_, fun hnumber => ⟨Binary.value_widen hnumber, ?_⟩⟩
    · simp only [Word.Fits] at hb
      rw [Binary.isNaN, decide_eq_true_eq, hinfinity]
      split at hrank <;> omega
    · unfold floatOperand
      rw [Binary.narrow?_widen hnumber]
      exact congrArg Except.ok (Binary.toWord_of_ofWord? hx)
  · obtain ⟨x, hx, hxsign, hxrank⟩ := Binary.exists_ofWord? (v := b) ⟨by omega, by omega⟩
    obtain ⟨y, hy, hysign, hyrank⟩ := Binary.exists_ofWord? (v := c) ⟨by omega, by omega⟩
    rw [if_neg (by omega)] at hxrank hyrank
    have hless : x.rank < y.rank := by omega
    have hynumber : y.isNaN = false := decide_eq_false (by omega)
    have hxnumber : x.isNaN = false := decide_eq_false (by omega)
    refine ⟨x, y, hx, hy, ?_⟩
    rw [Binary.value_widen hxnumber, Binary.value_widen hynumber]
    refine Binary.value_lt_of_rank_lt ?_ ?_ hynumber hless
    · rw [hxsign, decide_eq_false (by omega)]
    · rw [hysign, decide_eq_false (by omega)]

/-- The least subnormal number, the zero with a sign and infinity survive, and the first is above zero. -/
theorem floatOperand_widen_least :
    (∃ x, Binary.ofWord? 1 = some x ∧ floatOperand x.widen = .ok 1) ∧
      (∃ x, Binary.ofWord? (-0x80000000) = some x ∧ floatOperand x.widen = .ok (-0x80000000)) ∧
      (∃ x, Binary.ofWord? 0x7F800000 = some x ∧ floatOperand x.widen = .ok 0x7F800000) ∧
      ∃ x y, Binary.ofWord? 0 = some x ∧ Binary.ofWord? 1 = some y ∧ x.widen.value < y.widen.value := by
  have hsurvives : ∀ b, Word.Fits b → ¬(0x7F800000 < b ∨ -0x800000 < b ∧ b < 0) →
      ∃ x, Binary.ofWord? b = some x ∧ floatOperand x.widen = .ok b := by
    intro b hb hnumber
    obtain ⟨x, hx, hnan, hoperand⟩ := floatOperand_widen.1 b hb
    exact ⟨x, hx, (hoperand (Bool.eq_false_iff.2 fun h => hnumber (hnan.1 h))).2⟩
  exact ⟨hsurvives 1 (by decide) (by decide), hsurvives (-0x80000000) (by decide) (by decide),
    hsurvives 0x7F800000 (by decide) (by decide), floatOperand_widen.2 0 1 (by decide) (by decide) (by decide)⟩

end Literal
end Storyboard
