/-
What rounding to a binary format gives, as statements about whole numbers.

A finite number is worth `units` of the least positive magnitude, so that a distance to `num / den` units is
the distance of `units * den` to `num`. No other number of the format is nearer to a quotient than the one it
is rounded to (`dist_nearest_le`), and the distance is at most half of what the last place is worth
(`exists_units_nearest`). A quotient becomes infinite from the middle of the largest finite magnitude and the next
power of two on (`nearest_lt_infinity_iff`).
-/
import Mathlib.Algebra.Ring.Nat
import Mathlib.Data.Nat.Dist
import Storyboard.Number.Decimal

namespace Storyboard.Number

/-! ## Rounded quotients -/

/-- A rounded quotient is a whole number nearest to the quotient, and of two such the even one. -/
theorem roundHalfEven_eq_iff {num den n : Nat} (hden : 0 < den) :
    roundHalfEven num den = n ↔
      2 * (n * den) ≤ 2 * num + den ∧ 2 * num ≤ 2 * (n * den) + den ∧
        (2 * (n * den) = 2 * num + den ∨ 2 * num = 2 * (n * den) + den → n % 2 = 0) := by
  have hdiv := Nat.div_add_mod num den
  have hmod := Nat.mod_lt num hden
  rw [Nat.mul_comm] at hdiv
  have hside : n < num / den ∧ n * den + den ≤ num / den * den ∨ n = num / den ∨ n = num / den + 1 ∨
      num / den + 1 < n ∧ num / den * den + 2 * den ≤ n * den := by
    rcases Nat.lt_or_ge n (num / den) with h | h
    · have := Nat.mul_le_mul_right den h
      rw [Nat.succ_mul] at this
      exact .inl ⟨h, this⟩
    · rcases Nat.lt_or_ge (num / den + 1) n with h' | h'
      · have := Nat.mul_le_mul_right den h'
        rw [Nat.succ_mul, Nat.succ_mul] at this
        exact .inr (.inr (.inr ⟨h', by omega⟩))
      · omega
  have hnext : (num / den + 1) * den = num / den * den + den := Nat.succ_mul _ _
  unfold roundHalfEven
  dsimp only
  split
  · next h =>
    rcases hside with hside | rfl | rfl | hside
    · omega
    · omega
    · omega
    · omega
  · next h =>
    rcases hside with hside | rfl | rfl | hside
    · omega
    · omega
    · omega
    · omega

theorem roundHalfEven_le {num den q : Nat} (hden : 0 < den) (h : num ≤ q * den) : roundHalfEven num den ≤ q := by
  obtain ⟨hup, -, -⟩ := (roundHalfEven_eq_iff hden).1 (Eq.refl (roundHalfEven num den))
  refine Nat.le_of_not_lt fun hlt => ?_
  have := Nat.mul_le_mul_right den hlt
  rw [Nat.succ_mul] at this
  omega

theorem le_roundHalfEven {num den q : Nat} (hden : 0 < den) (h : q * den ≤ num) : q ≤ roundHalfEven num den := by
  obtain ⟨-, hdown, -⟩ := (roundHalfEven_eq_iff hden).1 (Eq.refl (roundHalfEven num den))
  refine Nat.le_of_not_lt fun hlt => ?_
  have := Nat.mul_le_mul_right den hlt
  rw [Nat.succ_mul] at this
  omega

/-- What is rounded to less than an even whole number: all that is more than a half below it, for the odd number in
front of it gives way to it at the half. -/
theorem roundHalfEven_lt_iff {num den q : Nat} (hden : 0 < den) (heven : q % 2 = 0) :
    roundHalfEven num den < q ↔ 2 * num + den < 2 * (q * den) := by
  obtain ⟨hup, hdown, htie⟩ := (roundHalfEven_eq_iff hden).1 (Eq.refl (roundHalfEven num den))
  generalize roundHalfEven num den = n at hup hdown htie ⊢
  constructor
  · intro hlt
    have hnext := Nat.mul_le_mul_right den hlt
    rw [Nat.succ_mul] at hnext
    rcases Nat.eq_or_lt_of_le (Nat.succ_le_of_lt hlt) with rfl | hlt'
    · omega
    · have hfar := Nat.mul_le_mul_right den (Nat.succ_le_of_lt hlt')
      rw [Nat.succ_mul, Nat.succ_mul] at hfar
      omega
  · intro hnum
    refine Nat.lt_of_not_le fun hle => ?_
    have := Nat.mul_le_mul_right den hle
    omega

/-- A whole number is rounded to itself. -/
theorem roundHalfEven_mul {den : Nat} (hden : 0 < den) (q : Nat) : roundHalfEven (q * den) den = q :=
  Nat.le_antisymm (roundHalfEven_le hden (Nat.le_refl _)) (le_roundHalfEven hden (Nat.le_refl _))

theorem two_mul_dist_roundHalfEven_le (num : Nat) {den : Nat} (hden : 0 < den) :
    2 * Nat.dist (roundHalfEven num den * den) num ≤ den := by
  obtain ⟨hle, hge, -⟩ := (roundHalfEven_eq_iff hden).1 (Eq.refl (roundHalfEven num den))
  unfold Nat.dist
  omega

/-- No other multiple is nearer. -/
theorem dist_roundHalfEven_le (num : Nat) {den : Nat} (hden : 0 < den) (j : Nat) :
    Nat.dist (roundHalfEven num den * den) num ≤ Nat.dist (j * den) num := by
  have hhalf := two_mul_dist_roundHalfEven_le num hden
  generalize roundHalfEven num den = n at hhalf ⊢
  rcases Nat.lt_trichotomy j n with h | rfl | h
  · have := Nat.mul_le_mul_right den h
    rw [Nat.succ_mul] at this
    unfold Nat.dist at hhalf ⊢
    omega
  · exact Nat.le_refl _
  · have := Nat.mul_le_mul_right den h
    rw [Nat.succ_mul] at this
    unfold Nat.dist at hhalf ⊢
    omega

namespace BinaryFormat

/-! ## What ranks are worth -/

theorem units_eq (f : BinaryFormat) (r : Nat) :
    f.units r = if r < 2 ^ f.fractionBits then r
      else (2 ^ f.fractionBits + r % 2 ^ f.fractionBits) * 2 ^ (r / 2 ^ f.fractionBits - 1) := by
  simp only [units, Nat.pow_eq]

/-- A rank counts whole numbers of the format's bits, place by place. -/
theorem exists_place (f : BinaryFormat) (r : Nat) :
    ∃ k s, r = s * 2 ^ f.fractionBits + k ∧ f.units r = k * 2 ^ s ∧ k < 2 ^ (f.fractionBits + 1) ∧
      (s = 0 ∨ 2 ^ f.fractionBits ≤ k) := by
  have hpos := Nat.two_pow_pos f.fractionBits
  have hmod := Nat.mod_lt r hpos
  have hdiv := Nat.div_add_mod r (2 ^ f.fractionBits)
  rw [units_eq, Nat.pow_succ]
  split
  · exact ⟨r, 0, by simp, by simp, by omega, .inl rfl⟩
  · next h =>
    have hplace : 1 ≤ r / 2 ^ f.fractionBits := (Nat.one_le_div_iff hpos).2 (Nat.le_of_not_lt h)
    refine ⟨_, r / 2 ^ f.fractionBits - 1, ?_, rfl, by omega, .inr (Nat.le_add_right _ _)⟩
    rw [Nat.mul_comm, ← Nat.add_assoc, Nat.mul_sub_one, Nat.sub_add_cancel (Nat.le_mul_of_pos_right _ hplace), hdiv]

/-- What a rank is worth is a short whole number at some power of two. -/
theorem exists_units (f : BinaryFormat) (r : Nat) :
    ∃ k s, f.units r = k * 2 ^ s ∧ k < 2 ^ (f.fractionBits + 1) ∧ (s = 0 ∨ 2 ^ f.fractionBits ≤ k) := by
  obtain ⟨k, s, -, hunits⟩ := f.exists_place r
  exact ⟨k, s, hunits⟩

/-- A whole number of the format's bits at a power of two has a rank. -/
theorem units_add (f : BinaryFormat) {q shift : Nat} (hq : q ≤ 2 ^ (f.fractionBits + 1))
    (hshift : shift = 0 ∨ 2 ^ f.fractionBits ≤ q) :
    f.units (shift * 2 ^ f.fractionBits + q) = q * 2 ^ shift := by
  have hpos := Nat.two_pow_pos f.fractionBits
  rw [units_eq]
  rw [Nat.pow_succ] at hq
  generalize 2 ^ f.fractionBits = u at hpos hq hshift ⊢
  by_cases hlt : q < u
  · obtain rfl : shift = 0 := by omega
    rw [Nat.zero_mul, Nat.zero_add, if_pos hlt, Nat.pow_zero, Nat.mul_one]
  · have hdiv : (shift * u + q) / u = shift + q / u := by
      rw [Nat.add_comm, Nat.add_mul_div_right _ _ hpos, Nat.add_comm]
    have hmod : (shift * u + q) % u = q % u := by
      rw [Nat.add_comm, Nat.add_mul_mod_self_right]
    rw [if_neg (by omega), hdiv, hmod]
    rcases Nat.eq_or_lt_of_le hq with rfl | hlt'
    · have hq : u * 2 / u = 2 := Nat.mul_div_cancel_left 2 hpos
      rw [hq, Nat.mul_mod_right, show shift + 2 - 1 = shift + 1 from rfl, Nat.pow_succ]
      simp only [Nat.add_zero, Nat.mul_assoc, Nat.mul_comm 2]
    · have hq : q / u = 1 := Nat.div_eq_of_lt_le (by omega) (by omega)
      have hrest := Nat.mod_eq_sub_mod (Nat.le_of_not_lt hlt)
      rw [hq, hrest, Nat.mod_eq_of_lt (by omega), Nat.add_sub_cancel, Nat.add_sub_of_le (by omega)]

/-- Ranks are in the order of what they are worth. -/
theorem units_strictMono (f : BinaryFormat) : StrictMono f.units := by
  refine strictMono_nat_of_lt_succ fun r => ?_
  obtain ⟨k, s, hr, hunits, hk, hs⟩ := f.exists_place r
  have hnext : f.units (r + 1) = (k + 1) * 2 ^ s := by
    rw [hr, Nat.add_assoc]
    exact f.units_add hk (hs.imp_right Nat.le_succ_of_le)
  rw [hunits, hnext]
  exact Nat.mul_lt_mul_of_pos_right (Nat.lt_succ_self k) (Nat.two_pow_pos s)

/-- What infinity would be worth as a finite number: the next power of two above the largest finite magnitude. -/
theorem units_infinity (f : BinaryFormat) (hf : 0 < f.exponentBits) :
    f.units f.infinity = 2 ^ f.fractionBits * 2 ^ (2 ^ f.exponentBits - 2) := by
  have htwo : 2 ≤ 2 ^ f.exponentBits := Nat.pow_le_pow_right (show 0 < 2 by decide) hf
  have hlast : f.infinity = (2 ^ f.exponentBits - 2) * 2 ^ f.fractionBits + 2 ^ f.fractionBits := by
    rw [← Nat.succ_mul, Nat.succ_eq_add_one, show 2 ^ f.exponentBits - 2 + 1 = 2 ^ f.exponentBits - 1 by omega]
    rfl
  rw [hlast]
  exact f.units_add (Nat.pow_le_pow_right (by decide) (Nat.le_succ _)) (.inr (Nat.le_refl _))

/-! ## The nearest rank -/

/-- A whole number lies between two powers of two, unless it is zero. -/
theorem bits_spec {n bits : Nat} (h : (if n = 0 then 0 else Nat.log2 n + 1) = bits) :
    n < 2 ^ bits ∧ (bits = 0 ∨ 2 ^ (bits - 1) ≤ n) := by
  subst h
  split
  · next h => simp [h]
  · next h => exact ⟨Nat.lt_log2_self, .inr (Nat.log2_self_le h)⟩

/-- Less than `width` bits at the last place are enough for a quotient of `bits` bits. -/
theorem lt_mul_place {num den bits shift : Nat} (hden : 0 < den) (h : num / den < 2 ^ bits) (width : Nat)
    (hshift : bits - width = shift) : num < 2 ^ width * (den * 2 ^ shift) := by
  have hpow : num / den < 2 ^ width * 2 ^ shift := by
    rw [← Nat.pow_add]
    exact Nat.lt_of_lt_of_le h (Nat.pow_le_pow_right (by omega) (by omega))
  rw [Nat.mul_comm den, ← Nat.mul_assoc]
  exact (Nat.div_lt_iff_lt_mul hden).1 hpow

/-- Where a last place is not the least one, a quotient has all bits above it. -/
theorem place_le_mul {f : BinaryFormat} {num den bits shift : Nat} (hden : 0 < den)
    (h : bits = 0 ∨ 2 ^ (bits - 1) ≤ num / den) (hshift : bits - (f.fractionBits + 1) = shift) :
    shift = 0 ∨ 2 ^ f.fractionBits * (den * 2 ^ shift) ≤ num := by
  rcases Nat.eq_zero_or_pos shift with hzero | hpos
  · exact .inl hzero
  · have hpow : 2 ^ f.fractionBits * 2 ^ shift ≤ num / den := by
      rw [← Nat.pow_add, show f.fractionBits + shift = bits - 1 by omega]
      exact h.resolve_left (by omega)
    rw [Nat.mul_comm den, ← Nat.mul_assoc]
    exact .inr ((Nat.le_div_iff_mul_le hden).1 hpow)

/-- **What the nearest rank is worth**, as long as it is finite: the quotient is rounded at a last place of
`2 ^ shift` units, where it has the format's bits or, at the least place, fewer. -/
theorem exists_units_nearest {f : BinaryFormat} {num den : Nat} (hden : 0 < den)
    (hfinite : f.nearest num den < f.infinity) :
    ∃ shift, f.units (f.nearest num den) = roundHalfEven num (den * 2 ^ shift) * 2 ^ shift ∧
      (shift = 0 ∨ den * 2 ^ shift * 2 ^ f.fractionBits ≤ num) := by
  unfold nearest at hfinite ⊢
  simp only [Nat.pow_eq] at hfinite ⊢
  generalize hbits : (if num / den = 0 then 0 else Nat.log2 (num / den) + 1) = bits at hfinite ⊢
  generalize hshift : bits - (f.fractionBits + 1) = shift at hfinite ⊢
  obtain ⟨hlt, hle⟩ := bits_spec hbits
  have hplace : 0 < den * 2 ^ shift := Nat.mul_pos hden (Nat.two_pow_pos _)
  have habove := lt_mul_place hden hlt (f.fractionBits + 1) hshift
  have hbelow := place_le_mul hden hle hshift
  refine ⟨shift, ?_, by rwa [Nat.mul_comm (den * 2 ^ shift)]⟩
  rw [Nat.min_eq_left (by omega)]
  exact f.units_add (roundHalfEven_le hplace (Nat.le_of_lt habove)) (hbelow.imp_right (le_roundHalfEven hplace))

/-- **What is rounded to something finite**: all that is below the middle of the largest finite magnitude and the next
power of two. -/
theorem nearest_lt_infinity_iff {f : BinaryFormat} {num den : Nat} (hden : 0 < den) (hf : 2 ≤ f.exponentBits) :
    f.nearest num den < f.infinity ↔
      2 * num < (2 ^ (f.fractionBits + 2) - 1) * (den * 2 ^ (2 ^ f.exponentBits - 3)) := by
  obtain ⟨top, htop⟩ : ∃ top, 2 ^ f.exponentBits = top + 3 :=
    ⟨2 ^ f.exponentBits - 3, by have := Nat.pow_le_pow_right (show 0 < 2 by decide) hf; omega⟩
  unfold nearest infinity
  simp only [Nat.pow_eq, htop, Nat.add_sub_cancel, show top + 3 - 1 = top + 2 from rfl]
  generalize hbits : (if num / den = 0 then 0 else Nat.log2 (num / den) + 1) = bits
  generalize hshift : bits - (f.fractionBits + 1) = shift
  obtain ⟨hlt, hle⟩ := bits_spec hbits
  have hplace : ∀ shift, 0 < den * 2 ^ shift := fun shift => Nat.mul_pos hden (Nat.two_pow_pos _)
  have habove := lt_mul_place hden hlt (f.fractionBits + 1) hshift
  have hbelow := place_le_mul hden hle hshift
  have hround := roundHalfEven_le (hplace shift) (Nat.le_of_lt habove)
  rw [Nat.pow_succ] at habove hround
  rw [Nat.pow_add, Nat.add_mul]
  have hpos := Nat.two_pow_pos f.fractionBits
  generalize 2 ^ f.fractionBits = full at habove hbelow hround hpos ⊢
  have hmiddle : (full * 2 ^ 2 - 1) * (den * 2 ^ top) + den * 2 ^ top = 4 * (full * (den * 2 ^ top)) := by
    rw [← Nat.succ_mul, Nat.succ_eq_add_one, Nat.sub_add_cancel (by omega), Nat.mul_comm full, Nat.mul_assoc]
    rfl
  have hscale : ∀ {i j}, i < j → 2 * (full * (den * 2 ^ i)) ≤ full * (den * 2 ^ j) := by
    intro i j hij
    rw [Nat.mul_left_comm 2, Nat.mul_left_comm 2, ← Nat.pow_succ']
    exact Nat.mul_le_mul_left full (Nat.mul_le_mul_left den (Nat.pow_le_pow_right (by decide) hij))
  have hdouble : ∀ n, full * 2 * n = 2 * (full * n) := fun n => by rw [Nat.mul_comm full, Nat.mul_assoc]
  have hone : den * 2 ^ top ≤ full * (den * 2 ^ top) := Nat.le_mul_of_pos_left _ hpos
  have hmin : ∀ a b : Nat, min a b < b ↔ a < b := by omega
  rw [hdouble] at habove
  rw [hmin]
  rcases Nat.lt_trichotomy shift top with hside | rfl | hside
  · have hroom := Nat.mul_le_mul_right full (Nat.succ_le_of_lt hside)
    rw [Nat.succ_mul] at hroom
    have := hscale hside
    exact iff_of_true (by omega) (by omega)
  · have heven : full * 2 % 2 = 0 := Nat.mul_mod_left full 2
    have hlast : roundHalfEven num (den * 2 ^ shift) < full * 2 ↔ _ := roundHalfEven_lt_iff (hplace shift) heven
    rw [hdouble] at hlast
    omega
  · have hroom := Nat.mul_le_mul_right full (Nat.succ_le_of_lt hside)
    rw [Nat.succ_mul] at hroom
    have hfull := hbelow.resolve_left (by omega)
    have := hscale hside
    have := le_roundHalfEven (hplace shift) hfull
    exact iff_of_false (by omega) (by omega)

/-- What is far below the last exponent is rounded to something finite. -/
theorem nearest_lt_infinity {f : BinaryFormat} {num den b : Nat} (hden : 0 < den) (hnum : num < den * 2 ^ b)
    (hb : b + 3 < 2 ^ f.exponentBits) : f.nearest num den < f.infinity := by
  have hf : 2 ≤ f.exponentBits := by
    refine Nat.le_of_not_lt fun h => ?_
    have := Nat.pow_le_pow_right (show 0 < 2 by decide) (Nat.le_of_lt_succ h)
    omega
  have hfull : 0 < 2 ^ (f.fractionBits + 2) - 1 := by
    have := Nat.pow_le_pow_right (show 0 < 2 by decide) (Nat.le_add_left 2 f.fractionBits)
    omega
  refine (nearest_lt_infinity_iff hden hf).2 ?_
  calc 2 * num < 2 * (den * 2 ^ b) := by omega
    _ = den * 2 ^ (b + 1) := by rw [Nat.mul_left_comm, ← Nat.pow_succ']
    _ ≤ den * 2 ^ (2 ^ f.exponentBits - 3) :=
      Nat.mul_le_mul_left den (Nat.pow_le_pow_right (by decide) (by omega))
    _ ≤ (2 ^ (f.fractionBits + 2) - 1) * (den * 2 ^ (2 ^ f.exponentBits - 3)) := Nat.le_mul_of_pos_left _ hfull

/-- **What is no more than a rank is worth is rounded to that rank at most.** -/
theorem nearest_le {f : BinaryFormat} {num den r : Nat} (hden : 0 < den) (h : num ≤ f.units r * den) :
    f.nearest num den ≤ r := by
  obtain ⟨k, s, hr, hunits, hk, hs⟩ := f.exists_place r
  unfold nearest
  simp only [Nat.pow_eq]
  generalize hbits : (if num / den = 0 then 0 else Nat.log2 (num / den) + 1) = bits
  generalize hshift : bits - (f.fractionBits + 1) = shift
  obtain ⟨hlt, hle⟩ := bits_spec hbits
  have hplace : ∀ shift, 0 < den * 2 ^ shift := fun shift => Nat.mul_pos hden (Nat.two_pow_pos _)
  refine Nat.le_trans (Nat.min_le_left _ _) ?_
  have hfew : shift ≤ s := by
    have hquotient : num / den ≤ k * 2 ^ s := by
      rw [← hunits]
      exact Nat.div_le_of_le_mul (by rwa [Nat.mul_comm])
    have hpow : num / den < 2 ^ (f.fractionBits + 1 + s) := by
      rw [Nat.pow_add]
      exact Nat.lt_of_le_of_lt hquotient (Nat.mul_lt_mul_of_pos_right hk (Nat.two_pow_pos s))
    rcases hle with rfl | hle
    · omega
    · have := (Nat.pow_lt_pow_iff_right (by decide)).1 (Nat.lt_of_le_of_lt hle hpow)
      omega
  rcases Nat.eq_or_lt_of_le hfew with rfl | hlt'
  · have hround : roundHalfEven num (den * 2 ^ shift) ≤ k := by
      refine roundHalfEven_le (hplace shift) ?_
      rwa [Nat.mul_left_comm, ← hunits, Nat.mul_comm]
    omega
  · have habove := lt_mul_place hden hlt (f.fractionBits + 1) hshift
    rw [Nat.pow_succ, Nat.mul_comm (2 ^ f.fractionBits) 2] at habove
    have hround := roundHalfEven_le (hplace shift) (Nat.le_of_lt habove)
    have hroom := Nat.mul_le_mul_right (2 ^ f.fractionBits) (Nat.succ_le_of_lt hlt')
    have hfull := hs.resolve_left (by omega)
    rw [Nat.succ_mul] at hroom
    omega

/-- **No rank is nearer** to a quotient than the nearest one, as long as that is finite. -/
theorem dist_nearest_le {f : BinaryFormat} {num den : Nat} (hden : 0 < den)
    (hfinite : f.nearest num den < f.infinity) (r : Nat) :
    Nat.dist (f.units (f.nearest num den) * den) num ≤ Nat.dist (f.units r * den) num := by
  obtain ⟨shift, hunits, hshift⟩ := exists_units_nearest hden hfinite
  have hplace : 0 < den * 2 ^ shift := Nat.mul_pos hden (Nat.two_pow_pos _)
  have hcomm : ∀ q, q * 2 ^ shift * den = q * (den * 2 ^ shift) := by
    intro q
    rw [Nat.mul_assoc, Nat.mul_comm (2 ^ shift)]
  rw [hunits, hcomm]
  obtain ⟨k, s, hr, hk, -⟩ := f.exists_units r
  rcases Nat.lt_or_ge s shift with hs | hs
  · -- The rank is below all that have their last place at `shift`, and the quotient is not.
    have hplaces := hshift.resolve_left (by omega)
    have hbelow : f.units r * den ≤ 2 ^ f.fractionBits * (den * 2 ^ shift) := by
      have hpow : 2 ^ (f.fractionBits + 1) * 2 ^ s ≤ 2 ^ f.fractionBits * 2 ^ shift := by
        rw [← Nat.pow_add, ← Nat.pow_add]
        exact Nat.pow_le_pow_right (by omega) (by omega)
      rw [← hcomm, hr]
      exact Nat.mul_le_mul_right _ (Nat.le_trans (Nat.mul_le_mul_right _ (Nat.le_of_lt hk)) hpow)
    have hnearest := dist_roundHalfEven_le num hplace (2 ^ f.fractionBits)
    rw [Nat.mul_comm (den * 2 ^ shift)] at hplaces
    unfold Nat.dist at hnearest ⊢
    omega
  · have hmultiple : f.units r = k * 2 ^ (s - shift) * 2 ^ shift := by
      rw [hr, Nat.mul_assoc, ← Nat.pow_add, Nat.sub_add_cancel hs]
    rw [hmultiple, hcomm]
    exact dist_roundHalfEven_le _ hplace _

/-- What has a rank is rounded to what it is worth. -/
theorem units_nearest_of_eq {f : BinaryFormat} {num den r : Nat} (hden : 0 < den)
    (hfinite : f.nearest num den < f.infinity) (h : f.units r * den = num) :
    f.units (f.nearest num den) = f.units r := by
  have hdist := dist_nearest_le hden hfinite r
  rw [h, Nat.dist_self, Nat.le_zero] at hdist
  exact Nat.eq_of_mul_eq_mul_right hden ((Nat.eq_of_dist_eq_zero hdist).trans h.symm)

/-- What a finite rank is worth is rounded to that rank. -/
theorem nearest_of_units {f : BinaryFormat} {num den r : Nat} (hden : 0 < den) (hr : r < f.infinity)
    (h : f.units r * den = num) : f.nearest num den = r := by
  have hle : f.nearest num den ≤ r := nearest_le hden (Nat.le_of_eq h.symm)
  exact f.units_strictMono.injective (units_nearest_of_eq hden (Nat.lt_of_le_of_lt hle hr) h)

/-- The distance to a quotient that is no less than the least one with all the format's bits is at most half
of the last of these bits. -/
theorem dist_nearest_mul_le {f : BinaryFormat} {num den : Nat} (hden : 0 < den)
    (hfinite : f.nearest num den < f.infinity) (hnum : den * 2 ^ f.fractionBits ≤ num) :
    Nat.dist (f.units (f.nearest num den) * den) num * 2 ^ (f.fractionBits + 1) ≤ num := by
  obtain ⟨shift, hunits, hshift⟩ := exists_units_nearest hden hfinite
  have hplaces : den * 2 ^ shift * 2 ^ f.fractionBits ≤ num := by
    rcases hshift with rfl | h
    · rwa [Nat.pow_zero, Nat.mul_one]
    · exact h
  have hhalf := two_mul_dist_roundHalfEven_le num (Nat.mul_pos hden (Nat.two_pow_pos shift))
  have hbits := Nat.mul_le_mul_right (2 ^ f.fractionBits) hhalf
  rw [hunits, Nat.mul_assoc _ (2 ^ shift), Nat.mul_comm (2 ^ shift), Nat.pow_succ,
    Nat.mul_comm (2 ^ f.fractionBits), ← Nat.mul_assoc, Nat.mul_comm _ 2]
  exact Nat.le_trans hbits hplaces

end BinaryFormat
end Storyboard.Number
