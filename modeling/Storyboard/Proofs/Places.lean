/-
A four-byte number that is shown with four decimal places shows the same places after it has been read.

Reading rounds twice: the decimal fraction to eight bytes, then to four. Both results are nearest ones, so the
number that is read is hardly farther from the fraction than the number that was shown, which is half a place
away at most; and a four-byte number is not just a little more than half a place away from a fraction with
four places (`Granular`). So it rounds to the same fraction (`places_reread`).
-/
import Mathlib.Tactic.Ring
import Storyboard.Proofs.Nearest
import Storyboard.Proofs.Number

namespace Storyboard.Number

/-! ## Granularity -/

/-- Unless `w` is half of `m` away from `c`, it is so by more than a tiny part of `c`. -/
def Granular (c m w : Nat) : Prop :=
  c ≤ 4 * w →
    (2 * w = 2 * c + m ∨ c < 2 ^ 51 * Nat.dist (2 * w) (2 * c + m)) ∧
      (2 * c = 2 * w + m ∨ c < 2 ^ 51 * Nat.dist (2 * c) (2 * w + m))

theorem Granular.mul {c m w : Nat} (h : Granular c m w) {k : Nat} (hk : 0 < k) :
    Granular (c * k) (m * k) (w * k) := by
  have hscale : ∀ a b : Nat, 2 * (a * k) = 2 * (b * k) + m * k ∨
      c * k < 2 ^ 51 * Nat.dist (2 * (a * k)) (2 * (b * k) + m * k) ↔
      2 * a = 2 * b + m ∨ c < 2 ^ 51 * Nat.dist (2 * a) (2 * b + m) := by
    intro a b
    rw [← Nat.mul_assoc, ← Nat.mul_assoc, ← Nat.add_mul, Nat.dist_mul_right, ← Nat.mul_assoc,
      Nat.mul_lt_mul_right hk, Nat.mul_right_cancel_iff hk]
  intro hle
  rw [← Nat.mul_assoc, Nat.mul_le_mul_right_iff hk] at hle
  obtain ⟨h1, h2⟩ := h hle
  exact ⟨(hscale w c).2 h1, (hscale c w).2 h2⟩

/-- Different multiples are apart. -/
theorem le_dist_of_dvd {a b g : Nat} (ha : g ∣ a) (hb : g ∣ b) (h : a ≠ b) : g ≤ Nat.dist a b := by
  obtain ⟨i, rfl⟩ := ha
  obtain ⟨j, rfl⟩ := hb
  have hne : i ≠ j := fun hij => h (by rw [hij])
  rw [Nat.dist_mul_left]
  exact Nat.le_mul_of_pos_right g (Nat.dist_pos_of_ne hne)

theorem granular_of_dvd {c m w g : Nat} (hw : g ∣ 2 * w) (hc : g ∣ 2 * c) (hm : g ∣ m)
    (hlt : c ≤ 4 * w → c < 2 ^ 51 * g) : Granular c m w := by
  have happly : ∀ {a b : Nat}, g ∣ a → g ∣ b → c ≤ 4 * w → a = b ∨ c < 2 ^ 51 * Nat.dist a b := by
    intro a b ha hb hle
    by_cases h : a = b
    · exact .inl h
    · have := le_dist_of_dvd ha hb h
      have := hlt hle
      omega
  exact fun hle => ⟨happly hw (Nat.dvd_add hc hm) hle, happly hc (Nat.dvd_add hw hm) hle⟩

/-- Four-byte numbers are granular with respect to fractions with four places. -/
theorem granular_units {n r : Nat} (hn : n < 2 ^ 51) :
    Granular (n * 2 ^ 149) (2 ^ 149) (BinaryFormat.single.units r * 10 ^ 4) := by
  obtain ⟨k, s, hr, hk, -⟩ := BinaryFormat.single.exists_units r
  have hk : k < 2 ^ 24 := hk
  have hplace : 2 * (k * 2 ^ s * 10 ^ 4) = 2 ^ (s + 5) * (k * 625) := by
    rw [Nat.pow_add]
    ring
  rw [hr]
  rcases Nat.le_total (s + 5) 149 with hs | hs
  · have hpow : 2 ^ (s + 5) ∣ 2 ^ 149 := Nat.pow_dvd_pow 2 hs
    refine granular_of_dvd (hplace ▸ Nat.dvd_mul_right _ _)
      (Nat.dvd_mul_left_of_dvd (Nat.dvd_mul_left_of_dvd hpow _) _) hpow fun hle => ?_
    have hlt : 2 * (k * 2 ^ s * 10 ^ 4) < 2 ^ (s + 5) * (2 ^ 24 * 625) := by
      rw [hplace]
      exact Nat.mul_lt_mul_of_pos_left (Nat.mul_lt_mul_of_pos_right hk (by decide)) (Nat.two_pow_pos _)
    exact Nat.lt_of_le_of_lt hle (by omega)
  · have hpow : 2 ^ 149 ∣ 2 ^ (s + 5) := Nat.pow_dvd_pow 2 hs
    refine granular_of_dvd (hplace ▸ Nat.dvd_mul_right_of_dvd hpow _)
      (Nat.dvd_mul_left_of_dvd (Nat.dvd_mul_left _ _) _) (Nat.dvd_refl _) fun _ => ?_
    exact Nat.mul_lt_mul_of_pos_right hn (by decide)

/-! ## Nearest results -/

/-- Where `a` is no farther from `e` than `u`, which is at most half of `m` away from `c`, and `e` is almost
`c`, then `a` is at most half of `m` away from `c` as well, and only if `u` is, is it just that. -/
theorem half_of_granular {a u c m e : Nat} (hm : m ≤ c) (hu : 2 * c ≤ 2 * u + m) (hu' : 2 * u ≤ 2 * c + m)
    (hau : Nat.dist a e ≤ Nat.dist u e) (hec : Nat.dist e c * 2 ^ 53 ≤ c)
    (hga : Granular c m a) (hgu : Granular c m u) :
    2 * c ≤ 2 * a + m ∧ 2 * a ≤ 2 * c + m ∧
      (2 * c = 2 * a + m ∨ 2 * a = 2 * c + m → 2 * c = 2 * u + m ∨ 2 * u = 2 * c + m) := by
  have hnear : 2 ^ 51 * (2 * a) ≤ 2 ^ 51 * (2 * c + m) + c ∧
      2 ^ 51 * (2 * c) ≤ 2 ^ 51 * (2 * a + m) + c := by
    unfold Nat.dist at hau hec
    omega
  obtain ⟨ha, ha'⟩ := hga (by omega)
  obtain ⟨hgu, hgu'⟩ := hgu (by omega)
  have hle : 2 * a ≤ 2 * c + m := by
    refine Nat.le_of_not_lt fun h => ?_
    rw [Nat.dist_eq_sub_of_le_right (by omega)] at ha
    omega
  have hge : 2 * c ≤ 2 * a + m := by
    refine Nat.le_of_not_lt fun h => ?_
    rw [Nat.dist_eq_sub_of_le_right (by omega)] at ha'
    omega
  refine ⟨hge, hle, ?_⟩
  -- If `a` is half of `m` away on one side, `u` cannot be nearer to `c`, so it is so on the other side.
  rintro (h | h)
  · rcases Nat.eq_or_lt_of_le hu with hu | hu
    · exact .inl hu
    · have hfar : 2 ^ 51 * (2 * c + m) ≤ 2 ^ 51 * (2 * u) + c := by
        unfold Nat.dist at hau hec
        omega
      rw [Nat.dist_eq_sub_of_le hu'] at hgu
      omega
  · rcases Nat.eq_or_lt_of_le hu' with hu' | hu'
    · exact .inr hu'
    · have hfar : 2 ^ 51 * (2 * u + m) ≤ 2 ^ 51 * (2 * c) + c := by
        unfold Nat.dist at hau hec
        omega
      rw [Nat.dist_eq_sub_of_le hu] at hgu'
      omega

/-! ## Reading what is shown -/

/-- What a rank of four bytes is worth, a rank of eight bytes is worth at another place. -/
theorem exists_units_double (r : Nat) {d : Nat} (hd : 52 ≤ d) :
    ∃ r', BinaryFormat.double.units r' = BinaryFormat.single.units r * 2 ^ d := by
  obtain ⟨k, s, hr, hk, -⟩ := BinaryFormat.single.exists_units r
  have hk : k < 2 ^ 24 := hk
  rw [hr]
  rcases Nat.eq_zero_or_pos k with rfl | hpos
  · exact ⟨0, by rw [BinaryFormat.units_eq]; simp⟩
  · -- The bits of `k` are shifted up to the uppermost place.
    have hne := Nat.pos_iff_ne_zero.1 hpos
    obtain ⟨j, hj⟩ : ∃ j, Nat.log2 k + j = 52 :=
      ⟨52 - Nat.log2 k, by have := (Nat.log2_lt hne).2 hk; omega⟩
    have hlow : 2 ^ 52 ≤ k * 2 ^ j := by
      rw [← hj, Nat.pow_add]
      exact Nat.mul_le_mul_right _ (Nat.log2_self_le hne)
    have hhigh : k * 2 ^ j ≤ 2 ^ 53 := by
      rw [show 53 = Nat.log2 k + 1 + j by omega, Nat.pow_add]
      exact Nat.mul_le_mul_right _ (Nat.le_of_lt Nat.lt_log2_self)
    have hunits : BinaryFormat.double.units ((s + d - j) * 2 ^ 52 + k * 2 ^ j) = k * 2 ^ j * 2 ^ (s + d - j) :=
      BinaryFormat.double.units_add hhigh (.inr hlow)
    refine ⟨_, hunits.trans ?_⟩
    rw [Nat.mul_assoc, ← Nat.pow_add, Nat.mul_assoc, ← Nat.pow_add, show j + (s + d - j) = s + d by omega]

/-- Where a number is no farther from `e` than `u` is, and `e` is almost the fraction that `u` is rounded to,
the number is rounded to the same fraction. -/
theorem roundHalfEven_of_near {u a n e k : Nat} (hk : 0 < k) (hn : 0 < n)
    (hround : roundHalfEven (u * 10 ^ 4) (2 ^ 149) = n)
    (hau : Nat.dist (a * 10 ^ 4 * k) e ≤ Nat.dist (u * 10 ^ 4 * k) e)
    (hec : Nat.dist e (n * 2 ^ 149 * k) * 2 ^ 53 ≤ n * 2 ^ 149 * k)
    (hga : Granular (n * 2 ^ 149) (2 ^ 149) (a * 10 ^ 4))
    (hgu : Granular (n * 2 ^ 149) (2 ^ 149) (u * 10 ^ 4)) :
    roundHalfEven (a * 10 ^ 4) (2 ^ 149) = n := by
  have hplace : 0 < 2 ^ 149 := Nat.two_pow_pos 149
  obtain ⟨hu, hu', htie⟩ := (roundHalfEven_eq_iff hplace).1 hround
  have hscale : ∀ {i j : Nat}, 2 * i ≤ 2 * j + 2 ^ 149 ↔ 2 * (i * k) ≤ 2 * (j * k) + 2 ^ 149 * k := by
    intro i j
    rw [← Nat.mul_assoc, ← Nat.mul_assoc, ← Nat.add_mul, Nat.mul_le_mul_right_iff hk]
  have hscale' : ∀ {i j : Nat}, 2 * i = 2 * j + 2 ^ 149 ↔ 2 * (i * k) = 2 * (j * k) + 2 ^ 149 * k := by
    intro i j
    rw [← Nat.mul_assoc, ← Nat.mul_assoc, ← Nat.add_mul, Nat.mul_right_cancel_iff hk]
  have hle : 2 ^ 149 * k ≤ n * 2 ^ 149 * k := Nat.mul_le_mul_right k (Nat.le_mul_of_pos_left _ hn)
  obtain ⟨ha, ha', hatie⟩ :=
    half_of_granular hle (hscale.1 hu) (hscale.1 hu') hau hec (hga.mul hk) (hgu.mul hk)
  rw [← hscale', ← hscale', ← hscale', ← hscale'] at hatie
  exact (roundHalfEven_eq_iff hplace).2 ⟨hscale.2 ha, hscale.2 ha', fun h => htie (hatie h)⟩

/-- What finite four-byte numbers are worth is bounded. -/
theorem units_lt {r : Nat} (h : r < BinaryFormat.single.infinity) :
    BinaryFormat.single.units r < 2 ^ 24 * 2 ^ 253 := by
  have hr : r < 255 * 2 ^ 23 := h
  have hexponent : r / 2 ^ 23 < 255 := Nat.div_lt_of_lt_mul (by omega)
  have hmod := Nat.mod_lt r (Nat.two_pow_pos 23)
  rw [BinaryFormat.units_eq, show BinaryFormat.single.fractionBits = 23 from rfl]
  split
  · have := Nat.two_pow_pos 253
    omega
  · calc (2 ^ 23 + r % 2 ^ 23) * 2 ^ (r / 2 ^ 23 - 1)
        < 2 ^ 24 * 2 ^ (r / 2 ^ 23 - 1) := Nat.mul_lt_mul_of_pos_right (by omega) (Nat.two_pow_pos _)
      _ ≤ 2 ^ 24 * 2 ^ 253 := Nat.mul_le_mul_left _ (Nat.pow_le_pow_right (by decide) (by omega))

/-- A four-byte number that is not a fraction with four places is not large. -/
theorem lt_of_inexact {r n : Nat} (hround : roundHalfEven (BinaryFormat.single.units r * 10 ^ 4) (2 ^ 149) = n)
    (h : BinaryFormat.single.units r * 10 ^ 4 ≠ n * 2 ^ 149) : n < 2 ^ 51 := by
  obtain ⟨k, s, hr, hk, -⟩ := BinaryFormat.single.exists_units r
  have hk : k < 2 ^ 24 := hk
  rw [hr] at hround h
  have hs : s < 145 := by
    refine Nat.lt_of_not_le fun hs => h ?_
    obtain ⟨i, rfl⟩ := Nat.exists_eq_add_of_le hs
    have hmultiple : k * 2 ^ (145 + i) * 10 ^ 4 = k * 2 ^ i * 625 * 2 ^ 149 := by
      rw [Nat.pow_add]
      ring
    rw [hmultiple, roundHalfEven_mul (Nat.two_pow_pos 149)] at hround
    rw [hmultiple, hround]
  have hsmall : k * 2 ^ s * 10 ^ 4 ≤ 2 ^ 24 * 2 ^ 144 * 10 ^ 4 :=
    Nat.mul_le_mul_right _
      (Nat.mul_le_mul (Nat.le_of_lt hk) (Nat.pow_le_pow_right (by decide) (Nat.le_of_lt_succ hs)))
  have hle : n ≤ 2 ^ 50 := by
    rw [← hround]
    exact roundHalfEven_le (Nat.two_pow_pos 149) (Nat.le_trans hsmall (by decide))
  exact Nat.lt_of_le_of_lt hle (by decide)

/-- A fraction with four places that a four-byte number is, eight bytes hold as well. -/
theorem units_double_reread {r n j d : Nat} (hd : 52 ≤ d)
    (hj : BinaryFormat.double.nearest (n * (2 ^ 149 * 2 ^ d)) (10 ^ 4) = j)
    (hjfinite : j < BinaryFormat.double.infinity) (hexact : BinaryFormat.single.units r * 10 ^ 4 = n * 2 ^ 149) :
    BinaryFormat.double.units j = BinaryFormat.single.units r * 2 ^ d := by
  obtain ⟨r', hr'⟩ := exists_units_double r hd
  subst hj
  rw [← hr']
  refine BinaryFormat.units_nearest_of_eq (by decide) hjfinite ?_
  rw [hr', Nat.mul_right_comm, hexact, Nat.mul_assoc]

/-- What is read from four places of a finite four-byte number is finite in four bytes. -/
theorem nearest_reread_lt {r n j d : Nat} (hd : 52 ≤ d) (hr : r < BinaryFormat.single.infinity)
    (hn : roundHalfEven (BinaryFormat.single.units r * 10 ^ 4) (2 ^ 149) = n)
    (hj : BinaryFormat.double.nearest (n * (2 ^ 149 * 2 ^ d)) (10 ^ 4) = j)
    (hjfinite : j < BinaryFormat.double.infinity) :
    BinaryFormat.single.nearest (BinaryFormat.double.units j * 2 ^ 149) (2 ^ 149 * 2 ^ d)
      < BinaryFormat.single.infinity := by
  have hscale : 0 < 2 ^ 149 * 2 ^ d := Nat.mul_pos (Nat.two_pow_pos 149) (Nat.two_pow_pos d)
  by_cases hexact : BinaryFormat.single.units r * 10 ^ 4 = n * 2 ^ 149
  · refine Nat.lt_of_le_of_lt (BinaryFormat.nearest_le hscale (Nat.le_of_eq ?_)) hr
    rw [units_double_reread hd hj hjfinite hexact]
    ring
  · -- It is at most twice as large as what was to be read, and that is small.
    have hsmall := lt_of_inexact hn hexact
    have hzero : BinaryFormat.double.units 0 = 0 := by simp [BinaryFormat.units_eq]
    have hnear := BinaryFormat.dist_nearest_le (by decide) (hj ▸ hjfinite) 0
    rw [hj, hzero, Nat.zero_mul, Nat.dist_zero_left] at hnear
    have hbound : BinaryFormat.double.units j ≤ 2 * (n * (2 ^ 149 * 2 ^ d)) := by
      unfold Nat.dist at hnear
      omega
    have hless : n * (2 ^ 149 * 2 ^ d) < 2 ^ 51 * (2 ^ 149 * 2 ^ d) := Nat.mul_lt_mul_of_pos_right hsmall hscale
    have hb : 201 + 3 < 2 ^ BinaryFormat.single.exponentBits := by decide
    refine BinaryFormat.nearest_lt_infinity hscale ?_ hb
    generalize 2 ^ 149 * 2 ^ d = scale at hbound hless
    omega

section

variable {r n j b y d : Nat} (hd : 52 ≤ d)
  (hj : BinaryFormat.double.nearest (n * (2 ^ 149 * 2 ^ d)) (10 ^ 4) = j)
  (hjfinite : j < BinaryFormat.double.infinity) (hb : BinaryFormat.double.units j = b)
  (hy : BinaryFormat.single.nearest (b * 2 ^ 149) (2 ^ 149 * 2 ^ d) = y)
  (hyfinite : y < BinaryFormat.single.infinity)

include hj hjfinite hb hy hyfinite

include hd in
/-- A four-byte number that is a fraction with four places is read as itself. -/
theorem units_reread (hexact : BinaryFormat.single.units r * 10 ^ 4 = n * 2 ^ 149) :
    BinaryFormat.single.units y = BinaryFormat.single.units r := by
  have hdouble := units_double_reread hd hj hjfinite hexact
  rw [hb] at hdouble
  subst hy
  refine BinaryFormat.units_nearest_of_eq (Nat.mul_pos (Nat.two_pow_pos 149) (Nat.two_pow_pos d)) hyfinite ?_
  rw [hdouble]
  ring

/-- A four-byte number that is not large is read as one that is rounded to the same fraction. -/
theorem roundHalfEven_reread (hn : roundHalfEven (BinaryFormat.single.units r * 10 ^ 4) (2 ^ 149) = n)
    (hpos : 0 < n) (hlt : n < 2 ^ 51) :
    roundHalfEven (BinaryFormat.single.units y * 10 ^ 4) (2 ^ 149) = n := by
  have hplace : 0 < 2 ^ 149 := Nat.two_pow_pos 149
  have hscale : 0 < 2 ^ d := Nat.two_pow_pos d
  refine roundHalfEven_of_near (e := b * 10 ^ 4) hscale hpos hn ?_ ?_ (granular_units hlt) (granular_units hlt)
  · have hnear := BinaryFormat.dist_nearest_le (Nat.mul_pos hplace hscale) (hy ▸ hyfinite) r
    have hcancel : ∀ i, i * (2 ^ 149 * 2 ^ d) = i * 2 ^ d * 2 ^ 149 := fun i => by ring
    rw [hy, hcancel, hcancel, Nat.dist_mul_right, Nat.dist_mul_right,
      Nat.mul_le_mul_right_iff hplace] at hnear
    rw [Nat.mul_right_comm, Nat.mul_right_comm _ (10 ^ 4), Nat.dist_mul_right, Nat.dist_mul_right]
    exact Nat.mul_le_mul_right _ hnear
  · have hnormal : 10 ^ 4 * 2 ^ 52 ≤ n * (2 ^ 149 * 2 ^ d) := by
      have hpow : 1 ≤ n * 2 ^ d := Nat.mul_pos hpos hscale
      rw [Nat.mul_left_comm]
      omega
    have hhalf := BinaryFormat.dist_nearest_mul_le (by decide) (hj ▸ hjfinite) hnormal
    rw [hj, hb, ← Nat.mul_assoc n] at hhalf
    exact hhalf

include hd in
/-- The rank that is read from a fraction with four places is rounded to the same fraction. -/
theorem roundHalfEven_units_reread
    (hn : roundHalfEven (BinaryFormat.single.units r * 10 ^ 4) (2 ^ 149) = n) :
    roundHalfEven (BinaryFormat.single.units y * 10 ^ 4) (2 ^ 149) = n := by
  by_cases hexact : BinaryFormat.single.units r * 10 ^ 4 = n * 2 ^ 149
  · rw [units_reread hd hj hjfinite hb hy hyfinite hexact, hn]
  · rcases Nat.eq_zero_or_pos n with hzero | hpos
    · have hunits : BinaryFormat.single.units 0 = 0 := by simp [BinaryFormat.units_eq]
      have hread : BinaryFormat.single.units 0 * 10 ^ 4 = n * 2 ^ 149 := by
        rw [hunits, hzero, Nat.zero_mul, Nat.zero_mul]
      rw [units_reread hd hj hjfinite hb hy hyfinite hread, hunits, hzero]
      rfl
    · exact roundHalfEven_reread hj hjfinite hb hy hyfinite hn hpos (lt_of_inexact hn hexact)

end

namespace Binary

/-- Numbers from here on are infinite in eight bytes: it is in the middle of the largest finite one and the next power
of two. -/
def doubleLimit : Nat := (2 ^ 54 - 1) * 2 ^ 970

/-- **Which decimal fractions are finite in eight bytes.** -/
theorem isFinite_ofDecimal_iff {negative : Bool} {digits places : Nat} :
    (ofDecimal negative digits places : Double).isFinite = true ↔ digits < doubleLimit * 10 ^ places := by
  have hunit : BinaryFormat.double.unitExponent = 1074 := rfl
  have hfraction : BinaryFormat.double.fractionBits + 2 = 54 := rfl
  have hexponent : 2 ^ BinaryFormat.double.exponentBits - 3 = 970 + (1074 + 1) := rfl
  simp only [isFinite, ofDecimal, ofRatio, Nat.pow_eq, decide_eq_true_eq, hunit]
  rw [BinaryFormat.nearest_lt_infinity_iff (Nat.pow_pos (by decide)) (by decide), hfraction, hexponent, doubleLimit]
  generalize 2 ^ 54 - 1 = full
  generalize 970 = top
  generalize 1074 = unit
  have hscale : full * (10 ^ places * 2 ^ (top + (unit + 1))) = full * 2 ^ top * 10 ^ places * 2 ^ (unit + 1) := by
    rw [Nat.pow_add]
    ring
  rw [Nat.mul_left_comm, ← Nat.pow_succ', hscale, Nat.mul_lt_mul_right (Nat.two_pow_pos _)]

/-- What is read from four decimal places of a four-byte number is finite. -/
theorem isFinite_ofDecimal {x : Single} (hx : x.isFinite = true) {n : Nat}
    (hn : roundHalfEven (x.units * 10 ^ 4) (2 ^ 149) = n) :
    (ofDecimal x.negative n 4 : Double).isFinite = true := by
  have hbound : x.units < 2 ^ 24 * 2 ^ 253 := units_lt (of_decide_eq_true hx)
  have hle : n ≤ 2 ^ 143 := by
    rw [← hn]
    refine roundHalfEven_le (Nat.two_pow_pos 149) ?_
    exact Nat.le_trans (Nat.mul_le_mul_right _ (Nat.le_of_lt hbound)) (by decide)
  exact isFinite_ofDecimal_iff.2 (Nat.lt_of_le_of_lt hle (by decide +kernel))

/-- Converting a finite number to four bytes rounds what it is worth. -/
theorem convert_single_eq {x : Double} (hx : x.isFinite = true) {d : Nat}
    (hd : BinaryFormat.double.unitExponent = 149 + d) :
    (x.convert .single : Single) = ofRatio x.negative (x.units * 2 ^ 149) (2 ^ 149 * 2 ^ d) := by
  rw [convert_of_isFinite hx, hd, ← Nat.pow_add]
  rfl

/-- **What is shown of a finite number can be read**: four bytes hold it. -/
theorem isSome_narrow?_ofDecimal {x : Single} (hx : x.isFinite = true) {n : Nat}
    (hn : roundHalfEven (x.units * 10 ^ 4) (2 ^ 149) = n) :
    (ofDecimal x.negative n 4 : Double).narrow?.isSome = true := by
  have hfinite := isFinite_ofDecimal hx hn
  obtain ⟨d, hd, hd'⟩ : ∃ d, BinaryFormat.double.unitExponent = 149 + d ∧ 52 ≤ d := ⟨925, rfl, by decide⟩
  have hconvert := convert_single_eq hfinite hd
  generalize hz : (ofDecimal x.negative n 4 : Double) = z at hfinite hconvert ⊢
  have hrank : BinaryFormat.double.nearest (n * (2 ^ 149 * 2 ^ d)) (10 ^ 4) = z.rank := by
    rw [← hz]
    simp only [ofDecimal, ofRatio, hd, Nat.pow_eq, Nat.pow_add]
  have hlt : (z.convert .single : Single).rank < BinaryFormat.single.infinity := by
    rw [hconvert]
    exact nearest_reread_lt hd' (of_decide_eq_true hx) hn hrank (of_decide_eq_true hfinite)
  have hinfinite : (z.convert .single : Single).isInfinite = false := beq_eq_false_iff_ne.2 (Nat.ne_of_lt hlt)
  simp [narrow?, hinfinite]

/-- The double nearest to the places that are shown is converted to a number with these places. -/
theorem fixed_convert {x : Single} {z : Double} {n d : Nat} (hn : roundHalfEven (x.units * 10 ^ 4) (2 ^ 149) = n)
    (hd : BinaryFormat.double.unitExponent = 149 + d) (hd' : 52 ≤ d)
    (hz : BinaryFormat.double.nearest (n * (2 ^ 149 * 2 ^ d)) (10 ^ 4) = z.rank)
    (hsign : z.negative = x.negative) (hfinite : z.isFinite = true)
    (hyfinite : (z.convert .single : Single).isFinite = true) :
    (z.convert .single : Single).fixed 4 = x.fixed 4 := by
  have hconvert := convert_single_eq hfinite hd
  generalize (z.convert .single : Single) = y at hconvert hyfinite ⊢
  have hrank : BinaryFormat.single.nearest (z.units * 2 ^ 149) (2 ^ 149 * 2 ^ d) = y.rank := by
    rw [hconvert]
    rfl
  have hnegative : y.negative = x.negative := by
    rw [hconvert, ← hsign]
    rfl
  have hunits : roundHalfEven (y.units * 10 ^ 4) (2 ^ 149) = n :=
    roundHalfEven_units_reread hd' hz (of_decide_eq_true hfinite) rfl hrank (of_decide_eq_true hyfinite) hn
  unfold fixed Number.fixed
  simp only [Nat.pow_eq, show BinaryFormat.single.unitExponent = 149 from rfl]
  rw [hnegative, hn, hunits]

/-- **A number reads back as it is shown**: read from its four decimal places, rounded to eight bytes and then
to four, it has the same sign and the same places. -/
theorem places_reread {x : Single} (hx : x.isFinite = true) {n : Nat}
    (hn : roundHalfEven (x.units * 10 ^ 4) (2 ^ 149) = n) :
    ((ofDecimal x.negative n 4 : Double).convert .single : Single).fixed 4 = x.fixed 4 := by
  have hfinite := isFinite_ofDecimal hx hn
  have hyfinite := isFinite_convert_of_narrow hfinite (isSome_narrow?_ofDecimal hx hn)
  obtain ⟨d, hd, hd'⟩ : ∃ d, BinaryFormat.double.unitExponent = 149 + d ∧ 52 ≤ d := ⟨925, rfl, by decide⟩
  refine fixed_convert hn hd hd' ?_ rfl hfinite hyfinite
  simp only [ofDecimal, ofRatio, hd, Nat.pow_eq, Nat.pow_add]

end Binary
end Storyboard.Number
