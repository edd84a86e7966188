/-
Four-byte numbers as words, which conversions stay finite, and what hexadecimal numerals spell.
-/
import Mathlib.Algebra.Ring.Nat
import Storyboard.Number.Hexadecimal

namespace Storyboard.Number

namespace Binary

variable {f : BinaryFormat}

theorem toBits_lt (x : Binary f) : x.toBits < 2 * f.ranks := by
  have h := x.rank_lt
  unfold toBits
  split <;> omega

/-- A number is known by its bits. -/
theorem ofBits_toBits (x : Binary f) : ofBits x.toBits = x := by
  obtain ⟨negative, rank, hrank⟩ := x
  have hpos : 0 < f.ranks := Nat.zero_lt_of_lt hrank
  cases negative with
  | false =>
    simp only [ofBits, toBits, Bool.false_eq_true, if_false, Nat.zero_add, mk.injEq]
    exact ⟨by simp [Nat.div_eq_of_lt hrank], Nat.mod_eq_of_lt hrank⟩
  | true =>
    have hdiv : (f.ranks + rank) / f.ranks = 1 := by
      rw [Nat.add_div_left _ hpos, Nat.div_eq_of_lt hrank]
    have hmod : (f.ranks + rank) % f.ranks = rank := by
      rw [Nat.add_mod_left, Nat.mod_eq_of_lt hrank]
    simp only [ofBits, toBits, if_true, mk.injEq, hdiv, hmod, and_true]
    rfl

/-- A number is known by its sign and its rank. -/
theorem eq_of_rank {x y : Binary f} (hsign : x.negative = y.negative) (hrank : x.rank = y.rank) : x = y := by
  obtain ⟨negative, rank, hlt⟩ := x
  obtain ⟨negative', rank', hlt'⟩ := y
  subst hsign hrank
  rfl

/-- A four-byte number is known by its word. -/
theorem ofWord?_toWord (x : Single) : ofWord? x.toWord = some x := by
  have hlt : x.toBits < 0x100000000 := x.toBits_lt
  have hpattern : Word.pattern x.toWord = x.toBits := by
    simp only [Word.pattern, toWord, Word.wrap]
    omega
  have hfits : Word.Fits x.toWord := Word.fits_wrap _
  unfold ofWord?
  rw [if_pos hfits, hpattern, ofBits_toBits]

/-- Bits up to the sign are those of a number. -/
theorem toBits_ofBits {bits : Nat} (h : bits < 2 * f.ranks) : (ofBits bits : Binary f).toBits = bits := by
  have hpos : 0 < f.ranks := Nat.two_pow_pos _
  have hdiv : bits / f.ranks < 2 := (Nat.div_lt_iff_lt_mul hpos).2 h
  have hsplit := Nat.div_add_mod bits f.ranks
  unfold toBits ofBits
  dsimp only
  by_cases hsign : bits / f.ranks = 0
  · rw [hsign, Nat.mul_zero] at hsplit
    rw [hsign, if_neg (by decide), hsplit]
  · have hone : bits / f.ranks = 1 := Nat.le_antisymm (Nat.le_of_lt_succ hdiv) (Nat.pos_of_ne_zero hsign)
    rw [hone, Nat.mul_one] at hsplit
    rw [hone, if_pos (by decide), hsplit]

/-- A word is known by its four-byte number. -/
theorem toWord_of_ofWord? {v : Int} {x : Single} (h : ofWord? v = some x) : x.toWord = v := by
  unfold ofWord? at h
  by_cases hv : Word.Fits v
  · have hlt : Word.pattern v < 2 * BinaryFormat.single.ranks := Word.pattern_lt v
    rw [if_pos hv] at h
    rw [← Option.some.inj h, toWord, toBits_ofBits hlt]
    simp only [Word.Fits] at hv
    simp only [Word.wrap, Word.pattern]
    omega
  · rw [if_neg hv] at h
    contradiction

/-- What a quotient is rounded to is a number or infinite, and no NaN. -/
theorem isNaN_ofRatio (negative : Bool) (num den : Nat) :
    (ofRatio negative num den : Binary f).isNaN = false := by
  exact decide_eq_false (Nat.not_lt.2 (f.nearest_le_infinity num den))

/-- What is neither finite nor a NaN is an infinity. -/
theorem eq_infinite_of_not_isFinite {x : Binary f} (hnumber : x.isNaN = false) (hx : x.isFinite = false) :
    x = infinite x.negative := by
  have hle : x.rank ≤ f.infinity := Nat.le_of_not_lt (of_decide_eq_false hnumber)
  have hge : f.infinity ≤ x.rank := Nat.le_of_not_lt (of_decide_eq_false hx)
  exact eq_of_rank rfl (Nat.le_antisymm hle hge)

/-- A quotient that is not finite when it is rounded has become infinite, with its sign. -/
theorem ofRatio_eq_infinite {negative : Bool} {num den : Nat}
    (h : (ofRatio negative num den : Binary f).isFinite = false) :
    (ofRatio negative num den : Binary f) = infinite negative :=
  eq_infinite_of_not_isFinite (isNaN_ofRatio negative num den) h

/-- Infinities stay infinite. -/
theorem convert_infinite {g : BinaryFormat} (negative : Bool) :
    (infinite negative : Binary f).convert g = infinite negative := by
  have hnan : (infinite negative : Binary f).isNaN = false := decide_eq_false (Nat.lt_irrefl _)
  have hinfinite : (infinite negative : Binary f).isInfinite = true := beq_self_eq_true _
  unfold convert
  rw [if_neg (by simp [hnan]), if_pos hinfinite]
  rfl

theorem isFinite_iff (x : Binary f) : x.isFinite = true ↔ x.isNaN = false ∧ x.isInfinite = false := by
  simp only [isFinite, isNaN, isInfinite, decide_eq_true_eq, decide_eq_false_iff_not, beq_eq_false_iff_ne]
  omega

/-- Converting a finite number rounds what it is worth. -/
theorem convert_of_isFinite {g : BinaryFormat} {x : Binary f} (hx : x.isFinite = true) :
    x.convert g = ofRatio x.negative (x.units * Nat.pow 2 g.unitExponent) (Nat.pow 2 f.unitExponent) := by
  obtain ⟨hnan, hinfinite⟩ := (isFinite_iff x).1 hx
  unfold convert
  rw [if_neg (by simp [hnan]), if_neg (by simp [hinfinite])]

/-- What has a four-byte neighbour: all but the finite numbers that would become infinite. -/
theorem isSome_narrow?_iff {x : Double} :
    x.narrow?.isSome = true ↔ ¬(x.isFinite = true ∧ (x.convert .single : Single).isInfinite = true) := by
  unfold narrow?
  dsimp only
  rw [← Bool.and_eq_true]
  split
  · next h => simp [h]
  · next h => simp [h]

/-- A finite number that has a four-byte neighbour has a finite one. -/
theorem isFinite_convert_of_narrow {x : Double} (hx : x.isFinite = true) (h : x.narrow?.isSome = true) :
    (x.convert .single : Single).isFinite = true := by
  have hconvert : (x.convert .single : Single).isNaN = false := by
    rw [convert_of_isFinite hx]
    exact isNaN_ofRatio _ _ _
  refine (isFinite_iff _).2 ⟨hconvert, Bool.eq_false_iff.2 fun hinf => ?_⟩
  exact isSome_narrow?_iff.1 h ⟨hx, hinf⟩

end Binary

/-! ## Hexadecimal numerals -/

theorem toNat_of_hexDigit? {c : Char} {d : Nat} (h : hexDigit? c = some d) :
    0x30 ≤ c.toNat ∧ c.toNat ≤ 0x66 ∧ d < 16 := by
  have hle : ∀ {a b : Char}, a ≤ b → a.toNat ≤ b.toNat := fun h => h
  have hdigits : '0'.toNat = 0x30 ∧ '9'.toNat = 0x39 := ⟨rfl, rfl⟩
  have hlower : 'a'.toNat = 0x61 ∧ 'f'.toNat = 0x66 := ⟨rfl, rfl⟩
  have hupper : 'A'.toNat = 0x41 ∧ 'F'.toNat = 0x46 := ⟨rfl, rfl⟩
  unfold hexDigit? at h
  split at h
  · next hc =>
    have := hle hc.1
    have := hle hc.2
    injection h with h
    omega
  · split at h
    · next hc =>
      have := hle hc.1
      have := hle hc.2
      injection h with h
      omega
    · split at h
      · next hc =>
        have := hle hc.1
        have := hle hc.2
        injection h with h
        omega
      · cases h

theorem hexDigit?_lt {c : Char} {d : Nat} (h : hexDigit? c = some d) : d < 16 := (toNat_of_hexDigit? h).2.2

/-- Each digit makes room for sixteen times as many numbers. -/
theorem foldlM_hexDigit?_lt {cs : List Char} {start n : Nat}
    (h : cs.foldlM (fun n c => (hexDigit? c).map (16 * n + ·)) start = some n) :
    n < (start + 1) * 16 ^ cs.length := by
  induction cs generalizing start with
  | nil =>
    injection h with h
    simp [h]
  | cons c cs ih =>
    rw [List.foldlM_cons] at h
    obtain ⟨next, hnext, h⟩ := Option.bind_eq_some_iff.1 h
    obtain ⟨d, hd, rfl⟩ := Option.map_eq_some_iff.1 hnext
    have hlt := hexDigit?_lt hd
    calc n < (16 * start + d + 1) * 16 ^ cs.length := ih h
      _ ≤ ((start + 1) * 16) * 16 ^ cs.length := Nat.mul_le_mul_right _ (by omega)
      _ = (start + 1) * 16 ^ (c :: cs).length := by
        rw [List.length_cons, Nat.pow_succ, Nat.mul_assoc, Nat.mul_comm 16]

theorem readHexadecimal?_lt {cs : List Char} {n : Nat} (h : readHexadecimal? cs = some n) :
    n < 16 ^ cs.length := by
  unfold readHexadecimal? at h
  split at h
  · contradiction
  · simpa using foldlM_hexDigit?_lt h

/-- The digits of a number spell it. -/
theorem foldlM_hexadecimal (n : Nat) :
    (hexadecimal n).foldlM (fun n c => (hexDigit? c).map (16 * n + ·)) 0 = some n := by
  have hdigit : ∀ d < 16, hexDigit? (Nat.digitChar d).toUpper = some d := by decide
  unfold hexadecimal
  induction n using Nat.strongRecOn with
  | ind n ih =>
    rw [Nat.toDigits_eq_if (by decide)]
    by_cases hsmall : n < 16
    · rw [if_pos hsmall, List.map_singleton, List.foldlM_cons, hdigit n hsmall]
      simp
    · rw [if_neg hsmall, List.map_append, List.foldlM_append, ih (n / 16) (by omega), List.map_singleton,
        Option.bind_eq_bind, Option.bind_some, List.foldlM_cons, hdigit _ (Nat.mod_lt n (by decide))]
      simp [Nat.div_add_mod]

/-- **A number in hexadecimal is read as what it is**, whatever the zeros in front. -/
theorem readHexadecimal?_zeroPadded (width n : Nat) : readHexadecimal? (zeroPadded width (hexadecimal n)) = some n := by
  have hzeros : ∀ k, (List.replicate k '0').foldlM (fun n c => (hexDigit? c).map (16 * n + ·)) 0 = some 0 := by
    intro k
    induction k with
    | zero => rfl
    | succ k ih => exact ih
  have hne : zeroPadded width (hexadecimal n) ≠ [] := by
    refine List.append_ne_nil_of_right_ne_nil _ ?_
    simp [hexadecimal, Nat.toDigits_ne_nil]
  unfold readHexadecimal?
  rw [if_neg (by simpa using hne), zeroPadded, List.foldlM_append, hzeros]
  exact foldlM_hexadecimal n

/-- The number that hexadecimal digits spell; other characters count as zero. -/
def hexNatural (cs : List Char) : Nat := cs.foldl (fun n c => 16 * n + (hexDigit? c).getD 0) 0

/-- There is something, and all of it are hexadecimal digits. -/
def HexDigits (cs : List Char) : Prop := cs ≠ [] ∧ ∀ c ∈ cs, (hexDigit? c).isSome = true

instance (cs : List Char) : Decidable (HexDigits cs) := inferInstanceAs (Decidable (_ ∧ _))

theorem foldlM_hexDigit?_eq_some_iff {cs : List Char} {start n : Nat} :
    cs.foldlM (fun n c => (hexDigit? c).map (16 * n + ·)) start = some n ↔
      (∀ c ∈ cs, (hexDigit? c).isSome = true) ∧
        n = cs.foldl (fun n c => 16 * n + (hexDigit? c).getD 0) start := by
  induction cs generalizing start with
  | nil => exact ⟨fun h => ⟨List.forall_mem_nil _, (Option.some.inj h).symm⟩, fun h => congrArg some h.2.symm⟩
  | cons c cs ih =>
    rw [List.foldlM_cons, List.foldl_cons, List.forall_mem_cons]
    cases hc : hexDigit? c with
    | none => simp
    | some d => simpa using ih

/-- **What is read as a hexadecimal number**: some digits, as the number that they spell. -/
theorem readHexadecimal?_eq_some_iff {cs : List Char} {n : Nat} :
    readHexadecimal? cs = some n ↔ HexDigits cs ∧ n = hexNatural cs := by
  unfold readHexadecimal? HexDigits hexNatural
  by_cases hempty : cs = []
  · simp [hempty]
  · rw [if_neg (by simpa using hempty), foldlM_hexDigit?_eq_some_iff, and_iff_right hempty]

/-- Every character of a hexadecimal numeral is a digit. -/
theorem isSome_hexDigit?_of_readHexadecimal? {cs : List Char} {n : Nat} (h : readHexadecimal? cs = some n) :
    ∀ c ∈ cs, (hexDigit? c).isSome = true :=
  (readHexadecimal?_eq_some_iff.1 h).1.2

end Storyboard.Number
