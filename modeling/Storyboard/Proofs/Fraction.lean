/-
Fractions between their texts and their operands.

A fraction that is read is stored as the bits of four bytes. They are finite if the fraction is below a limit, and
then the machine shows them again; from the limit on they are infinite, and the machine refuses to show them
(`operand_of_classify`). Finite bits that are shown and read again may become others, with the same text, and stay
as they are from then on (`cycles_of_finite`).
-/
import Storyboard.Proofs.Listing
import Storyboard.Proofs.Spelling

namespace Storyboard

namespace Literal

open Number Text

/-! ## From the text to the operand -/

variable {source t : Text} {x y : Double} {marked : Bool} {b b' : Int}

theorem argument_of_isFinite {x : Single} (hx : x.isFinite = true) :
    (Value.float32 x).argument = .ok (x.fixed fractionPlaces) := if_pos hx

theorem argument_of_isInfinite {x : Single} (hx : x.isInfinite = true) :
    (Value.float32 x).argument = .error (.unexpectedValue .finiteFloat (.float32 x)) := by
  obtain hx := Nat.le_of_eq (beq_iff_eq.1 hx).symm
  exact if_neg fun hfinite => Nat.not_lt.2 hx (of_decide_eq_true hfinite)

/-- **Which operands are emitted for fractions.** A text that is read as a fraction consists of digits, a point and
digits, after a minus sign or none. Its operand is finite and is shown again if they spell less than the limit;
otherwise it is infinite and is refused. -/
theorem operand_of_classify (h : classify source = .ok (.float x marked)) :
    ∃ (negative : Bool) (digits places : Text) (y : Single),
      AnyDigits digits ∧ AnyDigits places ∧
      withoutFinalNewline source = signed negative (digits ++ '.' :: places) ++ markText marked ∧
      floatOperand x = .ok y.toWord ∧ Binary.ofWord? y.toWord = some y ∧
      (natural (digits ++ places) < Binary.doubleLimit * 10 ^ places.length →
        y.isFinite = true ∧ (Value.float32 y).argument = .ok (y.fixed fractionPlaces)) ∧
      (Binary.doubleLimit * 10 ^ places.length ≤ natural (digits ++ places) →
        y = .infinite negative ∧
          (Value.float32 y).argument = .error (.unexpectedValue .finiteFloat (.float32 y))) := by
  obtain ⟨s, hs, htext, hread⟩ := exists_spelling_of_classify h
  cases ((Spelling.read_eq_ok_iff hs).1 hread).2 with
  | @fraction negative digits places marked x hx hnarrow =>
    have hsome := Binary.isSome_narrow?_iff.2 hnarrow
    refine ⟨negative, digits, places, x.convert .single, hs.1, hs.2, htext.symm,
      floatOperand_eq_ok_iff.2 ⟨hsome, rfl⟩, Binary.ofWord?_toWord _, fun hlow => ?_, fun hhigh => ?_⟩
    · have hfinite : x.isFinite = true := by
        rw [hx]
        exact Binary.isFinite_ofDecimal_iff.2 hlow
      have hy := Binary.isFinite_convert_of_narrow hfinite hsome
      exact ⟨hy, argument_of_isFinite hy⟩
    · have hinfinite : x = .infinite negative := by
        rw [hx]
        refine Binary.ofRatio_eq_infinite (Bool.eq_false_iff.2 fun hfinite => ?_)
        exact Nat.not_lt.2 hhigh (Binary.isFinite_ofDecimal_iff.1 hfinite)
      rw [hinfinite, Binary.convert_infinite]
      exact ⟨rfl, argument_of_isInfinite (beq_self_eq_true _)⟩

/-- A fraction below the limit. -/
theorem operand_of_classify_small : ∃ (x : Double) (y : Single),
    classify "-2.5f".toList = .ok (.float x true) ∧ floatOperand x = .ok y.toWord ∧ y.toWord = -0x3FE00000 ∧
      Binary.ofWord? y.toWord = some y ∧ (Value.float32 y).argument = .ok "-2.5000".toList := by
  have hread : classify "-2.5f".toList = .ok (.float (.ofDecimal true 25 1) true) := by decide +kernel
  obtain ⟨negative, digits, places, y, -, -, -, hoperand, hword, -, -⟩ := operand_of_classify hread
  have hcomputed : floatOperand (.ofDecimal true 25 1) = .ok (-0x3FE00000) := by decide +kernel
  have hy : y.toWord = -0x3FE00000 := Except.ok.inj (hoperand.symm.trans hcomputed)
  have hshown : ∀ y, Binary.ofWord? (-0x3FE00000) = some y → (Value.float32 y).argument = .ok "-2.5000".toList := by
    intro y hy
    have hvalue : Binary.ofWord? (-0x3FE00000) = some (.ofBits 0xC0200000) := by decide +kernel
    obtain rfl := Option.some.inj (hvalue.symm.trans hy)
    decide +kernel
  exact ⟨_, y, hread, hoperand, hy, hword, hshown y (hy ▸ hword)⟩

/-- Not every fraction that is read has an operand that is shown again: one with 310 digits in front of its point has
an infinite one. -/
theorem not_operand_of_classify : ¬∀ (source : Text) (x : Double) (marked : Bool),
    classify source = .ok (.float x marked) → ∃ (b : Int) (y : Single) (t : Text),
      floatOperand x = .ok b ∧ Binary.ofWord? b = some y ∧ y.isFinite = true ∧
        (Value.float32 y).argument = .ok t := by
  intro claim
  have hread : classify ('1' :: List.replicate 309 '0' ++ ['.', '0']) = .ok (.float (.infinite false) false) := by
    decide +kernel
  obtain ⟨b, y, t, hoperand, hword, hfinite, -⟩ := claim _ _ _ hread
  have hcomputed : floatOperand (.infinite false) = .ok 0x7F800000 := by decide +kernel
  obtain rfl := Except.ok.inj (hcomputed.symm.trans hoperand)
  have hvalue : Binary.ofWord? 0x7F800000 = some (.infinite false) := by decide +kernel
  obtain rfl := Option.some.inj (hvalue.symm.trans hword)
  exact absurd hfinite (by decide)

/-! ## From the operand to the text and back -/

/-- The text that is shown of a fraction with this operand, with a mark or without. -/
def shownOperand (marked : Bool) (b : Int) : Except Error Text :=
  match Binary.ofWord? b with
  | some x => (Value.float32 x).argument.map (· ++ markText marked)
  | none => .error .wordOverflow

/-- The operand of a text that is read as a fraction. -/
def readOperand (t : Text) : Except Error Int := do
  match ← classify t with
  | .float x _ => floatOperand x
  | _ => throw (.unsupportedLiteral t)

/-- What an operand becomes when it is shown and read again. -/
def cycle (marked : Bool) (b : Int) : Except Error Int := do
  readOperand (← shownOperand marked b)

/-- What it becomes after some cycles. -/
def cycles (marked : Bool) : Nat → Int → Except Error Int
  | 0, b => .ok b
  | n + 1, b => do cycles marked n (← cycle marked b)

theorem cycle_eq {x : Single} {t : Text} (hb : Binary.ofWord? b = some x) (ht : (Value.float32 x).argument = .ok t)
    (hread : classify (t ++ markText marked) = .ok (.float y marked)) : cycle marked b = floatOperand y := by
  unfold cycle shownOperand
  rw [hb]
  dsimp only
  rw [ht]
  show readOperand (t ++ markText marked) = _
  unfold readOperand
  rw [hread]
  rfl

/-- What a cycle does not change, more cycles do not change. -/
theorem cycles_eq_of_fixed (h : cycle marked b = .ok b) (n : Nat) : cycles marked n b = .ok b := by
  induction n with
  | zero => rfl
  | succ n ih =>
    rw [cycles, h]
    exact ih

/-- **Finite fractions are settled by one cycle.** A finite operand is shown as a text that is read as a fraction,
with a mark or without. The operand of that is finite and is shown as the same text, and it is what any number of
cycles gives. It need not be the operand that was shown first. -/
theorem cycles_of_finite :
    (∀ (b : Int) (x : Single), Binary.ofWord? b = some x → x.isFinite = true →
      ∃ (t : Text) (y : Double) (b' : Int) (x' : Single),
        (Value.float32 x).argument = .ok t ∧
        (∀ marked, classify (t ++ markText marked) = .ok (.float y marked)) ∧
        floatOperand y = .ok b' ∧ Binary.ofWord? b' = some x' ∧ x'.isFinite = true ∧
        (Value.float32 x').argument = .ok t ∧
        ∀ marked n, cycles marked (n + 1) b = .ok b') ∧
      ∃ (b b' : Int), b' ≠ b ∧ ∀ marked n, cycles marked (n + 1) b = .ok b' := by
  refine ⟨fun b x hb hx => ?_, 0x3F800054, 0x3F800000, by decide, fun marked n => ?_⟩
  · obtain ⟨y, hread, hnarrow, hfinite, hplaces⟩ := classify_shown_fraction hx
    have hoperand := floatOperand_eq_ok_iff.2 ⟨hnarrow, rfl⟩
    have hword : Binary.ofWord? (floatBits y) = some _ := Binary.ofWord?_toWord _
    have hshown := argument_of_isFinite hx
    have hshown' := argument_of_isFinite hfinite
    rw [hplaces] at hshown'
    refine ⟨_, y, _, _, hshown, hread, hoperand, hword, hfinite, hshown', fun marked n => ?_⟩
    rw [cycles, cycle_eq hb hshown (hread marked), hoperand]
    exact cycles_eq_of_fixed ((cycle_eq hword hshown' (hread marked)).trans hoperand) n
  · have hone : ∀ marked, cycle marked 0x3F800054 = .ok 0x3F800000 := by decide +kernel
    have hfixed : ∀ marked, cycle marked 0x3F800000 = .ok 0x3F800000 := by decide +kernel
    rw [cycles, hone]
    exact cycles_eq_of_fixed (hfixed marked) n

/-- The number next to one, in steps of 2^-23, whose four places are those of one. -/
theorem cycles_of_finite_next : ∃ (x : Single) (y : Double), Binary.ofWord? 0x3F800001 = some x ∧
    (Value.float32 x).argument = .ok "1.0000".toList ∧
    (∀ marked, classify ("1.0000".toList ++ markText marked) = .ok (.float y marked)) ∧
    floatOperand y = .ok 0x3F800000 ∧ ∀ marked n, cycles marked (n + 1) 0x3F800001 = .ok 0x3F800000 := by
  have hb : Binary.ofWord? 0x3F800001 = some (.ofBits 0x3F800001) := by decide +kernel
  have hfinite : (Binary.ofBits 0x3F800001 : Single).isFinite = true := by decide +kernel
  have hcomputed : (Value.float32 (.ofBits 0x3F800001)).argument = .ok "1.0000".toList := by decide +kernel
  have hcycle : cycles false 1 0x3F800001 = .ok 0x3F800000 := by decide +kernel
  obtain ⟨t, y, b', x', hshown, hread, hoperand, -, -, -, hcycles⟩ := cycles_of_finite.1 _ _ hb hfinite
  obtain rfl := Except.ok.inj (hcomputed.symm.trans hshown)
  obtain rfl := Except.ok.inj (hcycle.symm.trans (hcycles false 0))
  exact ⟨_, y, hb, hshown, hread, hoperand, hcycles⟩

end Literal
end Storyboard
