/-
What the machine shows is read as what it shows.

`classify_shown_integer`, `classify_shown_word` and `classify_shown_fraction` are about numbers, with a mark or
without; of a fraction the places that are shown are read. `classify_quoted` is about texts.
-/
import Mathlib.Data.List.Basic
import Storyboard.Literal
import Storyboard.Proofs.Attempt
import Storyboard.Proofs.Places
import Storyboard.Stack

namespace Storyboard

/-! ## Digits -/

namespace Text

theorem toNat_of_isDigit {c : Char} (h : c.isDigit = true) : 0x30 ≤ c.toNat ∧ c.toNat ≤ 0x39 := by
  simp only [Char.isDigit, Bool.and_eq_true, decide_eq_true_eq] at h
  exact h

theorem digit?_of_isDigit {c : Char} (h : c.isDigit = true) : digit? c = some (c.toNat - 48) := by
  have hrange : 0x30 ≤ c.toNat ∧ c.toNat < 0x30 + 10 :=
    ⟨(toNat_of_isDigit h).1, Nat.lt_succ_of_le (toNat_of_isDigit h).2⟩
  unfold digit? zeroDigits
  rw [List.find?_cons_of_pos (by simp only [Bool.and_eq_true, decide_eq_true_eq]; exact hrange)]
  rfl

theorem isDigit_of_isDigit {c : Char} (h : c.isDigit = true) : isDigit c = true := by
  simp [isDigit, digit?_of_isDigit h]

/-- There is something, and all of it are plain digits. -/
def Digits (cs : Text) : Prop := cs ≠ [] ∧ ∀ c ∈ cs, c.isDigit = true

/-- There is something, and all of it are digits, of any script. -/
def AnyDigits (cs : Text) : Prop := cs ≠ [] ∧ ∀ c ∈ cs, isDigit c = true

instance (cs : Text) : Decidable (AnyDigits cs) := inferInstanceAs (Decidable (_ ∧ _))

theorem Digits.any {cs : Text} (h : Digits cs) : AnyDigits cs := ⟨h.1, fun c hc => isDigit_of_isDigit (h.2 c hc)⟩

theorem natural_eq {cs : Text} (h : ∀ c ∈ cs, c.isDigit = true) : natural cs = Nat.ofDigitChars 10 cs 0 := by
  rw [natural, Nat.ofDigitChars_eq_foldl]
  refine List.foldl_ext _ _ 0 fun n c hc => ?_
  rw [digit?_of_isDigit (h c hc)]
  rfl

/-- What follows digits raises them. -/
theorem natural_append {cs ds : Text} (hcs : ∀ c ∈ cs, c.isDigit = true) (hds : ∀ c ∈ ds, c.isDigit = true) :
    natural (cs ++ ds) = 10 ^ ds.length * natural cs + natural ds := by
  have hall : ∀ c ∈ cs ++ ds, c.isDigit = true := List.forall_mem_append.2 ⟨hcs, hds⟩
  rw [natural_eq hall, natural_eq hcs, natural_eq hds, Nat.ofDigitChars_append,
    Nat.ofDigitChars_eq_ofDigitChars_zero]

theorem takeWhile_append_of_stop {p : Char → Bool} {cs rest : Text} (hcs : ∀ c ∈ cs, p c = true)
    (hrest : ∀ c ∈ rest.head?, p c = false) : (cs ++ rest).takeWhile p = cs := by
  rw [List.takeWhile_append_of_pos hcs]
  cases rest with
  | nil => simp
  | cons c rest => simp [hrest c rfl]

theorem dropWhile_append_of_stop {p : Char → Bool} {cs rest : Text} (hcs : ∀ c ∈ cs, p c = true)
    (hrest : ∀ c ∈ rest.head?, p c = false) : (cs ++ rest).dropWhile p = rest := by
  rw [List.dropWhile_append_of_pos hcs]
  cases rest with
  | nil => simp
  | cons c rest => simp [hrest c rfl]

end Text

namespace Number

open Text

theorem digits_decimal (n : Nat) : Digits (decimal n) :=
  ⟨Nat.toDigits_ne_nil, fun _ hc => Nat.isDigit_of_mem_toDigits (by decide) (by decide) hc⟩

theorem natural_decimal (n : Nat) : natural (decimal n) = n := by
  rw [natural_eq (digits_decimal n).2, decimal, Nat.ofDigitChars_ten_toDigits]

theorem digits_zeroPadded {width : Nat} {cs : Text} (h : Digits cs) : Digits (zeroPadded width cs) := by
  refine ⟨by simp [zeroPadded, h.1], List.forall_mem_append.2 ⟨fun c hc => ?_, h.2⟩⟩
  rw [List.eq_of_mem_replicate hc]
  rfl

theorem natural_zeroPadded {width : Nat} {cs : Text} (h : Digits cs) :
    natural (zeroPadded width cs) = natural cs := by
  rw [natural_eq (digits_zeroPadded h).2, natural_eq h.2, zeroPadded, Nat.ofDigitChars_append,
    Nat.ofDigitChars_replicate_zero, Nat.mul_zero]

/-- The places of a fraction are as many as are shown. -/
theorem length_zeroPadded_decimal {width n : Nat} (hwidth : 0 < width) (h : n < 10 ^ width) :
    (zeroPadded width (decimal n)).length = width := by
  have hle : (decimal n).length ≤ width := (Nat.length_toDigits_le_iff (by decide) hwidth).2 h
  rw [zeroPadded, List.length_append, List.length_replicate]
  exact Nat.sub_add_cancel hle

end Number

namespace Text

theorem withoutFinalNewline_of_notMem {t : Text} (h : '\n' ∉ t) : withoutFinalNewline t = t := by
  unfold withoutFinalNewline
  rw [if_neg fun hlast => h (List.mem_of_getLast? hlast)]

end Text

/-! ## Numerals -/

namespace Literal

open Number Text

/-- What a mark adds to the text of a literal. -/
def markText (marked : Bool) : Text := if marked then [mark] else []

@[simp] theorem markText_true : markText true = [mark] := rfl

@[simp] theorem markText_false : markText false = [] := rfl

theorem signed_append (negative : Bool) (cs rest : Text) :
    signed negative cs ++ rest = signed negative (cs ++ rest) := by
  cases negative <;> rfl

theorem signed_ne_nil {negative : Bool} {cs : Text} (h : cs ≠ []) : signed negative cs ≠ [] := by
  cases negative with
  | true => exact List.cons_ne_nil _ _
  | false => exact h

/-- Digits start with a digit, and not with a sign. -/
theorem isDigit_of_head? {whole : Text} (hw : AnyDigits whole) (rest : Text) :
    ∀ c ∈ (whole ++ rest).head?, isDigit c = true := by
  obtain ⟨hne, hdigits⟩ := hw
  obtain ⟨d, ds, rfl⟩ := List.exists_cons_of_ne_nil hne
  intro c hc
  obtain rfl : d = c := by simpa using hc
  exact hdigits d List.mem_cons_self

theorem head?_signed {negative : Bool} {whole rest : Text} (hw : AnyDigits whole) :
    ((signed negative (whole ++ rest)).head? == some '-') = negative := by
  cases negative with
  | true => rfl
  | false =>
    refine beq_eq_false_iff_ne.2 fun h => ?_
    have := isDigit_of_head? hw rest '-' h
    contradiction

theorem unsigned_signed {negative : Bool} {cs : Text} :
    (if negative = true then (signed negative cs).drop 1 else signed negative cs) = cs := by
  cases negative <;> rfl

/-- A mark is no digit. -/
theorem isDigit_head?_markText (marked : Bool) : ∀ c ∈ (markText marked).head?, isDigit c = false := by
  intro c hc
  cases marked with
  | true =>
    obtain rfl : mark = c := Option.some.inj hc
    decide
  | false => cases hc

theorem numeral?_whole {negative marked : Bool} {whole : Text} (hw : AnyDigits whole) :
    numeral? (signed negative whole ++ markText marked) = some ⟨negative, whole, none, markText marked⟩ := by
  have hmark := isDigit_head?_markText marked
  unfold numeral?
  dsimp only
  rw [signed_append, head?_signed hw, unsigned_signed, takeWhile_append_of_stop hw.2 hmark,
    dropWhile_append_of_stop hw.2 hmark, if_neg (by simpa using hw.1)]
  cases marked <;> rfl

theorem numeral?_fraction {negative marked : Bool} {whole fraction : Text} (hw : AnyDigits whole)
    (hf : AnyDigits fraction) :
    numeral? (signed negative (whole ++ '.' :: fraction) ++ markText marked)
      = some ⟨negative, whole, some fraction, markText marked⟩ := by
  have hmark := isDigit_head?_markText marked
  have hpoint : ∀ c ∈ ('.' :: (fraction ++ markText marked)).head?, isDigit c = false := by
    intro c hc
    obtain rfl : '.' = c := Option.some.inj hc
    decide
  unfold numeral?
  dsimp only
  rw [signed_append, List.append_assoc, List.cons_append, head?_signed hw, unsigned_signed,
    takeWhile_append_of_stop hw.2 hpoint, dropWhile_append_of_stop hw.2 hpoint,
    if_neg (by simpa using hw.1)]
  show (if (List.takeWhile isDigit (fraction ++ markText marked)).isEmpty = true then _ else some (Numeral.mk
    negative whole (some (List.takeWhile isDigit (fraction ++ markText marked)))
    (List.dropWhile isDigit (fraction ++ markText marked)))) = _
  rw [takeWhile_append_of_stop hf.2 hmark, dropWhile_append_of_stop hf.2 hmark,
    if_neg (by simpa using hf.1)]

/-- Digits at the start of a text that are not none. -/
theorem anyDigits_takeWhile {t : Text} (h : ¬(t.takeWhile isDigit).isEmpty = true) : AnyDigits (t.takeWhile isDigit) :=
  ⟨by simpa using h, List.all_eq_true.1 List.all_takeWhile⟩

/-- **What a numeral is the start of**: the sign, the digits, the point and the digits behind it if there are some,
and the rest. -/
theorem eq_of_numeral? {t : Text} {n : Numeral} (h : numeral? t = some n) :
    AnyDigits n.whole ∧
      ((n.fraction = none ∧ t = signed n.negative (n.whole ++ n.rest)) ∨
        ∃ fraction, n.fraction = some fraction ∧ AnyDigits fraction ∧
          t = signed n.negative (n.whole ++ '.' :: (fraction ++ n.rest))) := by
  have hsigned : t = signed (t.head? == some '-') (if (t.head? == some '-') = true then t.drop 1 else t) := by
    cases hsign : t.head? == some '-' with
    | true =>
      obtain ⟨rest, rfl⟩ := List.head?_eq_some_iff.1 (beq_iff_eq.1 hsign)
      rfl
    | false => rfl
  unfold numeral? at h
  dsimp only at h
  generalize (if (t.head? == some '-') = true then t.drop 1 else t) = unsigned at h hsigned
  have hparts := List.takeWhile_append_dropWhile (p := isDigit) (l := unsigned)
  split at h
  · contradiction
  · next hwhole =>
    have hdigits := anyDigits_takeWhile hwhole
    split at h
    · next tail htail =>
      split at h
      · rw [← Option.some.inj h]
        exact ⟨hdigits, .inl ⟨rfl, by rw [hparts, ← hsigned]⟩⟩
      · next hfraction =>
        rw [← Option.some.inj h]
        refine ⟨hdigits, .inr ⟨_, rfl, anyDigits_takeWhile hfraction, ?_⟩⟩
        rw [List.takeWhile_append_dropWhile, ← htail, hparts, ← hsigned]
    · rw [← Option.some.inj h]
      exact ⟨hdigits, .inl ⟨rfl, by rw [hparts, ← hsigned]⟩⟩

/-! ## Literals as they are shown -/

theorem unquoted?_signed {negative : Bool} {whole rest : Text} (hw : AnyDigits whole) :
    unquoted? (signed negative (whole ++ rest)) = none := by
  cases negative with
  | true => rfl
  | false =>
    obtain ⟨hne, hdigits⟩ := hw
    obtain ⟨d, ds, rfl⟩ := List.exists_cons_of_ne_nil hne
    have hd := hdigits d List.mem_cons_self
    unfold unquoted?
    split
    · next heq =>
      obtain rfl : d = '"' := (List.cons.inj heq).1
      cases hd
    · rfl

theorem notMem_signed {c : Char} {negative : Bool} {cs : Text} (hc : c ≠ '-') (h : c ∉ cs) :
    c ∉ signed negative cs := by
  cases negative with
  | true => simpa [signed, hc] using h
  | false => exact h

theorem notMem_of_anyDigits {c : Char} {cs : Text} (hc : isDigit c = false) (h : AnyDigits cs) : c ∉ cs := by
  intro hmem
  have := h.2 c hmem
  rw [hc] at this
  contradiction

theorem notMem_of_digits {c : Char} {cs : Text} (hc : c.isDigit = false) (h : Digits cs) : c ∉ cs := by
  intro hmem
  have := h.2 c hmem
  rw [hc] at this
  contradiction

theorem notMem_markText {c : Char} (hc : c ≠ mark) (marked : Bool) : c ∉ markText marked := by
  cases marked with
  | true => simpa using hc
  | false => exact List.not_mem_nil

theorem notMem_integer {c : Char} (hc : c ≠ '-') (hdigit : c.isDigit = false) (v : Int) : c ∉ integer v :=
  notMem_signed hc (notMem_of_digits hdigit (digits_decimal _))

theorem notMem_fixed {c : Char} (hc : c ≠ '-') (hpoint : c ≠ '.') (hdigit : c.isDigit = false) (places : Nat)
    (x : Single) : c ∉ x.fixed places :=
  notMem_signed hc (List.not_mem_append (notMem_of_digits hdigit (digits_decimal _))
    (List.not_mem_cons_of_ne_of_not_mem hpoint (notMem_of_digits hdigit (digits_zeroPadded (digits_decimal _)))))

theorem readDigits_eq_ok_iff {digits : Text} {n : Nat} :
    readDigits digits = .ok n ↔ digits.length ≤ digitLimit ∧ n = natural digits := by
  unfold readDigits
  by_cases hlong : digitLimit < digits.length
  · rw [if_pos hlong]
    refine iff_of_false (fun h => ?_) fun h => Nat.not_lt.2 h.1 hlong
    contradiction
  · rw [if_neg hlong, Except.ok.injEq, eq_comm]
    exact (and_iff_right (Nat.not_lt.1 hlong)).symm

/-- **Which digits are read as a whole number**, and as which one. -/
theorem readInteger_eq_ok_iff {source digits : Text} {negative : Bool} {v : Int} :
    readInteger source digits negative = .ok v ↔
      AnyDigits digits ∧ digits.length ≤ digitLimit ∧ Word.Fits v ∧
        v = if negative = true then -(natural digits : Int) else natural digits := by
  have hdigits : ¬(digits.isEmpty = true ∨ (!digits.all isDigit) = true) ↔ AnyDigits digits := by
    simp [AnyDigits]
  have hvalue : ∀ w : Int, (if Word.Fits w then pure w else throw (.unsupportedLiteral source) : Except Error Int)
      = .ok v ↔ Word.Fits v ∧ v = w := by
    intro w
    by_cases hfits : Word.Fits w
    · rw [if_pos hfits]
      refine ⟨fun h => ?_, fun h => by rw [h.2]; rfl⟩
      obtain rfl := Except.ok.inj h
      exact ⟨hfits, rfl⟩
    · rw [if_neg hfits]
      refine iff_of_false (fun h => ?_) fun h => hfits (h.2 ▸ h.1)
      contradiction
  unfold readInteger
  rw [guard_eq_ok_iff, hdigits, except_bind_eq_ok_iff]
  simp only [readDigits_eq_ok_iff, hvalue, and_assoc, exists_and_left, exists_eq_left]

/-- **Which fraction is read**: the nearest in eight bytes, if it has a four-byte neighbour. -/
theorem readFraction_eq_ok_iff {source whole fraction : Text} {negative : Bool} {x : Double} :
    readFraction source whole fraction negative = .ok x ↔
      x = .ofDecimal negative (natural (whole ++ fraction)) fraction.length ∧ x.narrow?.isSome = true := by
  unfold readFraction
  dsimp only
  split
  · next hnarrow =>
    refine ⟨fun h => ?_, fun h => by rw [h.1]⟩
    obtain rfl := Except.ok.inj h
    exact ⟨rfl, hnarrow⟩
  · next hnarrow =>
    refine iff_of_false (fun h => ?_) fun h => hnarrow (h.1 ▸ h.2)
    contradiction

theorem readSigned_eq {source whole : Text} {negative : Bool} (hw : AnyDigits whole) :
    readSigned source (signed negative whole) = readInteger source whole negative := by
  cases negative with
  | true => rfl
  | false =>
    show readSigned source whole = _
    unfold readSigned
    split
    · exact absurd List.mem_cons_self (notMem_of_anyDigits (c := '-') (by decide) hw)
    · exact absurd List.mem_cons_self (notMem_of_anyDigits (c := '+') (by decide) hw)
    · rfl

/-- What a whole number is read as depends on its digits only. -/
theorem classify_integer_eq {negative marked : Bool} {whole : Text} (hw : AnyDigits whole) :
    classify (signed negative whole ++ markText marked)
      = (readInteger (signed negative whole ++ markText marked) whole negative).map (.int · marked) := by
  have hnewline : '\n' ∉ signed negative whole ++ markText marked :=
    List.not_mem_append (notMem_signed (by decide) (notMem_of_anyDigits (by decide) hw))
      (notMem_markText (by decide) marked)
  have hquote : unquoted? (signed negative whole ++ markText marked) = none := by
    rw [signed_append]
    exact unquoted?_signed hw
  unfold classify
  dsimp only
  rw [withoutFinalNewline_of_notMem hnewline, hquote, numeral?_whole hw]
  cases marked with
  | true => simp only [markText_true, mark, if_true]
  | false =>
    have hhex : after? ['0', 'x'] (signed negative whole) = none := by
      refine Option.eq_none_iff_forall_ne_some.2 fun rest hrest => ?_
      have hx : 'x' ∉ signed negative whole := notMem_signed (by decide) (notMem_of_anyDigits (by decide) hw)
      rw [eq_append_of_after? hrest] at hx
      simp at hx
    simp only [markText_false, List.append_nil, hhex]
    rw [readSigned_eq hw]

/-- A plus sign goes with a whole number without a mark. -/
theorem classify_positive_eq {digits : Text} (hdigits : AnyDigits digits) :
    classify ('+' :: digits) = (readInteger ('+' :: digits) digits false).map (.int · false) := by
  have hline : '\n' ∉ '+' :: digits :=
    List.not_mem_cons_of_ne_of_not_mem (by decide) (notMem_of_anyDigits (by decide) hdigits)
  have hnumeral : numeral? ('+' :: digits) = none := rfl
  have hhexadecimal : after? ['0', 'x'] ('+' :: digits) = none := rfl
  unfold classify
  dsimp only
  rw [withoutFinalNewline_of_notMem hline, hnumeral, hhexadecimal]
  rfl

theorem classify_integer {negative marked : Bool} {whole : Text} {l : Literal} (hw : AnyDigits whole)
    (h : classify (signed negative whole ++ markText marked) = .ok l) :
    l = .int (if negative = true then -(natural whole : Int) else natural whole) marked := by
  rw [classify_integer_eq hw] at h
  obtain ⟨v, hv, rfl⟩ := except_map_eq_ok_iff.1 h
  rw [(readInteger_eq_ok_iff.1 hv).2.2.2]

/-- What a fraction is read as depends on its digits only. -/
theorem classify_fraction_eq {negative marked : Bool} {whole fraction : Text} (hw : AnyDigits whole)
    (hf : AnyDigits fraction) :
    classify (signed negative (whole ++ '.' :: fraction) ++ markText marked)
      = (readFraction (signed negative (whole ++ '.' :: fraction) ++ markText marked) whole fraction
          negative).map (.float · marked) := by
  have hnewline : '\n' ∉ signed negative (whole ++ '.' :: fraction) ++ markText marked := by
    have hcs : '\n' ∉ whole ++ '.' :: fraction :=
      List.not_mem_append (notMem_of_anyDigits (by decide) hw) (List.not_mem_cons_of_ne_of_not_mem (by decide)
        (notMem_of_anyDigits (by decide) hf))
    exact List.not_mem_append (notMem_signed (by decide) hcs) (notMem_markText (by decide) marked)
  have hquote : unquoted? (signed negative (whole ++ '.' :: fraction) ++ markText marked) = none := by
    rw [signed_append, List.append_assoc]
    exact unquoted?_signed hw
  unfold classify
  dsimp only
  rw [withoutFinalNewline_of_notMem hnewline, hquote, numeral?_fraction hw hf]
  cases marked with
  | true => simp only [markText_true, mark, if_true]
  | false => rw [markText_false]

/-- A whole number that is shown is read as that number. -/
theorem classify_shown_integer {v : Int} {marked : Bool} {l : Literal}
    (h : classify (integer v ++ markText marked) = .ok l) : l = .int v marked := by
  rw [classify_integer (digits_decimal _).any h, natural_decimal]
  congr 1
  split
  · next hneg => have := of_decide_eq_true hneg; omega
  · next hneg => have := of_decide_eq_false (Bool.eq_false_iff.2 hneg); omega

/-- A whole number that fits a word has few digits, and is read. -/
theorem readInteger_decimal {source : Text} {v : Int} (hv : Word.Fits v) :
    readInteger source (decimal v.natAbs) (v < 0) = .ok v := by
  have hdigits := digits_decimal v.natAbs
  have hall : (decimal v.natAbs).all isDigit = true :=
    List.all_eq_true.2 fun c hc => isDigit_of_isDigit (hdigits.2 c hc)
  have hlength : (decimal v.natAbs).length ≤ 10 := by
    refine (Nat.length_toDigits_le_iff (by decide) (by decide)).2 ?_
    simp only [Word.Fits] at hv
    omega
  have hvalue : (if decide (v < 0) = true then -(v.natAbs : Int) else v.natAbs) = v := by
    split
    · next hneg => have := of_decide_eq_true hneg; omega
    · next hneg => have := of_decide_eq_false (Bool.eq_false_iff.2 hneg); omega
  unfold readInteger readDigits
  rw [if_neg (by simp [hdigits.1, hall]), if_neg (by simp only [digitLimit]; omega)]
  show (if Word.Fits (if decide (v < 0) = true then -(natural (decimal v.natAbs) : Int)
    else natural (decimal v.natAbs)) then _ else _) = _
  rw [natural_decimal, hvalue, if_pos hv]
  rfl

/-- **A whole number that is shown can be read**, with a mark or without. -/
theorem classify_shown_word {v : Int} (hv : Word.Fits v) (marked : Bool) :
    classify (integer v ++ markText marked) = .ok (.int v marked) := by
  rw [integer, classify_integer_eq (digits_decimal _).any, readInteger_decimal hv]
  rfl

/-- **A fraction that is shown can be read**, with a mark or without, and stored, to the places that are shown. -/
theorem classify_shown_fraction {x : Single} (hx : x.isFinite = true) :
    ∃ y : Double, (∀ marked, classify (x.fixed fractionPlaces ++ markText marked) = .ok (.float y marked)) ∧
      y.narrow?.isSome = true ∧ (y.convert .single : Single).isFinite = true ∧
      (y.convert .single : Single).fixed fractionPlaces = x.fixed fractionPlaces := by
  generalize hn : roundHalfEven (x.units * 10 ^ 4) (2 ^ 149) = n
  have hplaces : n % 10 ^ 4 < 10 ^ 4 := Nat.mod_lt n (by decide)
  have hfraction : Digits (zeroPadded 4 (decimal (n % 10 ^ 4))) := digits_zeroPadded (digits_decimal _)
  have hshown : x.fixed fractionPlaces
      = signed x.negative (decimal (n / 10 ^ 4) ++ '.' :: zeroPadded 4 (decimal (n % 10 ^ 4))) := by
    unfold Binary.fixed Number.fixed fractionPlaces
    simp only [Nat.pow_eq, show BinaryFormat.single.unitExponent = 149 from rfl]
    rw [hn]
  have hdigits : natural (decimal (n / 10 ^ 4) ++ zeroPadded 4 (decimal (n % 10 ^ 4))) = n := by
    rw [natural_append (digits_decimal _).2 hfraction.2, natural_decimal, natural_zeroPadded (digits_decimal _),
      natural_decimal, length_zeroPadded_decimal (by decide) hplaces]
    exact Nat.div_add_mod n (10 ^ 4)
  have hnarrow := Binary.isSome_narrow?_ofDecimal hx hn
  have hread : ∀ source : Text, readFraction source (decimal (n / 10 ^ 4))
      (zeroPadded 4 (decimal (n % 10 ^ 4))) x.negative = .ok (.ofDecimal x.negative n 4) := by
    intro source
    refine readFraction_eq_ok_iff.2 ⟨?_, hnarrow⟩
    rw [hdigits, length_zeroPadded_decimal (by decide) hplaces]
  refine ⟨.ofDecimal x.negative n 4, fun marked => ?_, hnarrow,
    Binary.isFinite_convert_of_narrow (Binary.isFinite_ofDecimal hx hn) hnarrow, Binary.places_reread hx hn⟩
  rw [hshown, classify_fraction_eq (digits_decimal _).any hfraction.any, hread]
  rfl

/-- A text in quotes is read as that text. -/
theorem classify_quoted (t : Text) : classify ('"' :: t ++ ['"']) = .ok (.text t) := by
  have hlast : ('"' :: t ++ ['"']).getLast? ≠ some '\n' := by
    rw [List.getLast?_append]
    simp
  have hunquoted : unquoted? ('"' :: t ++ ['"']) = some t := before?_append t ['"']
  unfold classify
  dsimp only
  rw [show withoutFinalNewline ('"' :: t ++ ['"']) = '"' :: t ++ ['"'] from if_neg hlast, hunquoted]

end Literal
end Storyboard
