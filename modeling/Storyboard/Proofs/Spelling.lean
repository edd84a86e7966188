/-
How literals are spelled.

A literal has one of six forms: a text in double quotes, a fraction or a whole number, each with a mark or without,
or a hexadecimal number. A `Spelling` is the form with the parts that the literal's text consists of, and
`Spelling.Denotes` says as which literal they are read, if they are. What is read is spelled
(`exists_spelling_of_classify`), and what is spelled is read by its parts (`Spelling.classify_text`). A text has one
spelling at most (`Spelling.text_injective`), so that the forms may be looked for in any order (`Form.classify_eq`).
-/
import Storyboard.Proofs.Diagnosis

namespace Storyboard

namespace Literal

open Number Text

/-! ## Forms and spellings -/

/-- The forms of literals. -/
inductive Form where
  | quoted
  | fraction (marked : Bool)
  | whole (marked : Bool)
  | hexadecimal
deriving DecidableEq

/-- What stands where a literal is written. -/
inductive Spelling where
  /-- A text between two quotes. -/
  | quoted (content : Text)
  /-- Digits, a point and digits after a minus sign or none, with a mark or without. -/
  | fraction (negative : Bool) (digits places : Text) (marked : Bool)
  /-- Digits after a minus sign or none, with a mark or without. -/
  | whole (negative : Bool) (digits : Text) (marked : Bool)
  /-- Digits after a plus sign, which does not go with a mark. -/
  | positive (digits : Text)
  /-- Hexadecimal digits after a zero and an x. -/
  | hexadecimal (digits : Text)

namespace Spelling

def form : Spelling → Form
  | quoted _ => .quoted
  | fraction _ _ _ marked => .fraction marked
  | whole _ _ marked => .whole marked
  | positive _ => .whole false
  | hexadecimal _ => .hexadecimal

/-- The text that is put together. -/
def text : Spelling → Text
  | quoted content => '"' :: content ++ ['"']
  | fraction negative digits places marked => signed negative (digits ++ '.' :: places) ++ markText marked
  | whole negative digits marked => signed negative digits ++ markText marked
  | positive digits => '+' :: digits
  | hexadecimal digits => '0' :: 'x' :: digits

/-- The parts are what they should be: digits, of any script, and one to eight hexadecimal digits. -/
def WellFormed : Spelling → Prop
  | quoted _ => True
  | fraction _ digits places _ => AnyDigits digits ∧ AnyDigits places
  | whole _ digits _ => AnyDigits digits
  | positive digits => AnyDigits digits
  | hexadecimal digits => HexDigits digits ∧ digits.length ≤ 8

/-- The literal that is meant. A whole number must fit a word; a fraction is rounded to eight bytes, and if it is finite
there, it must not be infinite in four; a hexadecimal number is taken modulo 2^32. -/
inductive Denotes : Spelling → Literal → Prop where
  | quoted {content : Text} : Denotes (.quoted content) (.text content)
  | fraction {negative : Bool} {digits places : Text} {marked : Bool} {x : Double} :
      x = .ofDecimal negative (natural (digits ++ places)) places.length →
      ¬(x.isFinite = true ∧ (x.convert .single : Single).isInfinite = true) →
      Denotes (.fraction negative digits places marked) (.float x marked)
  | whole {negative : Bool} {digits : Text} {marked : Bool} {v : Int} :
      v = (if negative = true then -(natural digits : Int) else natural digits) → Word.Fits v →
      Denotes (.whole negative digits marked) (.int v marked)
  | positive {digits : Text} {v : Int} : v = natural digits → Word.Fits v → Denotes (.positive digits) (.int v false)
  | hexadecimal {digits : Text} {v : Int} :
      Word.Fits v → 0x100000000 ∣ v - (hexNatural digits : Int) → Denotes (.hexadecimal digits) (.int v false)

/-! ## A text has one spelling -/

/-- The numeral that the text starts with. -/
def numeral : Spelling → Option Numeral
  | quoted _ => none
  | fraction negative digits places marked => some ⟨negative, digits, some places, markText marked⟩
  | whole negative digits marked => some ⟨negative, digits, none, markText marked⟩
  | positive _ => none
  | hexadecimal digits => some ⟨false, ['0'], none, 'x' :: digits⟩

variable {s s' : Spelling} {source t : Text} {l : Literal}

theorem numeral?_text (h : s.WellFormed) : numeral? s.text = s.numeral := by
  cases s with
  | quoted content => rfl
  | fraction negative digits places marked => exact numeral?_fraction h.1 h.2
  | whole negative digits marked => exact numeral?_whole h
  | positive digits => rfl
  | hexadecimal digits => rfl

theorem fraction_of_numeral? {negative marked : Bool} {digits places : Text}
    (h : numeral? t = some ⟨negative, digits, some places, markText marked⟩) :
    (fraction negative digits places marked).WellFormed ∧ (fraction negative digits places marked).text = t := by
  obtain ⟨hdigits, ⟨hnone, -⟩ | ⟨places', hsome, hplaces, htext⟩⟩ := eq_of_numeral? h
  · contradiction
  · obtain rfl := Option.some.inj hsome
    refine ⟨⟨hdigits, hplaces⟩, ?_⟩
    rw [htext, text, signed_append, List.append_assoc]
    rfl

theorem whole_of_numeral? {negative marked : Bool} {digits : Text}
    (h : numeral? t = some ⟨negative, digits, none, markText marked⟩) :
    (whole negative digits marked).WellFormed ∧ (whole negative digits marked).text = t := by
  obtain ⟨hdigits, ⟨-, htext⟩ | ⟨places, hsome, -⟩⟩ := eq_of_numeral? h
  · exact ⟨hdigits, by rw [htext, text, signed_append]⟩
  · contradiction

theorem markText_injective {marked marked' : Bool} (h : markText marked = markText marked') : marked = marked' := by
  cases marked with
  | true => cases marked' with
    | true => rfl
    | false => contradiction
  | false => cases marked' with
    | true => contradiction
    | false => rfl

theorem markText_ne_cons {c : Char} {t : Text} (hc : c ≠ mark) (marked : Bool) : markText marked ≠ c :: t := by
  intro h
  exact notMem_markText hc marked (h ▸ List.mem_cons_self)

/-- **A text has one spelling at most.** -/
theorem text_injective (h : s.WellFormed) (h' : s'.WellFormed) (heq : s.text = s'.text) :
    s = s' := by
  have hnumeral : s.numeral = s'.numeral := by rw [← numeral?_text h, ← numeral?_text h', heq]
  have hx : ∀ marked {t : Text}, markText marked ≠ 'x' :: t := fun marked _ => markText_ne_cons (by decide) marked
  cases s with
  | quoted content =>
    cases s' with
    | quoted content' => simpa [text] using heq
    | positive digits => simp [text] at heq
    | fraction | whole | hexadecimal => contradiction
  | positive digits =>
    cases s' with
    | positive digits' => simpa [text] using heq
    | quoted content => simp [text] at heq
    | fraction | whole | hexadecimal => contradiction
  | fraction negative digits places marked =>
    cases s' with
    | fraction negative' digits' places' marked' =>
      simp only [numeral, Option.some.injEq, Numeral.mk.injEq] at hnumeral
      obtain ⟨rfl, rfl, rfl, hmark⟩ := hnumeral
      rw [markText_injective hmark]
    | whole | hexadecimal => simp [numeral] at hnumeral
    | quoted | positive => contradiction
  | whole negative digits marked =>
    cases s' with
    | whole negative' digits' marked' =>
      simp only [numeral, Option.some.injEq, Numeral.mk.injEq] at hnumeral
      obtain ⟨rfl, rfl, -, hmark⟩ := hnumeral
      rw [markText_injective hmark]
    | fraction => simp [numeral] at hnumeral
    | hexadecimal => simp [numeral, hx] at hnumeral
    | quoted | positive => contradiction
  | hexadecimal digits =>
    cases s' with
    | hexadecimal digits' => simpa [text] using heq
    | fraction => simp [numeral] at hnumeral
    | whole => simp [numeral, (hx _).symm] at hnumeral
    | quoted | positive => contradiction

/-! ## Reading what is spelled -/

/-- Reads the literal `source` by its parts. -/
def read (source : Text) : Spelling → Except Error Literal
  | quoted content => .ok (.text content)
  | fraction negative digits places marked => (readFraction source digits places negative).map (.float · marked)
  | whole negative digits marked => (readInteger source digits negative).map (.int · marked)
  | positive digits => (readInteger source digits false).map (.int · false)
  | hexadecimal digits => .ok (.int (Word.wrap (hexNatural digits)) false)

/-- How many digits there are of a whole number in decimal. -/
def decimals : Spelling → Nat
  | whole _ digits _ => digits.length
  | positive digits => digits.length
  | _ => 0

theorem decimals_le_length_text : s.decimals ≤ s.text.length := by
  cases s with
  | quoted | fraction | hexadecimal => exact Nat.zero_le _
  | positive digits => exact Nat.le_succ _
  | whole negative digits marked =>
    rw [text, List.length_append]
    cases negative with
    | true => exact Nat.le_add_right_of_le (Nat.le_succ _)
    | false => exact Nat.le_add_right _ _

theorem notMem_of_hexDigits {digits : Text} (h : HexDigits digits) : '\n' ∉ digits := by
  intro hmem
  have := h.2 _ hmem
  contradiction

theorem classify_hexadecimal {digits : Text} (h : HexDigits digits) (hlength : digits.length ≤ 8) :
    classify ('0' :: 'x' :: digits) = .ok (.int (Word.wrap (hexNatural digits)) false) := by
  have hline := notMem_of_hexDigits h
  have hnumeral : numeral? ('0' :: 'x' :: digits) = some ⟨false, ['0'], none, 'x' :: digits⟩ := rfl
  have hhexadecimal : after? ['0', 'x'] ('0' :: 'x' :: digits) = some digits := rfl
  have hread : readHexadecimal ('0' :: 'x' :: digits) digits = .ok (Word.wrap (hexNatural digits)) := by
    unfold readHexadecimal
    rw [withoutFinalNewline_of_notMem hline, readHexadecimal?_eq_some_iff.2 ⟨h, rfl⟩]
    exact if_pos hlength
  unfold classify
  dsimp only
  rw [withoutFinalNewline_of_notMem (by simpa using hline), hnumeral, hhexadecimal]
  dsimp only
  rw [hread]
  rfl

/-- **What is spelled is read by its parts.** -/
theorem classify_text (h : s.WellFormed) : classify s.text = s.read s.text := by
  cases s with
  | quoted content => exact classify_quoted content
  | fraction negative digits places marked => exact classify_fraction_eq h.1 h.2
  | whole negative digits marked => exact classify_integer_eq h
  | positive digits => exact classify_positive_eq h
  | hexadecimal digits => exact classify_hexadecimal h.1 h.2

/-- **As what the parts are read**: as the literal that is meant, unless there are too many digits. -/
theorem read_eq_ok_iff (h : s.WellFormed) : s.read source = .ok l ↔ s.decimals ≤ digitLimit ∧ s.Denotes l := by
  refine ⟨fun hread => ?_, fun hread => ?_⟩
  · cases s with
    | quoted content =>
      obtain rfl := Except.ok.inj hread
      exact ⟨Nat.zero_le _, .quoted⟩
    | fraction negative digits places marked =>
      obtain ⟨x, hx, rfl⟩ := except_map_eq_ok_iff.1 hread
      obtain ⟨hvalue, hnarrow⟩ := readFraction_eq_ok_iff.1 hx
      exact ⟨Nat.zero_le _, .fraction hvalue (Binary.isSome_narrow?_iff.1 hnarrow)⟩
    | whole negative digits marked =>
      obtain ⟨v, hv, rfl⟩ := except_map_eq_ok_iff.1 hread
      obtain ⟨-, hlimit, hfits, hvalue⟩ := readInteger_eq_ok_iff.1 hv
      exact ⟨hlimit, .whole hvalue hfits⟩
    | positive digits =>
      obtain ⟨v, hv, rfl⟩ := except_map_eq_ok_iff.1 hread
      obtain ⟨-, hlimit, hfits, hvalue⟩ := readInteger_eq_ok_iff.1 hv
      exact ⟨hlimit, .positive hvalue hfits⟩
    | hexadecimal digits =>
      obtain rfl := Except.ok.inj hread
      obtain ⟨hfits, hcongruent⟩ := Word.eq_wrap_iff.1 (Eq.refl (Word.wrap (hexNatural digits)))
      exact ⟨Nat.zero_le _, .hexadecimal hfits hcongruent⟩
  · obtain ⟨hlimit, hdenotes⟩ := hread
    cases hdenotes with
    | quoted => rfl
    | fraction hvalue hnarrow =>
      exact except_map_eq_ok_iff.2 ⟨_, readFraction_eq_ok_iff.2 ⟨hvalue, Binary.isSome_narrow?_iff.2 hnarrow⟩, rfl⟩
    | whole hvalue hfits =>
      exact except_map_eq_ok_iff.2 ⟨_, readInteger_eq_ok_iff.2 ⟨h, hlimit, hfits, hvalue⟩, rfl⟩
    | positive hvalue hfits =>
      exact except_map_eq_ok_iff.2 ⟨_, readInteger_eq_ok_iff.2 ⟨h, hlimit, hfits, hvalue⟩, rfl⟩
    | hexadecimal hfits hcongruent =>
      rw [Word.eq_wrap_iff.2 ⟨hfits, hcongruent⟩]
      rfl

end Spelling

variable {source : Text} {l : Literal}

/-- Too many digits are spelled. -/
theorem Overlong.exists_spelling (h : Overlong source) :
    ∃ s : Spelling, s.WellFormed ∧ s.text = source ∧ digitLimit < s.decimals := by
  cases h with
  | @signed negative marked digits hdigits => exact ⟨.whole negative digits marked, hdigits.1, rfl, hdigits.2⟩
  | @plus digits hdigits => exact ⟨.positive digits, hdigits.1, rfl, hdigits.2⟩

theorem withoutFinalNewline_cons_cons {c d : Char} {t : Text} (h : withoutFinalNewline t ≠ []) :
    withoutFinalNewline (c :: d :: t) = c :: d :: withoutFinalNewline t := by
  cases t with
  | nil => contradiction
  | cons e t =>
    unfold withoutFinalNewline
    simp only [List.getLast?_cons_cons, List.dropLast_cons_cons]
    split <;> rfl

theorem spelled_of_readSigned {v : Int} (h : readSigned source (withoutFinalNewline source) = .ok v) :
    ∃ s : Spelling, s.WellFormed ∧ s.text = withoutFinalNewline source ∧ s.read source = .ok (.int v false) := by
  generalize withoutFinalNewline source = t at h
  unfold readSigned at h
  split at h
  · next digits =>
    have hdigits := (readInteger_eq_ok_iff.1 h).1
    exact ⟨.whole true digits false, hdigits, List.append_nil _, except_map_eq_ok_iff.2 ⟨_, h, rfl⟩⟩
  · next digits =>
    have hdigits := (readInteger_eq_ok_iff.1 h).1
    exact ⟨.positive digits, hdigits, rfl, except_map_eq_ok_iff.2 ⟨_, h, rfl⟩⟩
  · have hdigits := (readInteger_eq_ok_iff.1 h).1
    exact ⟨.whole false t false, hdigits, List.append_nil _, except_map_eq_ok_iff.2 ⟨_, h, rfl⟩⟩

theorem spelled_of_readHexadecimal {digits : Text} {v : Int} (hsource : after? ['0', 'x'] source = some digits)
    (h : readHexadecimal source digits = .ok v) :
    ∃ s : Spelling, s.WellFormed ∧ s.text = withoutFinalNewline source ∧ s.read source = .ok (.int v false) := by
  unfold readHexadecimal at h
  split at h
  · next n hn =>
    split at h
    · next hlength =>
      obtain rfl := Except.ok.inj h
      obtain ⟨hdigits, rfl⟩ := readHexadecimal?_eq_some_iff.1 hn
      have hle := (withoutFinalNewline_isPrefix digits).length_le
      refine ⟨.hexadecimal (withoutFinalNewline digits), ⟨hdigits, Nat.le_trans hle hlength⟩, ?_, rfl⟩
      rw [eq_append_of_after? hsource]
      exact (withoutFinalNewline_cons_cons hdigits.1).symm
    · contradiction
  · contradiction

/-- **What is read is spelled**, but for a newline at the end. -/
theorem exists_spelling_of_classify (h : classify source = .ok l) :
    ∃ s : Spelling, s.WellFormed ∧ s.text = withoutFinalNewline source ∧ s.read source = .ok l := by
  cases readFrom_of_classify h with
  | @text content hquoted => exact ⟨.quoted content, trivial, hquoted.symm, rfl⟩
  | @fraction n places marked x hnumeral hplaces hrest hread =>
    obtain ⟨negative, digits, _, _⟩ := n
    obtain rfl := hplaces
    obtain rfl := hrest
    obtain ⟨hs, htext⟩ := Spelling.fraction_of_numeral? hnumeral
    exact ⟨_, hs, htext, except_map_eq_ok_iff.2 ⟨_, hread, rfl⟩⟩
  | @marked n v hnumeral hnone hrest hread =>
    obtain ⟨negative, digits, _, _⟩ := n
    obtain rfl := hnone
    obtain rfl := hrest
    obtain ⟨hs, htext⟩ := Spelling.whole_of_numeral? hnumeral
    exact ⟨_, hs, htext, except_map_eq_ok_iff.2 ⟨_, hread, rfl⟩⟩
  | hexadecimal hdigits hread => exact spelled_of_readHexadecimal hdigits hread
  | signed hread => exact spelled_of_readSigned hread

/-! ## Forms in any order -/

namespace Form

/-- The spelling of this form that the text is, if it is one. -/
def spelling? (t : Text) : Form → Option Spelling
  | quoted => (unquoted? t).map .quoted
  | fraction marked =>
    match numeral? t with
    | some ⟨negative, digits, some places, rest⟩ =>
      if rest = markText marked then some (.fraction negative digits places marked) else none
    | _ => none
  | whole marked =>
    match numeral? t with
    | some ⟨negative, digits, none, rest⟩ =>
      if rest = markText marked then some (.whole negative digits marked) else none
    | some ⟨_, _, some _, _⟩ => none
    | none =>
      match t with
      | '+' :: digits => if marked = false ∧ AnyDigits digits then some (.positive digits) else none
      | _ => none
  | hexadecimal =>
    match after? ['0', 'x'] t with
    | some digits => if HexDigits digits ∧ digits.length ≤ 8 then some (.hexadecimal digits) else none
    | none => none

variable {f : Form} {s : Spelling} {t : Text}

theorem spelling?_text (h : s.WellFormed) : s.form.spelling? s.text = some s := by
  have hnumeral := Spelling.numeral?_text h
  cases s with
  | quoted content =>
    have hunquoted : unquoted? ('"' :: content ++ ['"']) = some content := before?_append content ['"']
    exact congrArg (Option.map Spelling.quoted) hunquoted
  | fraction | whole =>
    unfold spelling? Spelling.form
    dsimp only
    rw [hnumeral]
    exact if_pos rfl
  | positive digits => exact if_pos ⟨rfl, h⟩
  | hexadecimal digits => exact if_pos h

theorem of_spelling? (h : f.spelling? t = some s) : s.WellFormed ∧ s.form = f ∧ s.text = t := by
  unfold spelling? at h
  split at h
  · obtain ⟨content, hcontent, rfl⟩ := Option.map_eq_some_iff.1 h
    unfold unquoted? at hcontent
    split at hcontent
    · next rest => exact ⟨trivial, rfl, by rw [eq_append_of_before? hcontent]; rfl⟩
    · contradiction
  · split at h
    · next negative digits places rest hnumeral =>
      split at h
      · next hrest =>
        obtain rfl := Option.some.inj h
        obtain ⟨hs, htext⟩ := Spelling.fraction_of_numeral? (hrest ▸ hnumeral)
        exact ⟨hs, rfl, htext⟩
      · contradiction
    · contradiction
  · split at h
    · next negative digits rest hnumeral =>
      split at h
      · next hrest =>
        obtain rfl := Option.some.inj h
        obtain ⟨hs, htext⟩ := Spelling.whole_of_numeral? (hrest ▸ hnumeral)
        exact ⟨hs, rfl, htext⟩
      · contradiction
    · contradiction
    · split at h
      · split at h
        · next hdigits =>
          obtain rfl := Option.some.inj h
          exact ⟨hdigits.2, by rw [hdigits.1]; rfl, rfl⟩
        · contradiction
      · contradiction
  · split at h
    · next digits hrest =>
      split at h
      · next hdigits =>
        obtain rfl := Option.some.inj h
        exact ⟨hdigits, rfl, (eq_append_of_after? hrest).symm⟩
      · contradiction
    · contradiction

/-- The literal that is read when the forms are looked for in this order. -/
def classify (order : List Form) (source : Text) : Except Error Literal :=
  match order.findSome? (·.spelling? source) with
  | some s => s.read source
  | none => .error (.unsupportedLiteral source)

theorem findSome?_spelling?_eq_some_iff {order : List Form} (horder : ∀ f, f ∈ order) :
    order.findSome? (·.spelling? t) = some s ↔ s.WellFormed ∧ s.text = t := by
  refine ⟨fun h => ?_, fun h => ?_⟩
  · obtain ⟨f, -, hf⟩ := List.exists_of_findSome?_eq_some h
    obtain ⟨hs, -, htext⟩ := of_spelling? hf
    exact ⟨hs, htext⟩
  · obtain ⟨hs, rfl⟩ := h
    cases hfind : order.findSome? (·.spelling? s.text) with
    | none =>
      have := List.findSome?_eq_none_iff.1 hfind s.form (horder s.form)
      rw [spelling?_text hs] at this
      contradiction
    | some s' =>
      obtain ⟨f, -, hf⟩ := List.exists_of_findSome?_eq_some hfind
      obtain ⟨hs', -, htext⟩ := of_spelling? hf
      rw [Spelling.text_injective hs' hs htext]

/-- **The order in which the forms are looked for does not matter.** -/
theorem classify_eq {order : List Form} (horder : ∀ f, f ∈ order) (hline : '\n' ∉ t) :
    classify order t = Literal.classify t := by
  have hfind : ∀ s, order.findSome? (·.spelling? t) = some s ↔ _ := fun _ => findSome?_spelling?_eq_some_iff horder
  unfold classify
  cases hspelled : order.findSome? (·.spelling? t) with
  | some s =>
    obtain ⟨hs, rfl⟩ := (hfind s).1 hspelled
    exact (Spelling.classify_text hs).symm
  | none =>
    have hnone : ∀ s : Spelling, s.WellFormed → s.text ≠ t := by
      intro s hs htext
      rw [(hfind s).2 ⟨hs, htext⟩] at hspelled
      contradiction
    cases hread : Literal.classify t with
    | ok l =>
      obtain ⟨s, hs, htext, -⟩ := exists_spelling_of_classify hread
      rw [withoutFinalNewline_of_notMem hline] at htext
      exact absurd htext (hnone s hs)
    | error e =>
      rcases classify_refused hline e hread with rfl | ⟨-, hlong⟩
      · rfl
      · obtain ⟨s, hs, htext, -⟩ := hlong.exists_spelling
        exact absurd htext (hnone s hs)

end Form

/-- **Which literals of one line are read**, whatever their length. -/
theorem classify_eq_ok_iff {t : Text} {l : Literal} (hline : '\n' ∉ t) :
    classify t = .ok l ↔
      ∃ s : Spelling, s.WellFormed ∧ s.text = t ∧ s.decimals ≤ digitLimit ∧ s.Denotes l := by
  refine ⟨fun h => ?_, fun h => ?_⟩
  · obtain ⟨s, hs, htext, hread⟩ := exists_spelling_of_classify h
    rw [withoutFinalNewline_of_notMem hline] at htext
    exact ⟨s, hs, htext, (Spelling.read_eq_ok_iff hs).1 hread⟩
  · obtain ⟨s, hs, rfl, hdenotes⟩ := h
    rw [Spelling.classify_text hs]
    exact (Spelling.read_eq_ok_iff hs).2 hdenotes

/-- **What a literal is.** A text of one line, with no more characters than digits are read, is read as a literal
exactly if it is spelled as that literal, and refused otherwise. It has one spelling, and so one form, and reading it
with the six forms in any order gives the same. -/
theorem classify_spelled {t : Text} (hline : '\n' ∉ t) (hlength : t.length ≤ digitLimit) :
    (∀ l, classify t = .ok l ↔ ∃ s : Spelling, s.WellFormed ∧ s.text = t ∧ s.Denotes l) ∧
      FailsOnly (· = .unsupportedLiteral t) (classify t) ∧
      (∀ s s' : Spelling, s.WellFormed → s'.WellFormed → s.text = t → s'.text = t → s = s') ∧
      ∀ order : List Form, (∀ f, f ∈ order) → Form.classify order t = classify t := by
  refine ⟨fun l => ?_, ?_, fun s s' hs hs' h h' => Spelling.text_injective hs hs' (h.trans h'.symm),
    fun order horder => Form.classify_eq horder hline⟩
  · rw [classify_eq_ok_iff hline]
    refine exists_congr fun s => and_congr_right fun _ => and_congr_right fun htext => and_iff_right ?_
    rw [← htext] at hlength
    exact Nat.le_trans Spelling.decimals_le_length_text hlength
  · intro e he
    refine (classify_refused hline e he).resolve_right fun hlong => ?_
    obtain ⟨s, -, rfl, hdecimals⟩ := hlong.2.exists_spelling
    exact Nat.not_lt.2 (Nat.le_trans Spelling.decimals_le_length_text hlength) hdecimals

/-- The last letter is a digit here and no mark, in whatever order the forms are looked for. -/
theorem classify_spelled_hexadecimal : ∃ s : Spelling, s.WellFormed ∧ s.text = "0xFFFFFFFf".toList ∧
    s.Denotes (.int (-1) false) ∧ (∀ s' : Spelling, s'.WellFormed → s'.text = "0xFFFFFFFf".toList → s' = s) ∧
      Form.classify [.whole true, .whole false, .hexadecimal, .fraction true, .fraction false, .quoted]
        "0xFFFFFFFf".toList = .ok (.int (-1) false) := by
  have hread : classify "0xFFFFFFFf".toList = .ok (.int (-1) false) := by decide +kernel
  obtain ⟨hiff, -, hunique, horder⟩ := classify_spelled (t := "0xFFFFFFFf".toList) (by decide) (by decide)
  obtain ⟨s, hs, htext, hdenotes⟩ := (hiff _).1 hread
  refine ⟨s, hs, htext, hdenotes, fun s' hs' htext' => hunique s' s hs' hs htext' htext, ?_⟩
  rw [horder _ fun f => ?_, hread]
  cases f with
  | fraction marked | whole marked => cases marked <;> decide
  | quoted | hexadecimal => decide

end Literal
end Storyboard
