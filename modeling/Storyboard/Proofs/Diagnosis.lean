/-
How a bad line is told.

Reading a line with its arguments fails with the line, or with the argument that is no literal, unless a numeral has
more digits than are read (`Statement.read_fails`). `Overlong` says of which literals and lines that is true.
-/
import Storyboard.Proofs.Reading

namespace Storyboard

/-! ## Numerals -/

namespace Text

/-- All of it are digits, and they are more than are read. -/
def LongDigits (digits : Text) : Prop := AnyDigits digits ∧ digitLimit < digits.length

/-- Digits are no white space, whatever their script is. -/
theorem isBlank_of_isDigit {c : Char} (h : isDigit c = true) : isBlank c = false := by
  have hapart : ∀ z ∈ zeroDigits, ∀ r ∈ blankRanges, z + 10 ≤ r.1 ∨ r.2 < z := by decide +kernel
  obtain ⟨n, hn⟩ := Option.isSome_iff_exists.1 h
  obtain ⟨z, hz, -⟩ := Option.map_eq_some_iff.1 hn
  have hdigit := List.find?_some hz
  simp only [Bool.and_eq_true, decide_eq_true_eq] at hdigit
  refine List.any_eq_false.2 fun r hr => ?_
  have := hapart z (List.mem_of_find?_eq_some hz) r hr
  simp only [Bool.and_eq_true, decide_eq_true_eq]
  omega

theorem LongDigits.of_all {digits : Text} (hall : digits.all isDigit = true)
    (hlong : digitLimit < digits.length) : LongDigits digits :=
  ⟨⟨List.ne_nil_of_length_pos (Nat.zero_lt_of_lt hlong), List.all_eq_true.1 hall⟩, hlong⟩

end Text

namespace Literal

open Number Text

/-- A whole number with more digits than are read. A plus sign and a mark do not go together. -/
inductive Overlong : Text → Prop
  | signed (negative marked : Bool) {digits : Text} (hdigits : LongDigits digits) :
    Overlong (signed negative digits ++ markText marked)
  | plus {digits : Text} (hdigits : LongDigits digits) : Overlong ('+' :: digits)

/-- The text `source` is told as no literal, or there are too many digits, which is only so if `long` holds. -/
def Refused (source : Text) (long : Prop) (e : Error) : Prop :=
  e = .unsupportedLiteral source ∨ (e = .numeralTooLong ∧ long)

theorem Refused.imp {source : Text} {long long' : Prop} {e : Error} (h : Refused source long e)
    (hlong : long → long') : Refused source long' e :=
  Or.imp_right (And.imp_right hlong) h

theorem readDigits_of_long {digits : Text} (hlong : digitLimit < digits.length) :
    readDigits digits = .error .numeralTooLong := if_pos hlong

theorem readInteger_refused {source digits : Text} {negative : Bool} :
    FailsOnly (Refused source (LongDigits digits)) (readInteger source digits negative) := by
  refine .guard (fun _ => .inl rfl) fun hdigits => ?_
  have hall : digits.all isDigit = true := by
    simp only [not_or] at hdigits
    simpa using hdigits.2
  have hread : FailsOnly (Refused source (LongDigits digits)) (readDigits digits) := by
    unfold readDigits
    split
    · next hlong => exact .error (.inr ⟨rfl, .of_all hall hlong⟩)
    · exact .ok _
  refine hread.bind fun n _ => ?_
  dsimp only
  generalize (if negative = true then -(n : Int) else n) = v
  split
  · exact .ok v
  · exact .error (.inl rfl)

theorem readInteger_of_long {source digits : Text} {negative : Bool} (hdigits : LongDigits digits) :
    readInteger source digits negative = .error .numeralTooLong := by
  obtain ⟨⟨hne, hall⟩, hlong⟩ := hdigits
  have hall' : digits.all isDigit = true := List.all_eq_true.2 hall
  unfold readInteger
  rw [if_neg (by simp [hne, hall']), readDigits_of_long hlong]
  rfl

theorem readSigned_refused {source t : Text} :
    FailsOnly (Refused source (Overlong t)) (readSigned source t) := by
  unfold readSigned
  split
  · next digits =>
    refine readInteger_refused.imp fun _ h => h.imp fun hdigits => ?_
    have h := Overlong.signed true false hdigits
    rwa [markText_false, List.append_nil] at h
  · exact readInteger_refused.imp fun _ h => h.imp .plus
  · refine readInteger_refused.imp fun _ h => h.imp fun hdigits => ?_
    have h := Overlong.signed false false hdigits
    rwa [markText_false, List.append_nil] at h

theorem readFraction_refused {source whole fraction : Text} {negative : Bool} {long : Prop} :
    FailsOnly (Refused source long) (readFraction source whole fraction negative) := by
  unfold readFraction
  dsimp only
  split
  · exact .ok _
  · exact .error (.inl rfl)

theorem readHexadecimal_refused {source digits : Text} {long : Prop} :
    FailsOnly (Refused source long) (readHexadecimal source digits) := by
  unfold readHexadecimal
  split
  · split
    · exact .ok _
    · exact .error (.inl rfl)
  · exact .error (.inl rfl)

/-- **Reading a literal** of one line fails because it is none, or because of too many digits. -/
theorem classify_refused {source : Text} (hline : '\n' ∉ source) :
    FailsOnly (Refused source (Overlong source)) (classify source) := by
  unfold classify
  dsimp only
  rw [withoutFinalNewline_of_notMem hline]
  split
  · exact .ok _
  · split
    · rw [if_pos rfl]
      exact readFraction_refused.map
    · next negative whole hnumeral =>
      rw [if_pos rfl]
      refine (readInteger_refused.imp fun _ h => h.imp fun hdigits => ?_).map
      obtain ⟨-, ⟨-, hsource⟩ | ⟨fraction, hfraction, -⟩⟩ := eq_of_numeral? hnumeral
      · rw [hsource, ← signed_append]
        exact .signed negative true hdigits
      · cases hfraction
    · exact readFraction_refused.map
    · split
      · exact readHexadecimal_refused.map
      · exact readSigned_refused.map

/-- **Too many digits are told wherever they are read.** -/
theorem classify_of_overlong {source : Text} (h : Overlong source) :
    classify source = .error .numeralTooLong := by
  cases h with
  | signed negative marked hdigits =>
    rw [classify_integer_eq hdigits.1, readInteger_of_long hdigits]
    rfl
  | plus hdigits =>
    rw [classify_positive_eq hdigits.1, readInteger_of_long hdigits]
    rfl

/-- **Which literals of one line have too many digits.** -/
theorem classify_eq_error_iff {source : Text} (hline : '\n' ∉ source) :
    classify source = .error .numeralTooLong ↔ Overlong source := by
  refine ⟨fun h => ?_, classify_of_overlong⟩
  rcases classify_refused hline _ h with h | ⟨-, hlong⟩
  · contradiction
  · exact hlong

theorem Overlong.ne_nil {word : Text} (h : Overlong word) : word ≠ [] := by
  cases h with
  | signed negative marked hdigits => exact List.append_ne_nil_of_left_ne_nil (signed_ne_nil hdigits.1.1) _
  | plus hdigits => exact List.cons_ne_nil _ _

/-- There is no white space in it. -/
theorem Overlong.isBlank_of_mem {word : Text} (h : Overlong word) : ∀ c ∈ word, isBlank c = false := by
  cases h with
  | signed negative marked hdigits =>
    have hmark : ∀ c ∈ markText marked, isBlank c = false := by
      cases marked with
      | true => exact List.forall_mem_singleton.2 (by decide)
      | false => exact List.forall_mem_nil _
    have hword := List.forall_mem_append.2 ⟨fun c hc => isBlank_of_isDigit (hdigits.1.2 c hc), hmark⟩
    rw [signed_append]
    cases negative with
    | true => exact List.forall_mem_cons.2 ⟨by decide, hword⟩
    | false => exact hword
  | plus hdigits =>
    exact List.forall_mem_cons.2 ⟨by decide, fun c hc => isBlank_of_isDigit (hdigits.1.2 c hc)⟩

theorem readInt_refused {source : Text} (hline : '\n' ∉ source) :
    FailsOnly (Refused source (Overlong source)) (readInt source) := by
  refine (classify_refused hline).bind fun l _ => ?_
  split
  · exact .ok _
  · exact .error (.inl rfl)

theorem readInt_of_overlong {source : Text} (h : Overlong source) : readInt source = .error .numeralTooLong := by
  unfold readInt
  rw [classify_of_overlong h]
  rfl

end Literal

/-! ## Lines -/

namespace Statement

open Number Text

/-- Reads a line, and its arguments as literals. -/
def read (number : Int) (line : Text) : Except Error (Statement × List Literal) := do
  let st ← parse number line
  let ls ← st.literals
  return (st, ls)

/-- A line in which a numeral with more digits than are read is met before anything else is wrong: as the number of
a call, as an argument with nothing but literals in front of it, as a time or as an exit. -/
inductive Overlong : Text → Prop
  | number {digits list : Text} (hdigits : LongDigits digits) (hline : '\n' ∉ list) :
    Overlong (subOpening ++ (digits ++ '(' :: (list ++ callEnding)))
  | argument {digits list a : Text} {before after : List Text} (hdigits : digits.all isDigit = true)
    (hwidth : 3 ≤ digits.length) (hlimit : digits.length ≤ digitLimit) (hnumber : natural digits ≤ subLimit)
    (hline : '\n' ∉ list) (hlist : splitArguments list = before ++ a :: after)
    (hbefore : ∀ b ∈ before, ∃ l, Literal.classify b = .ok l) (hlong : Literal.Overlong a) :
    Overlong (subOpening ++ (digits ++ '(' :: (list ++ callEnding)))
  | time {word : Text} (hlong : Literal.Overlong word) : Overlong (timeOpening ++ word ++ timeEnding)
  | exit {word : Text} (hlong : Literal.Overlong word) : Overlong (exitOpening ++ word ++ callEnding)

/-- What a line is refused for: it is told as a whole, or a part of it is, or a numeral is too long. -/
def Refused (number : Int) (line : Text) (e : Error) : Prop :=
  e = .unsupportedLine line number ∨ (∃ a, a <:+: line ∧ e = .unsupportedLiteral a) ∨
    (e = .numeralTooLong ∧ Overlong (withoutFinalNewline line))

theorem refused_of_literal {number : Int} {line a : Text} {e : Error} (ha : a <:+: line)
    (h : Literal.Refused a (Overlong (withoutFinalNewline line)) e) : Refused number line e := by
  rcases h with h | h
  · exact .inr (.inl ⟨a, ha, h⟩)
  · exact .inr (.inr h)

/-- Reading the number of a time or an exit. -/
theorem readInt_refused_of_word {number : Int} {opening ending line word : Text}
    (hword : word? opening ending (withoutFinalNewline line) = some word)
    (hlong : Literal.Overlong word → Overlong (opening ++ word ++ ending)) :
    FailsOnly (Refused number line) (Literal.readInt word) := by
  obtain ⟨ht, -, hblank⟩ := word?_eq_some_iff.1 hword
  have hpart : word <:+: withoutFinalNewline line := ⟨opening, ending, ht.symm⟩
  have hline : '\n' ∉ word := fun hmem => absurd (hblank _ hmem) (by decide)
  refine (Literal.readInt_refused hline).imp fun _ h => ?_
  refine refused_of_literal (hpart.trans (withoutFinalNewline_isPrefix line).isInfix) (h.imp fun h => ?_)
  rw [ht]
  exact hlong h

/-- **Reading a line fails** because of the line, of the number in it, or of a numeral that is too long. -/
theorem parse_refused {number : Int} {line : Text} : FailsOnly (Refused number line) (parse number line) := by
  unfold parse
  dsimp only
  split
  · next digits list hsub =>
    obtain ⟨ht, hall, -, hline⟩ := sub?_eq_some_iff.1 hsub
    have hdigits : FailsOnly (Refused number line) (Literal.readDigits digits) := by
      unfold Literal.readDigits
      split
      · next hlong =>
        refine .error (.inr (.inr ⟨rfl, ?_⟩))
        rw [ht]
        exact .number (.of_all hall hlong) hline
      · exact .ok _
    exact hdigits.bind fun n _ => .guard (fun _ => .inl rfl) fun _ => .ok _
  · split
    · exact .ok _
    · split
      · next word hword => exact (readInt_refused_of_word hword .time).map
      · split
        · next word hword => exact (readInt_refused_of_word hword .exit).map
        · exact .error (.inl rfl)

/-- Reading the arguments of a line that has been read. -/
theorem literals_refused {number : Int} {line : Text} {st : Statement} (hparse : parse number line = .ok st) :
    FailsOnly (Refused number line) st.literals := by
  cases readFrom_of_parse hparse with
  | runMacro | time | exit => exact .ok _
  | sub hsub hn hnumber =>
    intro e he
    obtain ⟨before, a, after, hlist, hbefore, ha⟩ := mapM_eq_error_iff.1 he
    obtain ⟨ht, hall, hwidth, hline⟩ := sub?_eq_some_iff.1 hsub
    obtain ⟨hlimit, rfl⟩ := Literal.readDigits_eq_ok_iff.1 hn
    have hmem : a ∈ before ++ a :: after := List.mem_append_right before List.mem_cons_self
    have hpart := infix_of_mem_splitArguments (hlist ▸ hmem)
    have hlist' := (infix_call _ _).trans (ht ▸ (withoutFinalNewline_isPrefix line).isInfix)
    have hrefused := Literal.classify_refused (fun hmem => hline (hpart.subset hmem)) e ha
    refine refused_of_literal (hpart.trans hlist') (hrefused.imp fun hlong => ?_)
    rw [ht]
    exact .argument hall hwidth hlimit hnumber hline hlist hbefore hlong

/-- A numeral that is too long is told. -/
theorem read_of_overlong {number : Int} {line : Text} (h : Overlong (withoutFinalNewline line)) :
    read number line = .error .numeralTooLong := by
  unfold read parse
  dsimp only
  generalize withoutFinalNewline line = t at h
  cases h with
  | @number digits list hdigits hline =>
    have hwidth : 3 ≤ digits.length := Nat.le_trans (by decide) (Nat.le_of_lt hdigits.2)
    have hsub := sub?_eq_some_iff.2 ⟨rfl, List.all_eq_true.2 hdigits.1.2, hwidth, hline⟩
    rw [hsub]
    dsimp only
    rw [Literal.readDigits_of_long hdigits.2]
    rfl
  | @argument digits list a before after hdigits hwidth hlimit hnumber hline hlist hbefore hlong =>
    have hsub := sub?_eq_some_iff.2 ⟨rfl, hdigits, hwidth, hline⟩
    have hn := Literal.readDigits_eq_ok_iff.2 ⟨hlimit, rfl⟩
    have hliterals : (sub (natural digits) (splitArguments list)).literals = .error .numeralTooLong :=
      mapM_eq_error_iff.2 ⟨before, a, after, hlist, hbefore, Literal.classify_of_overlong hlong⟩
    rw [hsub]
    dsimp only
    rw [hn]
    show ((if subLimit < natural digits then throw (Error.unsupportedLine line number)
      else pure (sub (natural digits) (splitArguments list))) >>= _) = _
    rw [if_neg (Nat.not_lt.2 hnumber)]
    show (sub (natural digits) (splitArguments list)).literals >>= _ = _
    rw [hliterals]
    rfl
  | @time word hlong =>
    have hword : time? (timeOpening ++ word ++ timeEnding) = some word :=
      word?_eq_some_iff.2 ⟨rfl, hlong.ne_nil, hlong.isBlank_of_mem⟩
    have hsub : sub? (timeOpening ++ word ++ timeEnding) = none := rfl
    have hmacro : macroCode? (timeOpening ++ word ++ timeEnding) = none := rfl
    rw [hsub, hmacro, hword]
    dsimp only
    rw [Literal.readInt_of_overlong hlong]
    rfl
  | @exit word hlong =>
    have hword : exit? (exitOpening ++ word ++ callEnding) = some word :=
      word?_eq_some_iff.2 ⟨rfl, hlong.ne_nil, hlong.isBlank_of_mem⟩
    have hsub : sub? (exitOpening ++ word ++ callEnding) = none := rfl
    have hmacro : macroCode? (exitOpening ++ word ++ callEnding) = none := rfl
    have htime : time? (exitOpening ++ word ++ callEnding) = none := rfl
    rw [hsub, hmacro, htime, hword]
    dsimp only
    rw [Literal.readInt_of_overlong hlong]
    rfl

/-- **How a bad line is told.** Reading a line and its arguments fails with the line and its number, or with a part
of the line that is no literal, or because of too many digits; the last is so exactly for the lines in which a
numeral that is too long comes first. -/
theorem read_fails (number : Int) (line : Text) :
    FailsOnly (fun e => e = .unsupportedLine line number ∨ (∃ a, a <:+: line ∧ e = .unsupportedLiteral a) ∨
        e = .numeralTooLong) (read number line) ∧
      (read number line = .error .numeralTooLong ↔ Overlong (withoutFinalNewline line)) := by
  have hrefused : FailsOnly (Refused number line) (read number line) :=
    parse_refused.bind fun st hst => (literals_refused hst).bind fun _ _ => .ok _
  refine ⟨hrefused.imp fun _ h => h.imp_right (Or.imp_right And.left), fun h => ?_, read_of_overlong⟩
  rcases hrefused _ h with h | ⟨a, -, h⟩ | ⟨-, hlong⟩
  · contradiction
  · contradiction
  · exact hlong

/-- Not every bad line is told as one: a time with too many digits is not. -/
theorem not_read_fails : ¬∀ (number : Int) (line : Text),
    FailsOnly (fun e => (∃ t n, e = .unsupportedLine t n) ∨ ∃ a, e = .unsupportedLiteral a) (read number line) := by
  intro claim
  obtain ⟨digits, hdigits⟩ : ∃ digits, LongDigits digits := by
    refine ⟨List.replicate 4301 '1', .of_all (List.all_eq_true.2 fun c hc => ?_) ?_⟩
    · rw [List.eq_of_mem_replicate hc]
      decide
    · rw [List.length_replicate]
      decide
  have hline : withoutFinalNewline (timeOpening ++ digits ++ timeEnding) = timeOpening ++ digits ++ timeEnding := by
    refine if_neg ?_
    rw [List.getLast?_append]
    exact fun h => absurd (Option.some.inj h) (by decide)
  have hlong : Overlong (withoutFinalNewline (timeOpening ++ digits ++ timeEnding)) := by
    have hword := Literal.Overlong.signed false false hdigits
    rw [Literal.markText_false, List.append_nil] at hword
    rw [hline]
    exact .time hword
  rcases claim 1 _ _ (read_of_overlong hlong) with ⟨t, n, h⟩ | ⟨a, h⟩
  · contradiction
  · contradiction

end Statement
end Storyboard
