/-
How literals and lines are read, one constructor for each way.

`readFrom_of_classify` and `readFrom_of_parse` take a reading apart, so that what is said about all literals and
lines that are read is said way by way: whole numbers fit a word, fractions have a four-byte neighbour, codes have
four digits, and arguments are parts of their line.
-/
import Storyboard.Assembly
import Storyboard.Proofs.Arguments
import Storyboard.Proofs.Number
import Storyboard.Proofs.Numeral

namespace Storyboard

/-! ## Parts of a text -/

namespace Text

theorem withoutFinalNewline_isPrefix (t : Text) : withoutFinalNewline t <+: t := by
  unfold withoutFinalNewline
  split
  · exact List.dropLast_prefix t
  · exact List.prefix_refl t

end Text

/-! ## Literals -/

namespace Literal

open Text

/-- `ReadFrom source l`: the text `source` is read as the literal `l`. -/
inductive ReadFrom (source : Text) : Literal → Prop where
  | text {content : Text} :
      withoutFinalNewline source = '"' :: content ++ ['"'] → ReadFrom source (.text content)
  | fraction {n : Numeral} {fraction : Text} {marked : Bool} {x : Number.Double} :
      numeral? (withoutFinalNewline source) = some n → n.fraction = some fraction → n.rest = markText marked →
      readFraction source n.whole fraction n.negative = .ok x → ReadFrom source (.float x marked)
  | marked {n : Numeral} {v : Int} :
      numeral? (withoutFinalNewline source) = some n → n.fraction = none → n.rest = markText true →
      readInteger source n.whole n.negative = .ok v → ReadFrom source (.int v true)
  | hexadecimal {digits : Text} {v : Int} :
      after? ['0', 'x'] source = some digits → readHexadecimal source digits = .ok v →
      ReadFrom source (.int v false)
  | signed {v : Int} :
      readSigned source (withoutFinalNewline source) = .ok v → ReadFrom source (.int v false)

/-- **The ways a literal is read.** -/
theorem readFrom_of_classify {source : Text} {l : Literal} (h : classify source = .ok l) : ReadFrom source l := by
  unfold classify at h
  dsimp only at h
  cases hquote : unquoted? (withoutFinalNewline source) with
  | some content =>
    rw [hquote] at h
    obtain rfl := Except.ok.inj h
    unfold unquoted? at hquote
    split at hquote
    · next rest heq => exact .text (by rw [heq, eq_append_of_before? hquote, List.cons_append])
    · contradiction
  | none =>
    rw [hquote] at h
    dsimp only at h
    split at h
    · next hnumeral =>
      split at h
      · obtain ⟨x, hx, rfl⟩ := except_map_eq_ok_iff.1 h
        exact .fraction hnumeral rfl rfl hx
      · contradiction
    · next hnumeral =>
      split at h
      · obtain ⟨v, hv, rfl⟩ := except_map_eq_ok_iff.1 h
        exact .marked hnumeral rfl rfl hv
      · contradiction
    · next hnumeral =>
      obtain ⟨x, hx, rfl⟩ := except_map_eq_ok_iff.1 h
      exact .fraction hnumeral rfl rfl hx
    · split at h
      · next digits hdigits =>
        obtain ⟨v, hv, rfl⟩ := except_map_eq_ok_iff.1 h
        exact .hexadecimal hdigits hv
      · obtain ⟨v, hv, rfl⟩ := except_map_eq_ok_iff.1 h
        exact .signed hv

theorem fits_of_readInteger {source unsigned : Text} {negative : Bool} {v : Int}
    (h : readInteger source unsigned negative = .ok v) : Word.Fits v := (readInteger_eq_ok_iff.1 h).2.2.1

theorem fits_of_readSigned {source t : Text} {v : Int} (h : readSigned source t = .ok v) : Word.Fits v := by
  unfold readSigned at h
  split at h
  · exact fits_of_readInteger h
  · exact fits_of_readInteger h
  · exact fits_of_readInteger h

theorem fits_of_readHexadecimal {source digits : Text} {v : Int} (h : readHexadecimal source digits = .ok v) :
    Word.Fits v := by
  unfold readHexadecimal at h
  split at h
  · split at h
    · rw [← Except.ok.inj h]
      exact Word.fits_wrap _
    · contradiction
  · contradiction

/-- A whole number that has been read fits a word. -/
theorem fits_of_classify {source : Text} {v : Int} {marked : Bool} (h : classify source = .ok (.int v marked)) :
    Word.Fits v := by
  cases readFrom_of_classify h with
  | marked _ _ _ hread => exact fits_of_readInteger hread
  | hexadecimal _ hread => exact fits_of_readHexadecimal hread
  | signed hread => exact fits_of_readSigned hread

/-- A fraction that has been read can be stored. -/
theorem isSome_narrow?_of_classify {source : Text} {x : Number.Double} {marked : Bool}
    (h : classify source = .ok (.float x marked)) : x.narrow?.isSome = true := by
  cases readFrom_of_classify h with
  | fraction _ _ _ hread => exact (readFraction_eq_ok_iff.1 hread).2

/-- A text that has been read stood in quotes. -/
theorem quoted_of_classify_text {source content : Text} (h : classify source = .ok (.text content)) :
    withoutFinalNewline source = '"' :: content ++ ['"'] := by
  cases readFrom_of_classify h with
  | text hquoted => exact hquoted

/-- The number of a time or an exit fits a word. -/
theorem fits_of_readInt {source : Text} {v : Int} (h : readInt source = .ok v) : Word.Fits v := by
  obtain ⟨l, hl, h⟩ := except_bind_eq_ok_iff.1 h
  split at h
  · rw [← Except.ok.inj h]
    exact fits_of_classify hl
  · contradiction

end Literal

/-! ## Lines -/

namespace Statement

open Text

/-- `ReadFrom t s`: the line `t`, without a newline at its end, is read as the statement `s`. -/
inductive ReadFrom (t : Text) : Statement → Prop where
  | sub {digits list : Text} {n : Nat} :
      sub? t = some (digits, list) → Literal.readDigits digits = .ok n → n ≤ subLimit →
      ReadFrom t (.sub n (splitArguments list))
  | runMacro {code : Nat} : macroCode? t = some code → ReadFrom t (.runMacro code)
  | time {word : Text} {v : Int} : time? t = some word → Literal.readInt word = .ok v → ReadFrom t (.time v)
  | exit {word : Text} {v : Int} : exit? t = some word → Literal.readInt word = .ok v → ReadFrom t (.exit v)

/-- **The ways a line is read.** -/
theorem readFrom_of_parse {number : Int} {line : Text} {s : Statement} (h : parse number line = .ok s) :
    ReadFrom (withoutFinalNewline line) s := by
  unfold parse at h
  dsimp only at h
  split at h
  · next digits list hsub =>
    obtain ⟨n, hn, h⟩ := except_bind_eq_ok_iff.1 h
    obtain ⟨hlimit, h⟩ := guard_eq_ok_iff.1 h
    obtain rfl := Except.ok.inj h
    exact .sub hsub hn (Nat.le_of_not_lt hlimit)
  · split at h
    · next code hcode =>
      obtain rfl := Except.ok.inj h
      exact .runMacro hcode
    · split at h
      · next word hword =>
        obtain ⟨v, hv, rfl⟩ := except_map_eq_ok_iff.1 h
        exact .time hword hv
      · split at h
        · next word hword =>
          obtain ⟨v, hv, rfl⟩ := except_map_eq_ok_iff.1 h
          exact .exit hword hv
        · contradiction

/-- Statements that lines are read as are each read from one of the lines. -/
theorem exists_parse_of_mem {number : Int} {lines : List Text} {ss : List Statement}
    (h : parseFrom number lines = .ok ss) : ∀ s ∈ ss, ∃ line ∈ lines, ∃ n, parse n line = .ok s := by
  induction lines generalizing number ss with
  | nil =>
    obtain rfl := Except.ok.inj h
    simp
  | cons line lines ih =>
    obtain ⟨s, hs, h⟩ := except_bind_eq_ok_iff.1 h
    obtain ⟨ss', hss, h⟩ := except_bind_eq_ok_iff.1 h
    obtain rfl := Except.ok.inj h
    refine List.forall_mem_cons.2 ⟨⟨line, List.mem_cons_self, number, hs⟩, fun s' hs' => ?_⟩
    obtain ⟨other, hother, hparse⟩ := ih hss s' hs'
    exact ⟨other, List.mem_cons_of_mem line hother, hparse⟩

/-- **What a call is**: three digits or more and an argument list of one line. -/
theorem sub?_eq_some_iff {t digits list : Text} :
    sub? t = some (digits, list) ↔
      t = subOpening ++ (digits ++ '(' :: (list ++ callEnding)) ∧ digits.all isDigit = true ∧ 3 ≤ digits.length ∧
        '\n' ∉ list := by
  unfold sub?
  simp only [Option.bind_eq_bind, Option.bind_eq_some_iff]
  constructor
  · intro h
    obtain ⟨rest, hrest, tail, htail, list', hlist, h⟩ := h
    split at h
    · next hcall =>
      obtain ⟨rfl, rfl⟩ := Prod.mk.inj (Option.some.inj h)
      refine ⟨?_, List.all_takeWhile, hcall⟩
      rw [eq_append_of_after? hrest, ← eq_append_of_before? hlist]
      congr 1
      calc rest = rest.takeWhile isDigit ++ rest.dropWhile isDigit := List.takeWhile_append_dropWhile.symm
        _ = rest.takeWhile isDigit ++ '(' :: tail := by rw [eq_append_of_after? htail]; rfl
    · contradiction
  · intro h
    obtain ⟨rfl, hall, hwidth, hline⟩ := h
    have hdigits := List.all_eq_true.1 hall
    have hstop : ∀ c ∈ ('(' :: (list ++ callEnding)).head?, isDigit c = false := by
      intro c hc
      obtain rfl : '(' = c := Option.some.inj hc
      decide
    refine ⟨_, after?_append subOpening _, list ++ callEnding, ?_, list, before?_append list callEnding, ?_⟩
    · rw [dropWhile_append_of_stop hdigits hstop]
      rfl
    · rw [takeWhile_append_of_stop hdigits hstop, if_pos ⟨hwidth, hline⟩]

/-- **What stands between an opening and an ending** is found if there is something without white space. -/
theorem word?_eq_some_iff {opening ending t word : Text} :
    word? opening ending t = some word ↔
      t = opening ++ word ++ ending ∧ word ≠ [] ∧ ∀ c ∈ word, isBlank c = false := by
  unfold word?
  simp only [Option.bind_eq_bind, Option.bind_eq_some_iff]
  constructor
  · intro h
    obtain ⟨rest, hrest, word', hword, h⟩ := h
    split at h
    · contradiction
    · next hplain =>
      obtain rfl := Option.some.inj h
      simp only [List.isEmpty_iff, List.any_eq_true, not_or, not_exists, not_and, Bool.not_eq_true] at hplain
      refine ⟨?_, hplain⟩
      rw [eq_append_of_after? hrest, eq_append_of_before? hword, List.append_assoc]
  · intro h
    obtain ⟨rfl, hne, hblank⟩ := h
    refine ⟨word ++ ending, ?_, word, before?_append word ending, ?_⟩
    · rw [List.append_assoc, after?_append]
    · rw [if_neg]
      simpa [hne] using hblank

/-- The argument list of a call is part of its line. -/
theorem infix_call (digits list : Text) : list <:+: subOpening ++ (digits ++ '(' :: (list ++ callEnding)) :=
  ⟨subOpening ++ (digits ++ ['(']), callEnding, by simp⟩

/-- The arguments of a call are cut from a list that is part of its line, and one line. -/
theorem exists_list_of_parse {number n : Int} {line : Text} {args : List Text}
    (h : parse number line = .ok (.sub n args)) :
    ∃ list, args = splitArguments list ∧ list <:+: line ∧ '\n' ∉ list := by
  cases readFrom_of_parse h with
  | sub hsub =>
    obtain ⟨ht, -, -, hline⟩ := sub?_eq_some_iff.1 hsub
    exact ⟨_, rfl, (infix_call _ _).trans (ht ▸ (withoutFinalNewline_isPrefix line).isInfix), hline⟩

theorem macroCode?_lt {t : Text} {code : Nat} (h : macroCode? t = some code) : code < 0x10000 := by
  unfold macroCode? at h
  obtain ⟨rest, -, h⟩ := Option.bind_eq_some_iff.1 h
  obtain ⟨digits, -, h⟩ := Option.bind_eq_some_iff.1 h
  split at h
  · next hle =>
    calc code < 16 ^ digits.length := Number.readHexadecimal?_lt h
      _ ≤ 16 ^ 4 := Nat.pow_le_pow_right (by decide) hle
  · contradiction

end Statement
end Storyboard
