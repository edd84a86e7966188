/-
Which names are the same in lower case.

The lower case of a letter may be two letters, and that of a capital sigma depends on what stands around it, so that a
text and its lower case need not be of one length. `Text.Lowers` relates a text to its lower case letter by letter, and
is read from the end: a name that is the same in lower case as that of a text file has the suffix of one
(`Session.exists_suffix_of_lowercase_eq`).
-/
import Mathlib.Data.List.Basic
import Mathlib.Data.List.Induction
import Storyboard.Batch
import Storyboard.Proofs.Numeral

namespace Storyboard

/-! ## Lower case, letter by letter -/

namespace Text

/-- The lower case of the letter is one letter, whatever stands around it. -/
def Steady (c : Char) : Prop := c.toNat ≠ 0x130 ∧ c.toNat ≠ 0x3A3

instance (c : Char) : Decidable (Steady c) := inferInstanceAs (Decidable (_ ∧ _))

/-- `LowersLetter c t`: the lower case of the letter `c` is `t`, in some surroundings. -/
inductive LowersLetter : Char → Text → Prop where
  | steady {c : Char} : Steady c → LowersLetter c [lowercaseLetter c]
  | dottedI {c : Char} : c.toNat = 0x130 → LowersLetter c ['i', .ofNat 0x307]
  | sigma {c : Char} : c.toNat = 0x3A3 → LowersLetter c [.ofNat 0x3C3]
  | finalSigma {c : Char} : c.toNat = 0x3A3 → LowersLetter c [.ofNat 0x3C2]

/-- `Lowers t t'`: the lower case of the text `t` is `t'`, in some surroundings. -/
inductive Lowers : Text → Text → Prop where
  | nil : Lowers [] []
  | cons {c : Char} {cs t t' : Text} : LowersLetter c t → Lowers cs t' → Lowers (c :: cs) (t ++ t')

variable {c d : Char} {t t' ending before : Text}

theorem LowersLetter.ne_nil (h : LowersLetter c t) : t ≠ [] := by
  cases h <;> exact List.cons_ne_nil _ _

theorem Lowers.eq_nil_iff (h : Lowers t t') : t = [] ↔ t' = [] := by
  cases h with
  | nil => simp
  | cons hc _ => simp [hc.ne_nil]

/-- **What `lowercase` does** to a text and one that follows it, whose letters are steady. -/
theorem exists_lowercaseAfter_append (h : ∀ c ∈ ending, Steady c) (before t : Text) :
    ∃ t', lowercaseAfter before (t ++ ending) = t' ++ ending.map lowercaseLetter ∧ Lowers t t' := by
  induction t generalizing before with
  | nil =>
    refine ⟨[], ?_, .nil⟩
    induction ending generalizing before with
    | nil => rfl
    | cons c ending ih =>
      obtain ⟨⟨hI, hsigma⟩, hending⟩ := List.forall_mem_cons.1 h
      rw [List.nil_append, lowercaseAfter, if_neg hI, if_neg hsigma]
      exact congrArg (lowercaseLetter c :: ·) (ih hending _)
  | cons c t ih =>
    obtain ⟨t', hrest, ht'⟩ := ih (c :: before)
    rw [List.cons_append, lowercaseAfter, hrest, ← List.append_assoc]
    refine ⟨_, rfl, .cons ?_ ht'⟩
    split
    · next hI => exact .dottedI hI
    · next hI =>
      split
      · next hsigma =>
        split
        · exact .finalSigma hsigma
        · exact .sigma hsigma
      · next hsigma => exact .steady ⟨hI, hsigma⟩

theorem lowers_lowercase (t : Text) : Lowers t (lowercase t) := by
  obtain ⟨t', hlower, ht'⟩ := exists_lowercaseAfter_append (List.forall_mem_nil Steady) [] t
  simp only [List.append_nil, List.map_nil] at hlower
  rw [lowercase, hlower]
  exact ht'

theorem lowercase_of_steady (h : ∀ c ∈ t, Steady c) : lowercase t = t.map lowercaseLetter := by
  obtain ⟨t', hlower, ht'⟩ := exists_lowercaseAfter_append h [] []
  rw [ht'.eq_nil_iff.1 rfl] at hlower
  exact hlower

/-- What lowers to a text with one more ASCII letter ends in a letter that lowers to it. -/
theorem Lowers.exists_of_concat (hd : d.toNat < 0x80) (h : Lowers t (t' ++ [d])) :
    ∃ front c, t = front ++ [c] ∧ Lowers front t' ∧ Steady c ∧ lowercaseLetter c = d := by
  generalize hwhole : t' ++ [d] = whole at h
  induction h generalizing t' with
  | nil => exact absurd hwhole (by simp)
  | @cons c cs first others hc hcs ih =>
    rcases List.eq_nil_or_concat' others with hnone | ⟨rest, last, rfl⟩
    · -- The last letter is the only one, and its lower case is the whole of it.
      rw [hnone, List.append_nil] at hwhole
      obtain rfl := hcs.eq_nil_iff.2 hnone
      have hlast := congrArg List.getLast? hwhole
      rw [List.getLast?_concat] at hlast
      cases hc with
      | steady hsteady =>
        have hletter : t' ++ [d] = [] ++ [lowercaseLetter c] := hwhole
        obtain ⟨rfl, -⟩ := List.append_inj' hletter rfl
        exact ⟨[], c, rfl, .nil, hsteady, (Option.some.inj hlast).symm⟩
      | dottedI | sigma | finalSigma =>
        rw [Option.some.inj hlast] at hd
        exact absurd hd (by decide)
    · rw [← List.append_assoc] at hwhole
      obtain ⟨rfl, hlast⟩ := List.append_inj' hwhole rfl
      obtain ⟨front, c', rfl, hfront, hsteady, hletter⟩ := ih (congrArg (rest ++ ·) hlast)
      exact ⟨c :: front, c', rfl, .cons hc hfront, hsteady, hletter⟩

/-- What lowers to a text with an ending of ASCII letters has an ending whose letters lower to those. -/
theorem Lowers.exists_of_append (hending : ∀ d ∈ ending, d.toNat < 0x80) (h : Lowers t (t' ++ ending)) :
    ∃ front back, t = front ++ back ∧ Lowers front t' ∧ (∀ c ∈ back, Steady c) ∧
      back.map lowercaseLetter = ending := by
  induction ending using List.reverseRecOn generalizing t with
  | nil => exact ⟨t, [], (List.append_nil t).symm, by rwa [List.append_nil] at h, by simp, rfl⟩
  | append_singleton ending d ih =>
    obtain ⟨hending, hd⟩ := List.forall_mem_append.1 hending
    rw [← List.append_assoc] at h
    obtain ⟨whole, c, rfl, hwhole, hc, hletter⟩ := h.exists_of_concat (hd d List.mem_cons_self)
    obtain ⟨front, back, rfl, hfront, hback, hletters⟩ := ih hending hwhole
    refine ⟨front, back ++ [c], List.append_assoc .., hfront, ?_, ?_⟩
    · exact List.forall_mem_append.2 ⟨hback, List.forall_mem_singleton.2 hc⟩
    · rw [List.map_append, hletters, List.map_singleton, hletter]

/-- The letter of a number that is not zero has that number. -/
theorem toNat_of_ofNat_eq {n : Nat} (hc : c.toNat ≠ 0) (h : Char.ofNat n = c) : n = c.toNat := by
  by_cases hvalid : n.isValidChar
  · rw [Char.ofNat, dif_pos hvalid] at h
    rw [← h]
    rfl
  · rw [Char.ofNat, dif_neg hvalid] at h
    rw [← h] at hc
    contradiction

/-- Nothing but a dot has a dot for its lower case. -/
theorem eq_dot_of_lowercaseLetter (h : lowercaseLetter c = '.') : c = '.' := by
  have hruns : ∀ r ∈ lowercaseRuns, ¬((r.first : Int) + r.offset ≤ 0x2E ∧ 0x2E ≤ r.last + r.offset) := by
    decide +kernel
  unfold lowercaseLetter at h
  dsimp only at h
  split at h
  · next r hr =>
    have hbounds := List.find?_some hr
    simp only [Bool.and_eq_true, decide_eq_true_eq] at hbounds
    have hcode : (c.toNat + r.offset).toNat = 0x2E := toNat_of_ofNat_eq (by decide) h
    refine absurd ?_ (hruns r (List.mem_of_find?_eq_some hr))
    omega
  · exact h

end Text

/-! ## Suffixes -/

namespace Path

variable {name stem tail : Text}

/-- The suffix starts at the last dot, if there is something in front of it and behind it. -/
theorem splitSuffix_of_dot (hdot : '.' ∉ tail) :
    splitSuffix (stem ++ '.' :: tail) =
      if tail.isEmpty ∨ stem.isEmpty then (stem ++ '.' :: tail, []) else (stem, '.' :: tail) := by
  have hreverse : (stem ++ '.' :: tail).reverse = tail.reverse ++ '.' :: stem.reverse := by simp
  have hbehind : (stem ++ '.' :: tail).reverse.takeWhile (· ≠ '.') = tail.reverse := by
    rw [hreverse]
    exact Text.takeWhile_append_of_stop
      (fun c hc => by simpa using ne_of_mem_of_not_mem (List.mem_reverse.1 hc) hdot) (by simp)
  have hfront : (stem ++ '.' :: tail).length - tail.length - 1 = stem.length := by
    rw [List.length_append, List.length_cons]
    omega
  unfold splitSuffix
  rw [hbehind, List.reverse_reverse]
  dsimp only
  rw [hfront, List.take_left]

/-- A name is what is in front of its suffix, and the suffix. -/
theorem splitSuffix_append (name : Text) : (splitSuffix name).1 ++ (splitSuffix name).2 = name := by
  by_cases hmem : '.' ∈ name.reverse
  · obtain ⟨tail, stem, hname, hdot⟩ := List.eq_append_cons_of_mem hmem
    have hname' : name = stem.reverse ++ '.' :: tail.reverse := by
      rw [← List.reverse_reverse name, hname]
      simp
    rw [hname', splitSuffix_of_dot (by simpa using hdot)]
    split <;> simp
  · have hwhole : (name.reverse ++ []).takeWhile (· ≠ '.') = name.reverse :=
      Text.takeWhile_append_of_stop (fun c hc => by simpa using ne_of_mem_of_not_mem hc hmem) (by simp)
    rw [List.append_nil] at hwhole
    unfold splitSuffix
    rw [hwhole]
    simp

end Path

namespace Session

open Text

variable {stem suffix name other : Text}

theorem ascii_textSuffix : ∀ c ∈ textSuffix, c.toNat < 0x80 := by
  simp [textSuffix]

theorem steady_textSuffix : ∀ c ∈ textSuffix, Steady c := by
  simp [textSuffix, Steady]

/-- What is the suffix of a text in lower case is a suffix, whatever is in front of it. -/
theorem splitSuffix_of_lowercase_eq (hstem : stem ≠ []) (h : lowercase suffix = textSuffix) :
    Path.splitSuffix (stem ++ suffix) = (stem, suffix) := by
  have hlowers : Lowers suffix ([] ++ textSuffix) := h ▸ lowers_lowercase suffix
  obtain ⟨front, back, rfl, hfront, -, hletters⟩ := hlowers.exists_of_append ascii_textSuffix
  obtain rfl := hfront.eq_nil_iff.2 rfl
  obtain ⟨c, tail, rfl, hc, htail⟩ := List.map_eq_cons_iff.1 hletters
  obtain rfl := eq_dot_of_lowercaseLetter hc
  have hdot : '.' ∉ tail := by
    intro hmem
    have hmem' := List.mem_map_of_mem (f := lowercaseLetter) hmem
    rw [htail] at hmem'
    exact absurd hmem' (by decide +kernel)
  have hne : tail ≠ [] := by
    rintro rfl
    contradiction
  rw [List.nil_append, Path.splitSuffix_of_dot hdot, if_neg (by simp [hne, hstem])]

/-- A name that is the same in lower case as that of a text ends like one. -/
theorem exists_suffix_of_lowercase_eq (hother : other ≠ []) (h : lowercase name = lowercase (other ++ textSuffix)) :
    ∃ stem suffix, name = stem ++ suffix ∧ stem ≠ [] ∧ lowercase suffix = textSuffix := by
  obtain ⟨t', hlower, ht'⟩ := exists_lowercaseAfter_append steady_textSuffix [] other
  have hletters : textSuffix.map lowercaseLetter = textSuffix := by decide +kernel
  have hlowers := lowers_lowercase name
  rw [h, lowercase, hlower, hletters] at hlowers
  obtain ⟨front, back, rfl, hfront, hsteady, hback⟩ := hlowers.exists_of_append ascii_textSuffix
  refine ⟨front, back, rfl, fun hnone => hother (ht'.eq_nil_iff.2 (hfront.eq_nil_iff.1 hnone)), ?_⟩
  rw [lowercase_of_steady hsteady, hback]

end Session
end Storyboard
