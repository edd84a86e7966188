/-
What reading from a stream gives, in terms of its bytes.

`Stream.TextAt` says that a text lies at a position: bytes that spell it, and behind them a zero that
is still looked at. `Stream.readTextAt_eq_ok_iff` and `Record.read_eq_ok_iff` say exactly when a text
and a record are read; `Record.StandAt` says that records lie one behind another.
-/
import Storyboard.Instruction
import Storyboard.Proofs.Attempt

namespace Storyboard

theorem append_prefix_iff {α : Type} {a b l : List α} :
    a ++ b <+: l ↔ a <+: l ∧ b <+: l.drop a.length := by
  constructor
  · rintro ⟨tail, rfl⟩
    exact ⟨⟨b ++ tail, by simp⟩, ⟨tail, by simp⟩⟩
  · rintro ⟨⟨rest, rfl⟩, ⟨tail, h⟩⟩
    rw [List.drop_left] at h
    exact ⟨tail, by simp [h]⟩

/-- Bytes that lie within some others are not affected by what follows. -/
theorem prefix_drop_append_iff {xs ys rest : List UInt8} {n : Nat} (h : n + xs.length ≤ ys.length) :
    xs <+: (ys ++ rest).drop n ↔ xs <+: ys.drop n := by
  rw [List.drop_append_of_le_length (by omega)]
  constructor
  · intro hprefix
    refine List.prefix_of_prefix_length_le hprefix (List.prefix_append _ _) ?_
    rw [List.length_drop]
    omega
  · exact fun hprefix => hprefix.trans (List.prefix_append _ _)

namespace Stream

/-! ## Texts -/

/-- The bytes `spelled` lie at `target` and spell the text `t`; the zero behind them is within what
is looked at. -/
structure TextAt (settings : Settings) (bytes : List UInt8) (target : Int) (spelled : List UInt8)
    (t : Text) : Prop where
  nonneg : 0 ≤ target
  reachable : target < offsetLimit
  lies : spelled ++ [0] <+: bytes.drop target.toNat
  zeroFree : 0 ∉ spelled
  limited : ∃ limit, settings.scanLimit = some limit ∧ (spelled.length : Int) < limit
  decoded : settings.decodeText spelled = .ok t

theorem takeWhile_nonzero_append {spelled tail : List UInt8} (h : 0 ∉ spelled) :
    (spelled ++ 0 :: tail).takeWhile (· ≠ 0) = spelled := by
  rw [List.takeWhile_append_of_pos]
  · simp
  · intro b hb
    simp only [decide_eq_true_eq]
    rintro rfl
    exact h hb

theorem exists_eq_takeWhile_nonzero {window : List UInt8}
    (h : (window.takeWhile (· ≠ 0)).length ≠ window.length) :
    0 ∉ window.takeWhile (· ≠ 0) ∧ window.takeWhile (· ≠ 0) ++ [0] <+: window := by
  induction window with
  | nil => simp at h
  | cons b window ih =>
    by_cases hb : b = 0
    · subst hb
      simp
    · simp only [ne_eq, hb, not_false_eq_true, decide_true, List.takeWhile_cons_of_pos,
        List.length_cons, Nat.add_right_cancel_iff] at h
      obtain ⟨hzero, hprefix⟩ := ih h
      simp only [ne_eq, hb, not_false_eq_true, decide_true, List.takeWhile_cons_of_pos,
        List.mem_cons, not_or, List.cons_append, List.cons_prefix_cons, true_and]
      exact ⟨⟨fun h0 => hb h0.symm, hzero⟩, hprefix⟩

theorem readText_eq_ok_iff {settings : Settings} {s s' : Stream} {t : Text} :
    readText settings s = .ok t s' ↔
      ∃ spelled, spelled ++ [0] <+: s.rest ∧ 0 ∉ spelled ∧
        (∃ limit, settings.scanLimit = some limit ∧ (spelled.length : Int) < limit) ∧
        settings.decodeText spelled = .ok t ∧
        s' = { s with position := s.position + spelled.length + 1 } := by
  unfold readText readTextWith Settings.decodeText
  cases hlimit : settings.scanLimit with
  | none => simp
  | some limit =>
    dsimp only
    constructor
    · intro h
      split at h
      · contradiction
      · next hne =>
        obtain ⟨hzero, hprefix⟩ := exists_eq_takeWhile_nonzero hne
        refine ⟨_, hprefix.trans (List.take_prefix _ _), hzero, ⟨limit, rfl, ?_⟩, ?_⟩
        · have hlen := hprefix.length_le
          simp only [List.length_append, List.length_cons, List.length_nil, List.length_take] at hlen
          omega
        · split at h
          · next t' ht =>
            injection h with h1 h2
            subst h1
            exact ⟨ht, h2.symm⟩
          · contradiction
    · rintro ⟨spelled, ⟨tail, htail⟩, hzero, ⟨limit', hl, hlt⟩, hdecode, rfl⟩
      obtain rfl : limit = limit' := by simpa using hl
      have hwindow : s.rest.take limit.toNat
          = spelled ++ 0 :: tail.take (limit.toNat - (spelled.length + 1)) := by
        rw [← htail, List.append_assoc, List.take_append, List.take_of_length_le (by omega)]
        obtain ⟨n, hn⟩ : ∃ n, limit.toNat - spelled.length = n + 1 :=
          ⟨limit.toNat - spelled.length - 1, by omega⟩
        rw [List.singleton_append, hn, List.take_succ_cons]
        congr 3
        omega
      rw [hwindow, takeWhile_nonzero_append hzero, if_neg (by simp), hdecode]

theorem jump_eq_ok_iff {target : Int} {s s' : Stream} {u : Unit} :
    jump target s = .ok u s' ↔
      0 ≤ target ∧ target < offsetLimit ∧ s' = { s with position := target.toNat } := by
  unfold jump
  constructor
  · intro h
    split at h
    · contradiction
    · split at h
      · contradiction
      · injection h with _ h
        exact ⟨by omega, by omega, h.symm⟩
  · rintro ⟨h0, hlt, rfl⟩
    rw [if_neg (by omega), if_neg (by omega)]

/-- **Work somewhere** is the work there and the way back, or fails at once where the place cannot be gone to. -/
theorem elsewhere_eq {α : Type} (target : Int) (work : Streaming α) (s : Stream) :
    elsewhere target work s =
      if target < 0 then .error (.negativeOffset target) s
      else if offsetLimit ≤ target then .error .offsetOverflow s
      else match work ⟨s.bytes, target.toNat⟩ with
        | .ok a t => .ok a ⟨t.bytes, s.position⟩
        | .error e t => .error e ⟨t.bytes, s.position⟩ := by
  unfold elsewhere returning Attempt.within
  rw [id_eq]
  by_cases h0 : target < 0
  · have hjump : jump target s = .error (.negativeOffset target) s := if_pos h0
    rw [Attempt.bind_of_error hjump, if_pos h0]
  · by_cases hlt : offsetLimit ≤ target
    · have hjump : jump target s = .error .offsetOverflow s := (if_neg h0).trans (if_pos hlt)
      rw [Attempt.bind_of_error hjump, if_neg h0, if_pos hlt]
    · have hjump : jump target s = .ok () ⟨s.bytes, target.toNat⟩ := (if_neg h0).trans (if_neg hlt)
      rw [Attempt.bind_of_ok hjump, if_neg h0, if_neg hlt]
      cases work ⟨s.bytes, target.toNat⟩ <;> rfl

/-- Work somewhere gives what the work gives there, or fails where the place cannot be gone to. -/
theorem outcome_elsewhere {α : Type} (target : Int) (work : Streaming α) (s : Stream) :
    Attempt.outcome (elsewhere target work s) =
      if target < 0 then .error (.negativeOffset target)
      else if offsetLimit ≤ target then .error .offsetOverflow
      else Attempt.outcome (work ⟨s.bytes, target.toNat⟩) := by
  rw [elsewhere_eq]
  by_cases h0 : target < 0
  · rw [if_pos h0, if_pos h0]
    rfl
  · by_cases hlt : offsetLimit ≤ target
    · rw [if_neg h0, if_neg h0, if_pos hlt, if_pos hlt]
      rfl
    · rw [if_neg h0, if_neg h0, if_neg hlt, if_neg hlt]
      cases work ⟨s.bytes, target.toNat⟩ <;> rfl

/-- Work somewhere succeeds when the place can be gone to and the work succeeds there. -/
theorem elsewhere_eq_ok_iff {α : Type} {target : Int} {work : Streaming α} {s s' : Stream} {a : α} :
    elsewhere target work s = .ok a s' ↔
      0 ≤ target ∧ target < offsetLimit ∧
        ∃ t, work { s with position := target.toNat } = .ok a t ∧
          s' = { t with position := s.position } := by
  rw [elsewhere_eq]
  by_cases h0 : target < 0
  · simp [h0, Int.not_le.2 h0]
  · by_cases hlt : offsetLimit ≤ target
    · simp [h0, hlt, Int.not_lt.2 hlt]
    · rw [if_neg h0, if_neg hlt]
      cases work ⟨s.bytes, target.toNat⟩ with
      | ok b t => simp [Int.not_lt.1 h0, Int.not_le.1 hlt, eq_comm, and_assoc]
      | error e t => simp

/-- A text is read exactly where one lies, and the stream stays as it was. -/
theorem readTextAt_eq_ok_iff {settings : Settings} {target : Int} {s s' : Stream} {t : Text} :
    readTextAt settings target s = .ok t s' ↔
      (∃ spelled, TextAt settings s.bytes target spelled t) ∧ s' = s := by
  unfold readTextAt
  rw [elsewhere_eq_ok_iff]
  simp only [readText_eq_ok_iff, rest]
  constructor
  · rintro ⟨h0, hlt, _, ⟨spelled, hlies, hzero, hlimit, hdecode, rfl⟩, rfl⟩
    exact ⟨⟨spelled, h0, hlt, hlies, hzero, hlimit, hdecode⟩, rfl⟩
  · rintro ⟨⟨spelled, h⟩, rfl⟩
    exact ⟨h.nonneg, h.reachable, _, ⟨spelled, h.lies, h.zeroFree, h.limited, h.decoded, rfl⟩, rfl⟩

/-- The same bytes at another place, in another stream, are the same text. -/
theorem TextAt.transfer {settings : Settings} {bytes bytes' : List UInt8} {target target' : Int}
    {spelled : List UInt8} {t : Text} (h : TextAt settings bytes target spelled t)
    (h0 : 0 ≤ target') (hlt : target' < offsetLimit)
    (hlies : spelled ++ [0] <+: bytes'.drop target'.toNat) :
    TextAt settings bytes' target' spelled t :=
  ⟨h0, hlt, hlies, h.zeroFree, h.limited, h.decoded⟩

end Stream

namespace Record

/-! ## Records -/

/-- Each of the record's numbers fits a word. -/
def Fits (r : Record) : Prop := Word.Fits r.operation ∧ Word.Fits r.variant ∧ Word.Fits r.operand

instance (r : Record) : Decidable r.Fits := inferInstanceAs (Decidable (_ ∧ _))

/-- The twelve bytes of a record whose numbers fit. -/
def bytes (r : Record) : List UInt8 :=
  Word.toBytes r.operation ++ Word.toBytes r.variant ++ Word.toBytes r.operand

@[simp] theorem length_bytes (r : Record) : r.bytes.length = recordSize := by simp [bytes, recordSize]

theorem toBytes_eq_ok_iff {r : Record} {bs : List UInt8} :
    r.toBytes = .ok bs ↔ r.Fits ∧ bs = r.bytes := by
  unfold toBytes
  split
  · next h =>
    simp only [Except.ok.injEq]
    exact ⟨fun hb => ⟨h, hb.symm⟩, fun hb => hb.2.symm⟩
  · next h =>
    simp only [reduceCtorEq, false_iff, not_and]
    exact fun hf => absurd hf h

/-- A record is read exactly where its bytes lie, and the position goes behind them. -/
theorem read_eq_ok_iff {s s' : Stream} {r : Record} :
    read s = .ok r s' ↔
      r.Fits ∧ r.bytes <+: s.rest ∧ s' = { s with position := s.position + recordSize } := by
  constructor
  · intro h
    unfold read at h
    split at h
    · next a₀ a₁ a₂ a₃ b₀ b₁ b₂ b₃ c₀ c₁ c₂ c₃ tail hrest =>
      injection h with hr hs
      subst hr
      refine ⟨⟨Word.fits_ofBytes .., Word.fits_ofBytes .., Word.fits_ofBytes ..⟩, ?_, hs.symm⟩
      rw [hrest]
      simp only [bytes, Word.toBytes_ofBytes]
      exact ⟨tail, rfl⟩
    · contradiction
  · rintro ⟨⟨ho, hv, hp⟩, ⟨tail, htail⟩, rfl⟩
    unfold read
    rw [← htail]
    simp only [bytes, Word.toBytes, List.cons_append, List.nil_append, Word.ofBytes_toBytes,
      Word.wrap_of_fits ho, Word.wrap_of_fits hv, Word.wrap_of_fits hp]

/-- Records lie one behind another from a position on. -/
def StandAt (bytes : List UInt8) (position : Nat) (rs : List Record) : Prop :=
  (∀ r ∈ rs, r.Fits) ∧ rs.flatMap Record.bytes <+: bytes.drop position

@[simp] theorem length_flatMap_bytes (rs : List Record) :
    (rs.flatMap Record.bytes).length = recordSize * rs.length := by
  induction rs with
  | nil => rfl
  | cons r rs ih => simp [ih, Nat.mul_succ, Nat.add_comm]

theorem standAt_nil (bytes : List UInt8) (position : Nat) : StandAt bytes position [] := by
  simp [StandAt]

theorem standAt_append_iff {bytes : List UInt8} {position : Nat} {rs rs' : List Record} :
    StandAt bytes position (rs ++ rs') ↔
      StandAt bytes position rs ∧ StandAt bytes (position + recordSize * rs.length) rs' := by
  simp only [StandAt, List.flatMap_append, append_prefix_iff, length_flatMap_bytes, List.drop_drop,
    List.forall_mem_append]
  exact ⟨fun ⟨⟨h1, h2⟩, h3, h4⟩ => ⟨⟨h1, h3⟩, h2, h4⟩, fun ⟨⟨h1, h3⟩, h2, h4⟩ => ⟨⟨h1, h2⟩, h3, h4⟩⟩

theorem standAt_cons_iff {bytes : List UInt8} {position : Nat} {r : Record} {rs : List Record} :
    StandAt bytes position (r :: rs) ↔
      StandAt bytes position [r] ∧ StandAt bytes (position + recordSize) rs := by
  rw [← List.singleton_append, standAt_append_iff]
  simp

/-- A record stands where it can be read. -/
theorem standAt_singleton_iff {bytes : List UInt8} {position : Nat} {r : Record} :
    StandAt bytes position [r] ↔ read ⟨bytes, position⟩ = .ok r ⟨bytes, position + recordSize⟩ := by
  simp [StandAt, read_eq_ok_iff, Stream.rest]

/-- One record stands at a place. -/
theorem StandAt.unique {bytes : List UInt8} {position : Nat} {r r' : Record} (h : StandAt bytes position [r])
    (h' : StandAt bytes position [r']) : r = r' := by
  have hread := standAt_singleton_iff.1 h
  rw [standAt_singleton_iff.1 h'] at hread
  injection hread with hread
  exact hread.symm

end Record
end Storyboard
