/-
Reading and writing in the midst of some bytes.

`Stream.Leaves` says what bytes work leaves. Bytes that are written one after another stand one behind another
(`write_append`, `pad_append`), and a word is read and replaced between the bytes before it and those behind it
(`readWordAt_eq_ok_iff`, `writeWordAt_eq_ok_iff`).
-/
import Storyboard.Container.Editing
import Storyboard.Proofs.Stream

namespace Storyboard

namespace Word

/-- The bytes of a word determine it. -/
theorem eq_of_toBytes_prefix {v w : Int} {bytes : List UInt8} (hv : Fits v) (hw : Fits w)
    (h : toBytes v <+: bytes) (h' : toBytes w <+: bytes) : v = w := by
  have heq : toBytes v = toBytes w := by
    rw [List.prefix_iff_eq_take.1 h, List.prefix_iff_eq_take.1 h', length_toBytes, length_toBytes]
  simp only [toBytes, List.cons.injEq, and_true] at heq
  obtain ⟨h₀, h₁, h₂, h₃⟩ := heq
  have hread := ofBytes_toBytes v
  rw [h₀, h₁, h₂, h₃, ofBytes_toBytes w, wrap_of_fits hv, wrap_of_fits hw] at hread
  exact hread.symm

/-- Four bytes are those of a word. -/
theorem exists_toBytes {bytes : List UInt8} (h : 4 ≤ bytes.length) :
    ∃ v rest, Fits v ∧ bytes = toBytes v ++ rest := by
  match bytes, h with
  | b₀ :: b₁ :: b₂ :: b₃ :: rest, _ =>
    exact ⟨ofBytes b₀ b₁ b₂ b₃, rest, fits_ofBytes .., by rw [toBytes_ofBytes]; rfl⟩
  | [], h | [_], h | [_, _], h | [_, _, _], h =>
    simp only [List.length_cons, List.length_nil] at h
    omega

end Word

namespace Stream

/-! ## What work leaves -/

/-- What a stream's bytes are after work on it, whatever its result and position. -/
def Leaves {α : Type} (work : Streaming α) (s : Stream) (bytes : List UInt8) : Prop :=
  ∃ a position, work s = .ok a ⟨bytes, position⟩

theorem leaves_pure_iff {α : Type} {a : α} {s : Stream} {bytes : List UInt8} :
    Leaves (pure a) s bytes ↔ bytes = s.bytes := by
  constructor
  · rintro ⟨_, _, h⟩
    injection h with _ h
    rw [h]
  · rintro rfl
    exact ⟨a, s.position, rfl⟩

theorem leaves_bind_pure_iff {α β : Type} {work : Streaming α} {f : α → β} {s : Stream}
    {bytes : List UInt8} :
    Leaves (work >>= fun a => pure (f a)) s bytes ↔ Leaves work s bytes := by
  constructor
  · rintro ⟨_, position, h⟩
    obtain ⟨a, t, hwork, h⟩ := Attempt.bind_eq_ok.1 h
    injection h with _ h
    exact ⟨a, position, h ▸ hwork⟩
  · rintro ⟨a, position, h⟩
    exact ⟨f a, position, Attempt.bind_eq_ok.2 ⟨a, _, h, rfl⟩⟩

/-! ## Words and other bytes -/

/-- A word is read exactly where its bytes lie, and the position goes behind them. -/
theorem readWord_eq_ok_iff {s s' : Stream} {v : Int} :
    readWord s = .ok v s' ↔
      Word.Fits v ∧ Word.toBytes v <+: s.rest ∧ s' = { s with position := s.position + 4 } := by
  constructor
  · intro h
    rw [readWord_eq] at h
    split at h
    · next b₀ b₁ b₂ b₃ tail hrest =>
      injection h with hv hs
      subst hv
      refine ⟨Word.fits_ofBytes .., ?_, hs.symm⟩
      rw [hrest, Word.toBytes_ofBytes]
      exact ⟨tail, rfl⟩
    · contradiction
  · rintro ⟨hv, ⟨tail, htail⟩, rfl⟩
    rw [readWord_eq, ← htail]
    simp only [Word.toBytes, List.cons_append, List.nil_append, Word.ofBytes_toBytes, Word.wrap_of_fits hv]

variable {left old right : List UInt8} {position : Nat}

/-- The word between two pieces of a stream is read from its place. -/
theorem readWordAt_eq_ok_iff {target v w : Int} {s' : Stream} (hv : Word.Fits v)
    (htarget : target = left.length) :
    readWordAt target ⟨left ++ (Word.toBytes v ++ right), position⟩ = .ok w s' ↔
      target < offsetLimit ∧ w = v ∧ s' = ⟨left ++ (Word.toBytes v ++ right), position⟩ := by
  subst htarget
  unfold readWordAt
  rw [elsewhere_eq_ok_iff]
  simp only [readWord_eq_ok_iff, rest, Int.toNat_natCast, List.drop_left]
  have hprefix : Word.toBytes v <+: Word.toBytes v ++ right := List.prefix_append _ _
  constructor
  · rintro ⟨-, hlt, _, ⟨hw, hlies, rfl⟩, rfl⟩
    exact ⟨hlt, Word.eq_of_toBytes_prefix hw hv hlies hprefix, rfl⟩
  · rintro ⟨hlt, rfl, rfl⟩
    exact ⟨Int.natCast_nonneg _, hlt, _, ⟨hv, hprefix, rfl⟩, rfl⟩

/-- What is written stands behind what was written before. -/
theorem write_append (left right data : List UInt8) :
    write data ⟨left ++ right, left.length⟩
      = .ok () ⟨(left ++ data) ++ right.drop data.length, (left ++ data).length⟩ := by
  by_cases hdata : data = []
  · subst hdata
    simp [write]
  · have htake : (padTo left.length (left ++ right)).take left.length = left := by
      rw [padTo, List.append_assoc, List.take_left]
    have hdrop : (left ++ right).drop (left.length + data.length) = right.drop data.length := by
      rw [← List.drop_drop, List.drop_left]
    have hwithin : ¬(left ++ right).length < left.length := by simp
    unfold write
    rw [if_neg (by simpa using hdata), if_neg fun h => hwithin h.1]
    simp only [overwrite, htake, hdrop, List.length_append]

/-- A word that a number fits is written behind what was written before. -/
theorem writeWord_append_iff {v : Int} {s' : Stream} {u : Unit} :
    writeWord v ⟨left ++ right, left.length⟩ = .ok u s' ↔
      Word.Fits v ∧ s' = ⟨(left ++ Word.toBytes v) ++ right.drop 4, (left ++ Word.toBytes v).length⟩ := by
  unfold writeWord
  by_cases hv : Word.Fits v
  · rw [if_pos hv, write_append, Word.length_toBytes]
    simp [hv, eq_comm]
  · rw [if_neg hv]
    simp only [hv, false_and, iff_false]
    intro h
    contradiction

/-- The word between two pieces of a stream is replaced at its place. -/
theorem writeWordAt_eq_ok_iff {target v : Int} {s' : Stream} {u : Unit} (hold : old.length = 4)
    (htarget : target = left.length) :
    writeWordAt target v ⟨left ++ (old ++ right), position⟩ = .ok u s' ↔
      target < offsetLimit ∧ Word.Fits v ∧ s' = ⟨left ++ (Word.toBytes v ++ right), position⟩ := by
  subst htarget
  have hdrop : (old ++ right).drop 4 = right := List.drop_left' hold
  unfold writeWordAt
  rw [elsewhere_eq_ok_iff]
  simp only [Int.toNat_natCast, writeWord_append_iff, hdrop, List.append_assoc]
  constructor
  · rintro ⟨-, hlt, _, ⟨hv, rfl⟩, rfl⟩
    exact ⟨hlt, hv, rfl⟩
  · rintro ⟨hlt, hv, rfl⟩
    exact ⟨Int.natCast_nonneg _, hlt, _, ⟨hv, rfl⟩, rfl⟩

/-- Going to a record and reading it leaves the rest to work that knows it. -/
theorem jump_read_eq {α : Type} {left right : List UInt8} {position : Nat} {r : Record} {work : Record → Streaming α}
    (hr : r.Fits) (hreach : (left.length : Int) < offsetLimit) :
    (jump left.length >>= fun _ => Record.read >>= work) ⟨left ++ (r.bytes ++ right), position⟩
      = work r ⟨left ++ (r.bytes ++ right), left.length + recordSize⟩ := by
  have hjump : jump left.length ⟨left ++ (r.bytes ++ right), position⟩
      = .ok () ⟨left ++ (r.bytes ++ right), left.length⟩ :=
    jump_eq_ok_iff.2 ⟨Int.natCast_nonneg _, hreach, rfl⟩
  have hread : Record.read ⟨left ++ (r.bytes ++ right), left.length⟩
      = .ok r ⟨left ++ (r.bytes ++ right), left.length + recordSize⟩ :=
    Record.read_eq_ok_iff.2 ⟨hr, by rw [rest, List.drop_left]; exact List.prefix_append _ _, rfl⟩
  rw [Attempt.bind_of_ok hjump, Attempt.bind_of_ok hread]

/-- Reading a record that is there succeeds as far as it can be gone to. -/
theorem leaves_read_iff {α : Type} {left right bytes : List UInt8} {position : Nat} {r : Record}
    {work : Record → Streaming α} (hr : r.Fits) :
    Leaves (jump left.length >>= fun _ => Record.read >>= work)
        ⟨left ++ (r.bytes ++ right), position⟩ bytes ↔
      (left.length : Int) < offsetLimit ∧
        Leaves (work r) ⟨left ++ (r.bytes ++ right), left.length + recordSize⟩ bytes := by
  constructor
  · rintro ⟨a, p, h⟩
    obtain ⟨_, _, hjump, -⟩ := Attempt.bind_eq_ok.1 h
    obtain ⟨-, hreach, -⟩ := jump_eq_ok_iff.1 hjump
    rw [jump_read_eq hr hreach] at h
    exact ⟨hreach, a, p, h⟩
  · rintro ⟨hreach, a, p, h⟩
    exact ⟨a, p, (jump_read_eq hr hreach).trans h⟩

/-! ## Zeros -/

/-- Zeros are written like other bytes, if they are no more than a stream has. -/
theorem writeZeros_eq {count : Nat} (h : count ≤ lengthLimit) (s : Stream) :
    writeZeros count s = write (List.replicate count 0) s := by
  have hcount : ¬((count : Int) < -offsetLimit ∨ offsetLimit ≤ count) := by
    simp only [lengthLimit] at h
    simp only [offsetLimit]
    omega
  have hlimit : ¬(lengthLimit : Int) < count := by omega
  unfold writeZeros
  rw [if_neg hcount, if_neg hlimit, Int.toNat_natCast]

/-- Padding writes as many zeros as are lacking. -/
theorem pad_eq {amount : Int} (hamount : 1 ≤ amount) (s : Stream) :
    pad amount s = writeZeros (paddingOf s.position amount.toNat) s := by
  unfold pad
  rw [dif_neg (Int.not_lt.2 hamount), countPadding_eq, Nat.zero_add, Nat.add_zero]

/-- Zeros up to the alignment are few. -/
theorem pad_alignment_eq (s : Stream) :
    pad alignment s = write (List.replicate (paddingOf s.position 4) 0) s := by
  have hlt : paddingOf s.position 4 < 4 := Nat.mod_lt _ (by decide)
  have hfew : paddingOf s.position 4 ≤ lengthLimit := by
    simp only [lengthLimit]
    omega
  rw [pad_eq (by decide)]
  exact writeZeros_eq hfew s

/-- Behind what was written before, zeros are written up to the alignment. -/
theorem pad_append (left right : List UInt8) :
    pad alignment ⟨left ++ right, left.length⟩
      = .ok () ⟨(left ++ List.replicate (paddingOf left.length 4) 0)
          ++ right.drop (paddingOf left.length 4),
        left.length + paddingOf left.length 4⟩ := by
  have h := write_append left right (List.replicate (paddingOf left.length 4) 0)
  simp only [List.length_append, List.length_replicate] at h ⊢
  rw [pad_alignment_eq]
  exact h

end Stream
end Storyboard
