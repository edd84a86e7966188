/-
What correcting a segment leaves when a number does not fit a word.

The references of code are moved up to the first one that would not fit (`obstructed_of_moveReferences`), and what is
behind that stays. `Workspace.of_correctSegment_error` says the same of a segment, of which the own offset comes first,
and `Raised.obstructed` which words have been raised by then.
-/
import Storyboard.Proofs.Effect

namespace Storyboard

theorem Stream.writeWordAt_of_not_fits {target v : Int} {s : Stream} (hstart : 0 ≤ target)
    (hreach : target < offsetLimit) (h : ¬Word.Fits v) : writeWordAt target v s = .error .wordOverflow s := by
  unfold writeWordAt writeWord
  rw [elsewhere_eq, if_neg (Int.not_lt.2 hstart), if_neg (Int.not_le.2 hreach), if_neg h]
  rfl

/-! ## Code -/

/-- The code has the records `rs`, of which none leaves the script and the references can be moved, in front of the
reference `r`, which would not fit a word any more. -/
structure Obstructed (change : Int) (code : List UInt8) (rs : List Record) (r : Record) (rest : List UInt8) : Prop where
  code_eq : code = rs.flatMap Record.bytes ++ (r.bytes ++ rest)
  fits : ∀ r' ∈ rs ++ [r], r'.Fits
  stays : ∀ r' ∈ rs, r'.isExit = false
  movable : ∀ r' ∈ rs, r'.isTextReference = true → Word.Fits (r'.operand + change)
  refers : r.isTextReference = true
  overflows : ¬Word.Fits (r.operand + change)

/-- Obstructed code, as far as its references have been moved. -/
def obstructedBytes (change : Int) (rs : List Record) (r : Record) (rest : List UInt8) : List UInt8 :=
  (rs.map (Record.moved change)).flatMap Record.bytes ++ (r.bytes ++ rest)

namespace Obstructed

variable {change : Int} {code rest : List UInt8} {rs : List Record} {r first : Record}

/-- A reference at the very beginning. -/
theorem nil (hr : r.Fits) (hrefers : r.isTextReference = true) (h : ¬Word.Fits (r.operand + change)) :
    Obstructed change (r.bytes ++ rest) [] r rest :=
  ⟨rfl, by simpa using hr, by simp, by simp, hrefers, h⟩

/-- A reference behind one more record. -/
theorem cons (h : Obstructed change code rs r rest) (hfirst : first.Fits) (hstays : first.isExit = false)
    (hmovable : first.isTextReference = true → Word.Fits (first.operand + change)) :
    Obstructed change (first.bytes ++ code) (first :: rs) r rest where
  code_eq := by rw [h.code_eq, List.flatMap_cons, List.append_assoc]
  fits := List.forall_mem_cons.2 ⟨hfirst, h.fits⟩
  stays := List.forall_mem_cons.2 ⟨hstays, h.stays⟩
  movable := List.forall_mem_cons.2 ⟨hmovable, h.movable⟩
  refers := h.refers
  overflows := h.overflows

/-- The records stand at the beginning of the code. -/
theorem stand (h : Obstructed change code rs r rest) : Record.StandAt code 0 (rs ++ [r]) := by
  refine ⟨h.fits, rest, ?_⟩
  rw [h.code_eq, List.flatMap_append, List.flatMap_singleton, List.append_assoc, List.drop_zero]

/-- The reference that would not fit is one of those that are looked at. -/
theorem referenceAfter (h : Obstructed change code rs r rest) : Record.ReferenceAfter code rs r :=
  ⟨h.stand, h.stays, h.refers⟩

end Obstructed

/-- Up to the reference that would not fit, code is raised at its text references. -/
theorem Raised.obstructed {change : Int} {code rest : List UInt8} {rs : List Record} {r : Record}
    (h : Obstructed change code rs r rest) :
    Raised change (fun n => ReferencePlace code n ∧ n < recordSize * rs.length) code
      (obstructedBytes change rs r rest) := by
  induction rs generalizing code with
  | nil =>
    rw [h.code_eq]
    exact .none change (by simp) _
  | cons first rs ih =>
    obtain ⟨rfl, hfits, hstays, hmovable, hrefers, hoverflows⟩ := h
    obtain ⟨hfirst, hfits⟩ := List.forall_mem_cons.1 hfits
    obtain ⟨hexit, hstays⟩ := List.forall_mem_cons.1 hstays
    obtain ⟨hmoves, hmovable⟩ := List.forall_mem_cons.1 hmovable
    have hraised := (record hfirst hmoves).append (ih ⟨rfl, hfits, hstays, hmovable, hrefers, hoverflows⟩)
    unfold obstructedBytes at hraised ⊢
    rw [List.map_cons, List.flatMap_cons, List.flatMap_cons, List.append_assoc, List.append_assoc]
    refine hraised.congr fun n => ?_
    rw [referencePlace_bytes_append_iff hfirst, Record.length_bytes, List.length_cons, Nat.mul_succ]
    simp only [hexit, true_and, recordSize]
    constructor
    · intro hplace
      obtain ⟨⟨href, rfl⟩ | ⟨m, hm, rfl⟩, hlt⟩ := hplace
      · exact .inl ⟨href, rfl⟩
      · exact .inr ⟨m, ⟨hm, by omega⟩, rfl⟩
    · intro hplace
      obtain ⟨href, rfl⟩ | ⟨m, ⟨hm, hlt⟩, rfl⟩ := hplace
      · exact ⟨.inl ⟨href, rfl⟩, by omega⟩
      · exact ⟨.inr ⟨m, hm, rfl⟩, by omega⟩

namespace Workspace

variable {change stop : Int} {left code right : List UInt8} {e : Error} {s' : Stream}

/-- What follows a record fails only in the code behind it. -/
theorem moveReferences_of_moveOthers_error {r r' : Record} {count position : Nat}
    (h : moveOthers change stop left.length r count ⟨left ++ (r'.bytes ++ (code ++ right)), position⟩
      = .error e s') :
    r.isExit = false ∧ moveReferences change stop (left ++ r'.bytes).length
      ⟨(left ++ r'.bytes) ++ (code ++ right), position⟩ = .error e s' := by
  have hlength : (left ++ r'.bytes).length = left.length + recordSize := by simp
  unfold moveOthers at h
  split at h
  · cases h
  · next hexit =>
    refine ⟨Bool.eq_false_iff.2 hexit, ?_⟩
    rw [hlength, List.append_assoc]
    rcases Attempt.bind_eq_error.1 h with h | ⟨_, _, -, h⟩
    · exact h
    · cases h

/-- **Moving the references of a segment's code** fails only where one of them would not fit a word any more, and
then those before it have been moved. -/
theorem obstructed_of_moveReferences {position : Nat} (hstop : stop = left.length + code.length)
    (hreach : stop ≤ Stream.lengthLimit)
    (h : moveReferences change stop left.length ⟨left ++ (code ++ right), position⟩ = .error e s') :
    e = .wordOverflow ∧ ∃ rs r rest, Obstructed change code rs r rest ∧
      s'.bytes = left ++ (obstructedBytes change rs r rest ++ right) := by
  induction code using code_induction generalizing left position with
  | short code hshort =>
    rw [moveReferences_of_lt (by omega)] at h
    cases h
  | record r code hr ih =>
    rw [List.length_append, Record.length_bytes] at hstop
    have hnear : (left.length + recordSize : Int) ≤ stop := by omega
    have hoperand : (left.length + 8 : Int) < Stream.offsetLimit := by
      simp only [recordSize, Stream.lengthLimit, Stream.offsetLimit] at hnear hreach ⊢
      omega
    rw [moveReferences_of_le hnear, List.append_assoc, Stream.jump_read_eq hr (by omega)] at h
    -- The record is moved, and it is the code behind it that fails.
    have hbehind : ∀ (moved : Record) (count position : Nat), moved = r.moved change →
        (r.isTextReference = true → Word.Fits (r.operand + change)) →
        moveOthers change stop left.length r count ⟨left ++ (moved.bytes ++ (code ++ right)), position⟩
          = .error e s' →
        e = .wordOverflow ∧ ∃ rs r' rest, Obstructed change (r.bytes ++ code) rs r' rest ∧
          s'.bytes = left ++ (obstructedBytes change rs r' rest ++ right) := by
      rintro _ count position rfl hmovable h
      obtain ⟨hexit, h⟩ := moveReferences_of_moveOthers_error h
      obtain ⟨he, rs, r', rest, hobstructed, hbytes⟩ :=
        ih (by rw [List.length_append, Record.length_bytes]; omega) h
      refine ⟨he, r :: rs, r', rest, hobstructed.cons hr hexit hmovable, ?_⟩
      rw [hbytes, obstructedBytes, obstructedBytes, List.map_cons, List.flatMap_cons]
      simp only [List.append_assoc]
    cases href : r.isTextReference with
    | false =>
      rw [href, if_neg Bool.false_ne_true] at h
      exact hbehind r 0 _ (by simp [Record.moved, href]) (by simp [href]) h
    | true =>
      rw [href, if_pos rfl] at h
      by_cases hfits : Word.Fits (r.operand + change)
      · have hwrite : ∀ position, Stream.writeWordAt (left.length + 8) (r.operand + change)
            ⟨left ++ (r.bytes ++ (code ++ right)), position⟩ = .ok ()
              ⟨left ++ ({ r with operand := r.operand + change }.bytes ++ (code ++ right)), position⟩ :=
          fun _ => writeOperand_eq_ok_iff.2 ⟨hoperand, hfits, rfl⟩
        rw [Attempt.bind_of_ok (hwrite _)] at h
        exact hbehind { r with operand := r.operand + change } 1 _ (by simp [Record.moved, href]) (fun _ => hfits) h
      · rw [Attempt.bind_of_error (Stream.writeWordAt_of_not_fits (by omega) hoperand hfits)] at h
        injection h with he hs
        exact ⟨he.symm, [], r, code, .nil hr href hfits, by rw [← hs, obstructedBytes]; simp⟩

/-! ## Segments -/

variable {w w' : Workspace} {segment : Segment} {p : Piece}

theorem onBytes_eq_error_iff {α : Type} {work : Streaming α} :
    onBytes work w = .error e w' ↔
      ∃ s, work ⟨w.container.bytes, 0⟩ = .error e s ∧
        w' = { w with container := { w.container with bytes := s.bytes } } := by
  unfold onBytes Attempt.within
  dsimp only
  cases work ⟨w.container.bytes, 0⟩ <;> simp [eq_comm, and_assoc]

/-- A segment is left as it is when its own offset does not fit a word after the correction. -/
theorem correctSegment_of_not_fits (hbytes : w.container.bytes = left ++ (p.bytes ++ right))
    (hoffset : segment.offset = left.length) (hreach : segment.offset < Stream.offsetLimit)
    (h : ¬Word.Fits (p.own + change)) :
    correctSegment segment stop change w = .error .wordOverflow w := by
  have hread : Stream.readWordAt segment.offset ⟨w.container.bytes, 0⟩ = .ok p.own ⟨w.container.bytes, 0⟩ := by
    rw [hbytes, Piece.bytes, List.append_assoc]
    exact (Stream.readWordAt_eq_ok_iff p.own_fits hoffset).2 ⟨hreach, rfl, rfl⟩
  unfold correctSegment
  refine Attempt.bind_of_error ?_
  unfold onBytes Attempt.within
  rw [Attempt.bind_of_ok hread, Attempt.bind_of_error (Stream.writeWordAt_of_not_fits (by omega) hreach h)]

/-- **Correcting a segment fails** only where a number would not fit a word any more: its own offset, and then nothing
has changed, or the operand of a text reference, and then the numbers before that have been raised. -/
theorem of_correctSegment_error (hbytes : w.container.bytes = left ++ (p.bytes ++ right))
    (hoffset : segment.offset = left.length) (hstop : stop = left.length + p.size) (hreach : stop ≤ Stream.lengthLimit)
    (h : correctSegment segment stop change w = .error e w') :
    e = .wordOverflow ∧ (¬Word.Fits (p.own + change) ∧ w' = w ∨
      Word.Fits (p.own + change) ∧ ∃ rs r rest, Obstructed change p.code rs r rest ∧
        w'.container = { w.container with
          bytes := left ++ (p.raisedBytes change (obstructedBytes change rs r rest) ++ right) }) := by
  have hcode : ((left.length + segmentHeaderSize : Nat) : Int) < Stream.offsetLimit := by
    simp only [Piece.size, Stream.lengthLimit] at hstop hreach
    simp only [Stream.offsetLimit]
    omega
  by_cases hown : Word.Fits (p.own + change)
  · unfold correctSegment at h
    rcases Attempt.bind_eq_error.1 h with h | ⟨⟨count, unfinished⟩, w₁, -, h⟩
    · obtain ⟨head, hlength, hraised, hcorrection⟩ := correction_eq right 0 stop hoffset hcode hown
      obtain ⟨s, hs, rfl⟩ := onBytes_eq_error_iff.1 h
      rw [hbytes, hcorrection] at hs
      obtain ⟨rfl, rs, r, rest, hobstructed, hs⟩ :=
        obstructed_of_moveReferences (by rw [hlength, hstop, Piece.size]; omega) hreach hs
      rw [← hraised] at hs
      exact ⟨rfl, .inr ⟨hown, rs, r, rest, hobstructed, by rw [← hs]⟩⟩
    · -- What is reported afterwards does not fail.
      cases unfinished <;> cases h
  · rw [correctSegment_of_not_fits hbytes hoffset (by omega) hown] at h
    injection h with he hw
    exact ⟨he.symm, .inl ⟨hown, hw.symm⟩⟩

end Workspace
end Storyboard
