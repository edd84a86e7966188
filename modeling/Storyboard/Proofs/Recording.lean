/-
Records as bytes, in both directions.

Records that are written one after another give their bytes, twelve to a record, and reading up to the end of these
bytes gives the records. So whatever fits can be written and read back, and whatever is a whole number of records can
be read and written back (`Record.readAll_writeAll`).
-/
import Storyboard.Proofs.Relocation

namespace Storyboard

namespace Record

variable {left right : List UInt8} {s s' : Stream} {r : Record} {rs : List Record} {u : Unit}

/-! ## Writing -/

/-- A record whose numbers fit is written behind what was written before. -/
theorem write_append_iff :
    write r ⟨left ++ right, left.length⟩ = .ok u s' ↔
      r.Fits ∧ s' = ⟨(left ++ r.bytes) ++ right.drop recordSize, (left ++ r.bytes).length⟩ := by
  have hdrop : ((right.drop 4).drop 4).drop 4 = right.drop recordSize := by simp only [List.drop_drop, recordSize]
  have hbytes : ((left ++ Word.toBytes r.operation) ++ Word.toBytes r.variant) ++ Word.toBytes r.operand
      = left ++ r.bytes := by simp only [bytes, List.append_assoc]
  unfold write
  rw [← hdrop, ← hbytes, Attempt.bind_eq_ok]
  simp only [Stream.writeWord_append_iff, Attempt.bind_eq_ok]
  constructor
  · intro h
    obtain ⟨_, _, ⟨ho, rfl⟩, _, _, hvariant, hoperand⟩ := h
    obtain ⟨hv, rfl⟩ := Stream.writeWord_append_iff.1 hvariant
    obtain ⟨hp, rfl⟩ := Stream.writeWord_append_iff.1 hoperand
    exact ⟨⟨ho, hv, hp⟩, rfl⟩
  · intro h
    obtain ⟨⟨ho, hv, hp⟩, rfl⟩ := h
    exact ⟨(), _, ⟨ho, rfl⟩, (), _, Stream.writeWord_append_iff.2 ⟨hv, rfl⟩, Stream.writeWord_append_iff.2 ⟨hp, rfl⟩⟩

/-- **Records are written one behind another**, if the numbers of each fit. -/
theorem writeAll_append_iff :
    writeAll rs ⟨left ++ right, left.length⟩ = .ok u s' ↔
      (∀ r ∈ rs, r.Fits) ∧
        s' = ⟨(left ++ rs.flatMap bytes) ++ right.drop (recordSize * rs.length),
          (left ++ rs.flatMap bytes).length⟩ := by
  induction rs generalizing left right with
  | nil =>
    show EStateM.Result.ok () _ = _ ↔ _
    simp [eq_comm]
  | cons r rs ih =>
    have hdrop : (right.drop recordSize).drop (recordSize * rs.length) = right.drop (recordSize * (r :: rs).length) := by
      rw [List.drop_drop, List.length_cons, Nat.mul_succ, Nat.add_comm]
    have hbytes : (left ++ r.bytes) ++ rs.flatMap bytes = left ++ (r :: rs).flatMap bytes := by
      rw [List.flatMap_cons, List.append_assoc]
    show (write r >>= fun _ => writeAll rs) _ = _ ↔ _
    rw [Attempt.bind_eq_ok, List.forall_mem_cons, ← hdrop, ← hbytes]
    simp only [write_append_iff]
    constructor
    · intro h
      obtain ⟨_, _, ⟨hr, rfl⟩, hrest⟩ := h
      obtain ⟨hrs, rfl⟩ := ih.1 hrest
      exact ⟨⟨hr, hrs⟩, rfl⟩
    · intro h
      obtain ⟨⟨hr, hrs⟩, rfl⟩ := h
      exact ⟨(), _, ⟨hr, rfl⟩, ih.2 ⟨hrs, rfl⟩⟩

/-! ## Reading -/

/-- Behind a record is what stands behind its bytes. -/
theorem rest_behind {behind : List UInt8} (h : r.bytes ++ behind = s.rest) :
    Stream.rest { s with position := s.position + recordSize } = behind := by
  show s.bytes.drop (s.position + recordSize) = behind
  rw [← List.drop_drop, ← Stream.rest, ← h, ← length_bytes r, List.drop_left]

/-- What is read up to the end are records that fit, with the bytes that were left. -/
theorem of_readAll (h : readAll s = .ok rs s') :
    (∀ r ∈ rs, r.Fits) ∧ rs.flatMap bytes = s.rest ∧
      s' = { s with position := s.position + recordSize * rs.length } := by
  fun_induction readAll s generalizing rs s' with
  | case1 s hend =>
    injection h with hrs hs
    subst hrs hs
    have hrest : s.rest = [] := List.drop_eq_nil_iff.2 hend
    simp [hrest]
  | case2 | case4 => contradiction
  | case3 s _ r next hread rs s' hrest ih =>
    injection h with hrs hs
    subst hrs hs
    obtain ⟨hr, ⟨behind, hbehind⟩, rfl⟩ := read_eq_ok_iff.1 hread
    obtain ⟨hfits, hbytes, rfl⟩ := ih hrest
    refine ⟨List.forall_mem_cons.2 ⟨hr, hfits⟩, ?_, ?_⟩
    · rw [List.flatMap_cons, hbytes, rest_behind hbehind, hbehind]
    · simp only [List.length_cons, Nat.mul_succ, Nat.add_assoc, Nat.add_comm recordSize]

/-- Where the bytes of records are all that is left, these records are read. -/
theorem readAll_of_flatMap (hfits : ∀ r ∈ rs, r.Fits) (h : rs.flatMap bytes = s.rest) :
    readAll s = .ok rs { s with position := s.position + recordSize * rs.length } := by
  induction rs generalizing s with
  | nil =>
    have hend : s.bytes.length ≤ s.position := List.drop_eq_nil_iff.1 h.symm
    rw [readAll, if_pos hend]
    rfl
  | cons r rs ih =>
    obtain ⟨hr, hrs⟩ := List.forall_mem_cons.1 hfits
    rw [List.flatMap_cons] at h
    have hread := read_eq_ok_iff.2 ⟨hr, ⟨_, h⟩, rfl⟩
    have hend : ¬s.bytes.length ≤ s.position := by
      have := (read_eq_ok hread).2
      simp only [recordSize] at this
      omega
    rw [readAll, if_neg hend]
    split
    · next hfail =>
      rw [hread] at hfail
      contradiction
    · next r' next hread' =>
      rw [hread] at hread'
      injection hread' with hr' hnext
      subst hr' hnext
      rw [ih hrs (rest_behind h).symm]
      simp only [List.length_cons, Nat.mul_succ, Nat.add_assoc, Nat.add_comm recordSize]

/-! ## In both directions -/

/-- Bytes that are a whole number of records are those of records. -/
theorem exists_flatMap_bytes {code : List UInt8} (h : recordSize ∣ code.length) :
    ∃ rs : List Record, (∀ r ∈ rs, r.Fits) ∧ code = rs.flatMap bytes := by
  induction code using code_induction with
  | short code hshort =>
    have hnil : code = [] := List.eq_nil_of_length_eq_zero (Nat.eq_zero_of_dvd_of_lt h hshort)
    exact ⟨[], by simp, hnil⟩
  | record r code hr ih =>
    rw [List.length_append, length_bytes, Nat.dvd_add_right (Nat.dvd_refl recordSize)] at h
    obtain ⟨rs, hrs, rfl⟩ := ih h
    exact ⟨r :: rs, List.forall_mem_cons.2 ⟨hr, hrs⟩, rfl⟩

/-- **Records are a code in both directions.** Records whose numbers fit, and no others, are written as their bytes
and read again from these up to the end. Bytes that are a whole number of records, and no others, are read up to the
end as records that fit, and these are written as the same bytes. -/
theorem readAll_writeAll :
    (∀ rs : List Record, (∀ r ∈ rs, r.Fits) ↔ ∃ bytes,
        writeAll rs ⟨[], 0⟩ = .ok () ⟨bytes, bytes.length⟩ ∧ readAll ⟨bytes, 0⟩ = .ok rs ⟨bytes, bytes.length⟩) ∧
      ∀ bytes : List UInt8, recordSize ∣ bytes.length ↔ ∃ rs,
        readAll ⟨bytes, 0⟩ = .ok rs ⟨bytes, bytes.length⟩ ∧ writeAll rs ⟨[], 0⟩ = .ok () ⟨bytes, bytes.length⟩ := by
  have hboth : ∀ {rs : List Record}, (∀ r ∈ rs, r.Fits) →
      writeAll rs ⟨[], 0⟩ = .ok () ⟨rs.flatMap bytes, (rs.flatMap bytes).length⟩ ∧
        readAll ⟨rs.flatMap bytes, 0⟩ = .ok rs ⟨rs.flatMap bytes, (rs.flatMap bytes).length⟩ := by
    intro rs hfits
    have hwrite : writeAll rs ⟨[] ++ [], 0⟩ = .ok () _ := writeAll_append_iff.2 ⟨hfits, rfl⟩
    refine ⟨by simpa using hwrite, ?_⟩
    rw [readAll_of_flatMap hfits rfl]
    simp only [length_flatMap_bytes, Nat.zero_add]
  refine ⟨fun rs => ⟨fun hfits => ⟨_, hboth hfits⟩, fun h => ?_⟩, fun bytes => ⟨fun h => ?_, fun h => ?_⟩⟩
  · obtain ⟨bytes, -, hread⟩ := h
    exact (of_readAll hread).1
  · obtain ⟨rs, hfits, rfl⟩ := exists_flatMap_bytes h
    exact ⟨rs, (hboth hfits).symm⟩
  · obtain ⟨rs, hread, -⟩ := h
    obtain ⟨-, hbytes, -⟩ := of_readAll hread
    rw [← show rs.flatMap Record.bytes = bytes from hbytes, length_flatMap_bytes]
    exact Nat.dvd_mul_right _ _

/-- Words are written least significant byte first, and negative numbers in two's complement. -/
example : writeAll [⟨0x15, -2, -0x80000000⟩] ⟨[], 0⟩
    = .ok () ⟨[0x15, 0, 0, 0, 0xFE, 0xFF, 0xFF, 0xFF, 0, 0, 0, 0x80], 12⟩ := rfl

end Record
end Storyboard
