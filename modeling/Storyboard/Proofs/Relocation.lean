/-
What moving a segment does to its records.

`scan` cuts the code of a segment into the records up to the first one that leaves the script and the
bytes behind them, and `moveCode` moves the text references among these records. `Workspace.moveReferences`
does just that in the midst of other bytes, and succeeds exactly when the moved operands fit their words
(`Workspace.leaves_moveReferences_iff`).
-/
import Storyboard.Proofs.Writing

namespace Storyboard

namespace Record

/-- The record after the texts have moved by `change`. -/
def moved (change : Int) (r : Record) : Record :=
  if r.isTextReference then { r with operand := r.operand + change } else r

@[simp] theorem isExit_moved (change : Int) (r : Record) : (r.moved change).isExit = r.isExit := by
  unfold moved
  split <;> rfl

theorem moved_zero (r : Record) : r.moved 0 = r := by
  unfold moved
  split
  · rw [Int.add_zero]
  · rfl

theorem map_moved_zero (rs : List Record) : rs.map (moved 0) = rs := List.map_id'' moved_zero rs

/-- The record that is read where a record has been written. -/
def wrapped (r : Record) : Record := { r with operand := Word.wrap r.operand }

theorem wrapped_of_fits {r : Record} (h : r.Fits) : r.wrapped = r := by
  rw [wrapped, Word.wrap_of_fits h.2.2]

theorem bytes_wrapped (r : Record) : r.wrapped.bytes = r.bytes := by
  simp only [bytes, wrapped, Word.toBytes_wrap]

theorem fits_wrapped_moved {r : Record} (h : r.Fits) (change : Int) : (r.moved change).wrapped.Fits := by
  unfold moved
  split
  · exact ⟨h.1, h.2.1, Word.fits_wrap _⟩
  · exact ⟨h.1, h.2.1, Word.fits_wrap _⟩

/-- Moving a record by one amount and then by another moves it by both. -/
theorem bytes_moved_moved (a b : Int) (r : Record) :
    ((r.moved a).wrapped.moved b).bytes = (r.moved (a + b)).bytes := by
  cases href : r.isTextReference with
  | false =>
    have hmoved : ∀ change, r.moved change = r := fun change => by simp [moved, href]
    have hstays : r.wrapped.moved b = r.wrapped := by
      have : r.wrapped.isTextReference = false := href
      simp [moved, this]
    rw [hmoved, hmoved, hstays, bytes_wrapped]
  | true =>
    have hmoved : ∀ change, r.moved change = { r with operand := r.operand + change } :=
      fun change => by simp [moved, href]
    have hagain : (r.moved a).wrapped.moved b = { r with operand := Word.wrap (r.operand + a) + b } := by
      have : ({ r with operand := Word.wrap (r.operand + a) } : Record).isTextReference = true := href
      rw [hmoved]
      simp [wrapped, moved, this]
    rw [hagain, hmoved, ← bytes_wrapped, ← bytes_wrapped { r with operand := r.operand + (a + b) }]
    simp only [wrapped, Word.wrap_wrap_add, Int.add_assoc]

/-- A record is where its bytes are. -/
theorem exists_bytes {code : List UInt8} (h : recordSize ≤ code.length) :
    ∃ (r : Record) (rest : List UInt8), r.Fits ∧ code = r.bytes ++ rest := by
  simp only [recordSize] at h
  obtain ⟨operation, rest, ho, rfl⟩ := Word.exists_toBytes (show 4 ≤ code.length by omega)
  simp only [List.length_append, Word.length_toBytes] at h
  obtain ⟨variant, rest, hv, rfl⟩ := Word.exists_toBytes (show 4 ≤ rest.length by omega)
  simp only [List.length_append, Word.length_toBytes] at h
  obtain ⟨operand, rest, hp, rfl⟩ := Word.exists_toBytes (show 4 ≤ rest.length by omega)
  exact ⟨⟨operation, variant, operand⟩, rest, ⟨ho, hv, hp⟩, by simp [bytes]⟩

end Record

/-! ## Scanning -/

/-- The records that are looked at when a segment moves, up to the first one that leaves the script, and
the bytes behind them. -/
def scan : List UInt8 → List Record × List UInt8
  | a₀ :: a₁ :: a₂ :: a₃ :: b₀ :: b₁ :: b₂ :: b₃ :: c₀ :: c₁ :: c₂ :: c₃ :: code =>
    let r : Record := ⟨Word.ofBytes a₀ a₁ a₂ a₃, Word.ofBytes b₀ b₁ b₂ b₃, Word.ofBytes c₀ c₁ c₂ c₃⟩
    if r.isExit then ([r], code) else (r :: (scan code).1, (scan code).2)
  | short => ([], short)

theorem scan_of_short {code : List UInt8} (h : code.length < recordSize) : scan code = ([], code) := by
  unfold scan
  split
  · simp only [List.length_cons, recordSize] at h
    omega
  · rfl

theorem scan_bytes_append {r : Record} (h : r.Fits) (code : List UInt8) :
    scan (r.bytes ++ code) =
      if r.isExit then ([r], code) else (r :: (scan code).1, (scan code).2) := by
  obtain ⟨ho, hv, hp⟩ := h
  simp only [Record.bytes, Word.toBytes, List.cons_append, List.nil_append, scan, Word.ofBytes_toBytes,
    Word.wrap_of_fits ho, Word.wrap_of_fits hv, Word.wrap_of_fits hp]

/-- Code is shorter than a record, or a record and more code. -/
theorem code_induction {P : List UInt8 → Prop} (short : ∀ code, code.length < recordSize → P code)
    (record : ∀ (r : Record) code, r.Fits → P code → P (r.bytes ++ code)) (code : List UInt8) :
    P code := by
  induction hn : code.length using Nat.strongRecOn generalizing code with
  | ind n ih =>
    by_cases h : code.length < recordSize
    · exact short code h
    · obtain ⟨r, rest, hr, rfl⟩ := Record.exists_bytes (Nat.le_of_not_lt h)
      refine record r rest hr (ih rest.length ?_ rest rfl)
      simp only [List.length_append, Record.length_bytes, recordSize] at hn
      omega

/-- Scanning keeps all bytes. -/
theorem flatMap_bytes_scan (code : List UInt8) :
    (scan code).1.flatMap Record.bytes ++ (scan code).2 = code := by
  induction code using code_induction with
  | short code h => simp [scan_of_short h]
  | record r code hr ih =>
    rw [scan_bytes_append hr]
    split
    · simp
    · rw [List.flatMap_cons, List.append_assoc, ih]

theorem fits_of_mem_scan {code : List UInt8} {r : Record} (h : r ∈ (scan code).1) : r.Fits := by
  induction code using code_induction with
  | short code hshort => simp [scan_of_short hshort] at h
  | record r' code hr ih =>
    rw [scan_bytes_append hr] at h
    split at h
    · rw [List.mem_singleton.1 h]
      exact hr
    · rcases List.mem_cons.1 h with rfl | h
      · exact hr
      · exact ih h

/-- Records of which only the last leaves the script are scanned as a whole. -/
theorem scan_records {rs : List Record} {last : Record} (hfits : ∀ r ∈ rs ++ [last], r.Fits)
    (hrs : ∀ r ∈ rs, r.isExit = false) (hlast : last.isExit = true) (rest : List UInt8) :
    scan ((rs ++ [last]).flatMap Record.bytes ++ rest) = (rs ++ [last], rest) := by
  induction rs with
  | nil =>
    have h := hfits last (by simp)
    simp [scan_bytes_append h, hlast]
  | cons r rs ih =>
    obtain ⟨hr, hrest⟩ := List.forall_mem_cons.1 hrs
    obtain ⟨hf, hfs⟩ := List.forall_mem_cons.1 hfits
    rw [List.cons_append, List.flatMap_cons, List.append_assoc, scan_bytes_append hf, ih hfs hrest]
    simp [hr]

/-- The code of a segment after its texts have moved. -/
def moveCode (change : Int) (code : List UInt8) : List UInt8 :=
  ((scan code).1.map (Record.moved change)).flatMap Record.bytes ++ (scan code).2

theorem moveCode_of_short {change : Int} {code : List UInt8} (h : code.length < recordSize) :
    moveCode change code = code := by
  simp [moveCode, scan_of_short h]

theorem moveCode_bytes_append {change : Int} {r : Record} (h : r.Fits) (code : List UInt8) :
    moveCode change (r.bytes ++ code)
      = (r.moved change).bytes ++ if r.isExit then code else moveCode change code := by
  rw [moveCode, scan_bytes_append h]
  cases r.isExit <;> simp [moveCode]

/-- Code that has moved is scanned as far as it was before. -/
theorem scan_moveCode (change : Int) (code : List UInt8) :
    scan (moveCode change code)
      = ((scan code).1.map fun r => (r.moved change).wrapped, (scan code).2) := by
  induction code using code_induction with
  | short code h => simp [moveCode_of_short h, scan_of_short h]
  | record r code hr ih =>
    have hexit : (r.moved change).wrapped.isExit = r.isExit := r.isExit_moved change
    rw [moveCode_bytes_append hr, ← Record.bytes_wrapped,
      scan_bytes_append (Record.fits_wrapped_moved hr change), hexit, scan_bytes_append hr]
    cases r.isExit with
    | true => simp
    | false => simp [ih]

/-- **Moving code by one amount and then by another** moves it by both. -/
theorem moveCode_moveCode (a b : Int) (code : List UInt8) :
    moveCode b (moveCode a code) = moveCode (a + b) code := by
  rw [moveCode, scan_moveCode, moveCode, List.map_map, List.flatMap_map, List.flatMap_map]
  congr 2
  funext r
  exact Record.bytes_moved_moved a b r

theorem moveCode_zero (code : List UInt8) : moveCode 0 code = code := by
  rw [moveCode, Record.map_moved_zero, flatMap_bytes_scan]

@[simp] theorem length_moveCode (change : Int) (code : List UInt8) :
    (moveCode change code).length = code.length := by
  have h := congrArg List.length (flatMap_bytes_scan code)
  simp only [List.length_append, Record.length_flatMap_bytes] at h
  simp only [moveCode, List.length_append, Record.length_flatMap_bytes, List.length_map, h]

/-- The references among records that stand from `position` on can be moved: each is within reach, and
its operand fits a word afterwards. -/
def Movable (change : Int) : (position : Nat) → List Record → Prop
  | _, [] => True
  | position, r :: rs =>
    (position : Int) < Stream.offsetLimit ∧
      (r.isTextReference = true →
        (position + 8 : Int) < Stream.offsetLimit ∧ Word.Fits (r.operand + change)) ∧
      Movable change (position + recordSize) rs

instance Movable.decidable (change : Int) : (position : Nat) → (rs : List Record) →
    Decidable (Movable change position rs)
  | _, [] => isTrue trivial
  | position, _ :: rs =>
    have := Movable.decidable change (position + recordSize) rs
    inferInstanceAs (Decidable (_ ∧ _ ∧ _))

theorem Movable.fits {change : Int} {position : Nat} {rs : List Record} (h : Movable change position rs) :
    ∀ r ∈ rs, r.isTextReference = true → Word.Fits (r.operand + change) := by
  induction rs generalizing position with
  | nil => simp
  | cons r rs ih =>
    obtain ⟨-, hr, hrs⟩ := h
    exact List.forall_mem_cons.2 ⟨fun href => (hr href).2, ih hrs⟩

/-- References can be moved where the records are within reach and the moved operands fit. -/
theorem movable_of_fits {change : Int} {position : Nat} {rs : List Record}
    (hreach : position + recordSize * rs.length ≤ Stream.lengthLimit)
    (hfits : ∀ r ∈ rs.map (Record.moved change), r.Fits) : Movable change position rs := by
  induction rs generalizing position with
  | nil => trivial
  | cons r rs ih =>
    obtain ⟨hr, hrs⟩ := List.forall_mem_cons.1 hfits
    simp only [List.length_cons, recordSize, Stream.lengthLimit] at hreach
    refine ⟨by simp only [Stream.offsetLimit]; omega, fun href => ?_, ih ?_ hrs⟩
    · have hoperand : (r.moved change).operand = r.operand + change := by simp [Record.moved, href]
      rw [← hoperand]
      exact ⟨by simp only [Stream.offsetLimit]; omega, hr.2.2⟩
    · simp only [recordSize, Stream.lengthLimit]
      omega

namespace Workspace

/-- What follows once the reference of a record, if it is one, has been moved. -/
def moveOthers (change stop : Int) (position : Nat) (record : Record) (moved : Nat) :
    Streaming (Nat × Option Nat) :=
  if record.isExit then pure (moved, none)
  else moveReferences change stop (position + recordSize) >>= fun found =>
    pure (moved + found.1, found.2)

theorem moveReferences_of_le {change stop : Int} {position : Nat}
    (h : (position + recordSize : Int) ≤ stop) :
    moveReferences change stop position =
      Stream.jump position >>= fun _ => Record.read >>= fun record =>
        if record.isTextReference then
          Stream.writeWordAt (position + 8) (record.operand + change) >>= fun _ =>
            moveOthers change stop position record 1
        else moveOthers change stop position record 0 := by
  rw [moveReferences, dif_pos h]
  rfl

theorem moveReferences_of_lt {change stop : Int} {position : Nat}
    (h : stop < (position + recordSize : Int)) :
    moveReferences change stop position = pure (0, some position) := by
  rw [moveReferences, dif_neg (by omega)]

/-- The operand is the last word of a record. -/
theorem writeOperand_eq_ok_iff {left right : List UInt8} {position : Nat} {v : Int} {r : Record}
    {u : Unit} {s' : Stream} :
    Stream.writeWordAt (left.length + 8) v ⟨left ++ (r.bytes ++ right), position⟩ = .ok u s' ↔
      (left.length + 8 : Int) < Stream.offsetLimit ∧ Word.Fits v ∧
        s' = ⟨left ++ ({ r with operand := v }.bytes ++ right), position⟩ := by
  have hsplit : ∀ w, left ++ ({ r with operand := w }.bytes ++ right)
      = (left ++ (Word.toBytes r.operation ++ Word.toBytes r.variant)) ++ (Word.toBytes w ++ right) := by
    simp [Record.bytes]
  rw [hsplit r.operand, hsplit v]
  refine Stream.writeWordAt_eq_ok_iff (Word.length_toBytes _) ?_
  simp only [List.length_append, Word.length_toBytes]
  omega

/-- The code behind a record is moved unless that leaves the script. -/
theorem leaves_moveOthers_iff {change stop : Int} {left code right bytes : List UInt8}
    {position count : Nat} {r r' : Record}
    (ih : ∀ {left bytes : List UInt8} {position : Nat}, stop = left.length + code.length →
      (Stream.Leaves (moveReferences change stop left.length) ⟨left ++ (code ++ right), position⟩ bytes ↔
        Movable change left.length (scan code).1 ∧ bytes = left ++ (moveCode change code ++ right)))
    (hstop : stop = left.length + recordSize + code.length) :
    Stream.Leaves (moveOthers change stop left.length r count)
        ⟨left ++ (r'.bytes ++ (code ++ right)), position⟩ bytes ↔
      (r.isExit = false → Movable change (left.length + recordSize) (scan code).1) ∧
        bytes = left ++ (r'.bytes ++ ((if r.isExit then code else moveCode change code) ++ right)) := by
  have hlength : (left ++ r'.bytes).length = left.length + recordSize := by simp
  have hih := @ih (left ++ r'.bytes) bytes position (by rw [hlength, hstop]; rfl)
  rw [hlength] at hih
  simp only [List.append_assoc] at hih
  unfold moveOthers
  cases hexit : r.isExit with
  | true =>
    simp only [if_true]
    rw [Stream.leaves_pure_iff]
    simp
  | false =>
    simp only [Bool.false_eq_true, if_false, forall_const]
    exact Stream.leaves_bind_pure_iff.trans hih

/-- **Moving the references of a segment's code** moves those of the scanned records, and works exactly
when they can be moved. -/
theorem leaves_moveReferences_iff {change stop : Int} {left code right bytes : List UInt8}
    {position : Nat} (hstop : stop = left.length + code.length) :
    Stream.Leaves (moveReferences change stop left.length) ⟨left ++ (code ++ right), position⟩ bytes ↔
      Movable change left.length (scan code).1 ∧ bytes = left ++ (moveCode change code ++ right) := by
  induction code using code_induction generalizing left position bytes with
  | short code h =>
    rw [moveReferences_of_lt (by omega), Stream.leaves_pure_iff]
    simp [scan_of_short h, moveCode, Movable]
  | record r code hr ih =>
    have hothers : ∀ {count position : Nat} {r' : Record}, _ :=
      fun {count position r'} => @leaves_moveOthers_iff change stop left code right bytes position count
        r r' ih (by rw [hstop, List.length_append, Record.length_bytes]; omega)
    have hle : (left.length + recordSize : Int) ≤ stop := by
      rw [hstop, List.length_append, Record.length_bytes]
      omega
    have hmovable : Movable change left.length (scan (r.bytes ++ code)).1 ↔
        (left.length : Int) < Stream.offsetLimit ∧
          (r.isTextReference = true →
            (left.length + 8 : Int) < Stream.offsetLimit ∧ Word.Fits (r.operand + change)) ∧
          (r.isExit = false → Movable change (left.length + recordSize) (scan code).1) := by
      rw [scan_bytes_append hr]
      cases r.isExit <;> simp [Movable]
    rw [moveReferences_of_le hle, List.append_assoc, Stream.leaves_read_iff hr, hmovable,
      moveCode_bytes_append hr, List.append_assoc, and_assoc, and_congr_right_iff]
    intro _
    cases href : r.isTextReference with
    | false =>
      have hmoved : r.moved change = r := by simp [Record.moved, href]
      simp only [Bool.false_eq_true, if_false, false_implies, true_and, hmoved]
      exact hothers
    | true =>
      have hmoved : r.moved change = { r with operand := r.operand + change } := by
        simp [Record.moved, href]
      simp only [if_true, forall_const, hmoved]
      constructor
      · rintro ⟨a, p, h⟩
        obtain ⟨_, _, hwrite, h⟩ := Attempt.bind_eq_ok.1 h
        obtain ⟨hlt, hfits, rfl⟩ := writeOperand_eq_ok_iff.1 hwrite
        obtain ⟨hmovable, hbytes⟩ := hothers.1 ⟨a, p, h⟩
        exact ⟨⟨⟨hlt, hfits⟩, hmovable⟩, hbytes⟩
      · rintro ⟨⟨⟨hlt, hfits⟩, hmovable⟩, hbytes⟩
        obtain ⟨a, p, h⟩ := hothers.2 ⟨hmovable, hbytes⟩
        exact ⟨a, p, Attempt.bind_eq_ok.2 ⟨(), _, writeOperand_eq_ok_iff.2 ⟨hlt, hfits, rfl⟩, h⟩⟩

end Workspace
end Storyboard
