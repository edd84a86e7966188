/-
What injecting does to each byte of a container.

`Raised` compares bytes before and after: the words at some places have grown by one amount, and no other
byte has changed. Moved code, pieces and table entries are raised at their text references, own offsets and
offsets, so that `Workspace.bytes_of_inject` tells all bytes that injecting leaves.
-/
import Storyboard.Proofs.Loading

namespace Storyboard

/-- A word stands at a position. -/
def Word.StandsAt (bytes : List UInt8) (position : Nat) (v : Int) : Prop :=
  Word.Fits v ∧ Word.toBytes v <+: bytes.drop position

/-- The words at some places are greater by `change` in `new` than in `old`, and no other byte differs. -/
structure Raised (change : Int) (places : Nat → Prop) (old new : List UInt8) : Prop where
  length : new.length = old.length
  words : ∀ n, places n → ∃ v, Word.StandsAt old n v ∧ Word.StandsAt new n (v + change)
  others : ∀ n, (∀ place, places place → ¬(place ≤ n ∧ n < place + 4)) → new[n]? = old[n]?

/-! ## Words and bytes in context -/

theorem Word.StandsAt.append {bytes : List UInt8} {n : Nat} {v : Int} (h : StandsAt bytes n v)
    (rest : List UInt8) : StandsAt (bytes ++ rest) n v := by
  refine ⟨h.1, h.2.trans ?_⟩
  rw [List.drop_append]
  exact List.prefix_append _ _

theorem Word.StandsAt.behind {bytes : List UInt8} {n : Nat} {v : Int} (h : StandsAt bytes n v)
    (front : List UInt8) : StandsAt (front ++ bytes) (front.length + n) v := by
  refine ⟨h.1, ?_⟩
  rw [← List.drop_drop, List.drop_left]
  exact h.2

namespace Raised

variable {change : Int} {places places' : Nat → Prop} {old new old' new' : List UInt8}

/-- Where there is no place, nothing changes. -/
theorem none (change : Int) {places : Nat → Prop} (h : ∀ n, ¬places n) (bytes : List UInt8) :
    Raised change places bytes bytes :=
  ⟨rfl, fun n hn => absurd hn (h n), fun _ _ => rfl⟩

theorem congr (h : Raised change places old new) (hplaces : ∀ n, places' n ↔ places n) :
    Raised change places' old new := by
  obtain rfl : places' = places := funext fun n => propext (hplaces n)
  exact h

/-- One word. -/
theorem word {v : Int} (hv : Word.Fits v) (hraised : Word.Fits (v + change)) :
    Raised change (· = 0) (Word.toBytes v) (Word.toBytes (v + change)) := by
  refine ⟨rfl, ?_, ?_⟩
  · intro n hn
    subst hn
    exact ⟨v, ⟨hv, List.prefix_rfl⟩, hraised, List.prefix_rfl⟩
  · intro n hn
    have hlength := hn 0 rfl
    rw [List.getElem?_eq_none (by rw [Word.length_toBytes]; omega),
      List.getElem?_eq_none (by rw [Word.length_toBytes]; omega)]

/-- Some bytes and those behind them. -/
theorem append (h : Raised change places old new) (h' : Raised change places' old' new') :
    Raised change (fun n => places n ∨ ∃ m, places' m ∧ n = old.length + m) (old ++ old') (new ++ new') := by
  refine ⟨?_, ?_, ?_⟩
  · rw [List.length_append, List.length_append, h.length, h'.length]
  · intro n hn
    rcases hn with hn | ⟨m, hm, rfl⟩
    · obtain ⟨v, hold, hnew⟩ := h.words n hn
      exact ⟨v, hold.append old', hnew.append new'⟩
    · obtain ⟨v, hold, hnew⟩ := h'.words m hm
      have hbehind := hnew.behind new
      rw [h.length] at hbehind
      exact ⟨v, hold.behind old, hbehind⟩
  · intro n hn
    by_cases hlt : n < old.length
    · rw [List.getElem?_append_left hlt, List.getElem?_append_left (by rw [h.length]; exact hlt)]
      exact h.others n fun place hplace => hn place (.inl hplace)
    · rw [List.getElem?_append_right (Nat.le_of_not_lt hlt),
        List.getElem?_append_right (by rw [h.length]; exact Nat.le_of_not_lt hlt), h.length]
      refine h'.others _ ?_
      intro place hplace hwithin
      exact hn (old.length + place) (.inr ⟨place, hplace, rfl⟩) (by omega)

/-- Bytes in the midst of others that stay. -/
theorem between (h : Raised change places old new) (left right : List UInt8) :
    Raised change (fun n => ∃ m, places m ∧ n = left.length + m) (left ++ (old ++ right))
      (left ++ (new ++ right)) := by
  have hstays : ∀ bytes, Raised change (fun _ => False) bytes bytes := .none change fun _ => id
  exact ((hstays left).append (h.append (hstays right))).congr (by simp)

end Raised

/-! ## Code -/

/-- What stands from a record on is that record and what stands behind it. -/
theorem Record.standAt_bytes_append_iff {r r' : Record} (hr : r.Fits) {code : List UInt8} {rs : List Record} :
    StandAt (r.bytes ++ code) 0 (r' :: rs) ↔ r' = r ∧ StandAt code 0 rs := by
  have hfirst : StandAt (r.bytes ++ code) 0 [r] :=
    ⟨by simpa using hr, by simp⟩
  have hbehind : StandAt (r.bytes ++ code) (0 + recordSize) rs ↔ StandAt code 0 rs := by
    rw [Nat.zero_add, ← r.length_bytes]
    simp only [StandAt, List.drop_left, List.drop_zero]
  rw [standAt_cons_iff, hbehind]
  refine and_congr_left fun _ => ?_
  constructor
  · intro h
    exact h.unique hfirst
  · rintro rfl
    exact hfirst

/-- The record behind `rs` is a text reference that is looked at when the code moves: it is within the code,
and no record before it leaves the script. -/
structure Record.ReferenceAfter (code : List UInt8) (rs : List Record) (r : Record) : Prop where
  stand : StandAt code 0 (rs ++ [r])
  stays : ∀ r' ∈ rs, r'.isExit = false
  refers : r.isTextReference = true

/-- Where the operands of the text references stand. -/
def ReferencePlace (code : List UInt8) (n : Nat) : Prop :=
  ∃ rs r, Record.ReferenceAfter code rs r ∧ n = recordSize * rs.length + 8

theorem not_referencePlace_of_short {code : List UInt8} (h : code.length < recordSize) (n : Nat) :
    ¬ReferencePlace code n := by
  intro hplace
  obtain ⟨rs, r, hreference, -⟩ := hplace
  have hlength := hreference.stand.2.length_le
  rw [Record.length_flatMap_bytes, List.length_append, List.length_singleton, List.drop_zero] at hlength
  simp only [recordSize] at h hlength
  omega

/-- The references of code are that of its first record and, unless that leaves the script, those behind. -/
theorem referencePlace_bytes_append_iff {r : Record} (hr : r.Fits) {code : List UInt8} {n : Nat} :
    ReferencePlace (r.bytes ++ code) n ↔
      r.isTextReference = true ∧ n = 8 ∨
        r.isExit = false ∧ ∃ m, ReferencePlace code m ∧ n = recordSize + m := by
  constructor
  · intro hplace
    obtain ⟨rs, r', ⟨hstand, hstays, hrefers⟩, rfl⟩ := hplace
    cases rs with
    | nil =>
      obtain ⟨rfl, -⟩ := (Record.standAt_bytes_append_iff hr).1 hstand
      exact .inl ⟨hrefers, rfl⟩
    | cons first rs =>
      obtain ⟨rfl, hrest⟩ := (Record.standAt_bytes_append_iff hr).1 hstand
      obtain ⟨hfirst, hstays⟩ := List.forall_mem_cons.1 hstays
      refine .inr ⟨hfirst, _, ⟨rs, r', ⟨hrest, hstays, hrefers⟩, rfl⟩, ?_⟩
      rw [List.length_cons, Nat.mul_succ]
      omega
  · intro hplace
    rcases hplace with ⟨hrefers, rfl⟩ | ⟨hfirst, _, ⟨rs, r', ⟨hstand, hstays, hrefers⟩, rfl⟩, rfl⟩
    · have hfirst := (Record.standAt_bytes_append_iff hr).2 ⟨rfl, Record.standAt_nil code 0⟩
      exact ⟨[], r, ⟨hfirst, by simp, hrefers⟩, rfl⟩
    · refine ⟨r :: rs, r', ⟨(Record.standAt_bytes_append_iff hr).2 ⟨rfl, hstand⟩,
        List.forall_mem_cons.2 ⟨hfirst, hstays⟩, hrefers⟩, ?_⟩
      rw [List.length_cons, Nat.mul_succ]
      omega

namespace Raised

variable {change : Int}

/-- A record that moves is raised at its operand if that says where a text is. -/
theorem record {r : Record} (hr : r.Fits) (hfits : r.isTextReference = true → Word.Fits (r.operand + change)) :
    Raised change (fun n => r.isTextReference = true ∧ n = 8) r.bytes (r.moved change).bytes := by
  cases href : r.isTextReference with
  | false =>
    have hmoved : r.moved change = r := by simp [Record.moved, href]
    rw [hmoved]
    exact .none change (by simp) _
  | true =>
    have hmoved : r.moved change = { r with operand := r.operand + change } := by simp [Record.moved, href]
    have hraised := (word hr.2.2 (hfits href)).between (Word.toBytes r.operation ++ Word.toBytes r.variant) []
    rw [List.append_nil, List.append_nil] at hraised
    rw [hmoved]
    refine hraised.congr ?_
    simp [List.length_append]

/-- Code that moves is raised at its text references. -/
theorem code (code : List UInt8)
    (hfits : ∀ r ∈ (scan code).1, r.isTextReference = true → Word.Fits (r.operand + change)) :
    Raised change (ReferencePlace code) code (moveCode change code) := by
  induction code using code_induction with
  | short code h =>
    rw [moveCode_of_short h]
    exact .none change (not_referencePlace_of_short h) code
  | record r code hr ih =>
    rw [scan_bytes_append hr] at hfits
    rw [moveCode_bytes_append hr]
    have hplaces := fun n => @referencePlace_bytes_append_iff r hr code n
    cases hexit : r.isExit with
    | true =>
      simp only [hexit, if_true, List.mem_singleton, forall_eq] at hfits
      have hbehind : Raised change (fun _ => False) code code := .none change (fun _ => id) _
      refine ((record hr hfits).append hbehind).congr ?_
      simp [hplaces, hexit]
    | false =>
      simp only [hexit, Bool.false_eq_true, if_false, List.forall_mem_cons] at hfits
      refine ((record hr hfits.1).append (ih hfits.2)).congr ?_
      simp [hplaces, hexit]

end Raised

/-! ## Pieces and table entries -/

/-- Where the words of a piece stand that move with it: its own offset and its text references. -/
def Piece.Place (p : Piece) (n : Nat) : Prop :=
  n = 0 ∨ ∃ m, ReferencePlace p.code m ∧ n = segmentHeaderSize + m

/-- Where such words of several pieces stand. -/
def Piece.PlaceAmong (ps : List Piece) (n : Nat) : Prop :=
  ∃ before p behind m, ps = before ++ p :: behind ∧ p.Place m ∧ n = totalSize before + m

theorem Piece.placeAmong_cons_iff {p : Piece} {ps : List Piece} {n : Nat} :
    PlaceAmong (p :: ps) n ↔ p.Place n ∨ ∃ m, PlaceAmong ps m ∧ n = p.size + m := by
  constructor
  · intro hplace
    obtain ⟨before, q, behind, m, heq, hm, rfl⟩ := hplace
    cases before with
    | nil =>
      injection heq with hq
      subst hq
      exact .inl (by simpa [totalSize] using hm)
    | cons first before =>
      injection heq with hfirst hps
      subst hfirst
      refine .inr ⟨_, ⟨before, q, behind, m, hps, hm, rfl⟩, ?_⟩
      rw [totalSize_cons, Nat.add_assoc]
  · intro hplace
    rcases hplace with hp | ⟨_, ⟨before, q, behind, m, rfl, hm, rfl⟩, rfl⟩
    · exact ⟨[], p, ps, n, rfl, hp, by simp [totalSize]⟩
    · exact ⟨p :: before, q, behind, m, rfl, hm, by rw [totalSize_cons, Nat.add_assoc]⟩

namespace Raised

variable {change : Int}

/-- A piece of which the own offset is raised, and the code at some places. -/
theorem raisedBytes {p : Piece} {places : Nat → Prop} {code : List UInt8} (hown : Word.Fits (p.own + change))
    (hcode : Raised change places p.code code) :
    Raised change (fun n => n = 0 ∨ ∃ m, places m ∧ n = segmentHeaderSize + m) p.bytes (p.raisedBytes change code) := by
  have hfiller : Raised change (fun _ => False) p.filler p.filler := .none change (fun _ => id) _
  refine ((word p.own_fits hown).append (hfiller.append hcode)).congr fun n => ?_
  have hlength := p.length_filler
  simp only [false_or, Word.length_toBytes]
  refine or_congr_right ?_
  constructor
  · intro h
    obtain ⟨m, hm, rfl⟩ := h
    exact ⟨_, ⟨m, hm, rfl⟩, by omega⟩
  · intro h
    obtain ⟨_, ⟨m, hm, rfl⟩, rfl⟩ := h
    exact ⟨m, hm, by omega⟩

theorem piece {start : Nat} {p : Piece} (h : p.Movable change start) :
    Raised change p.Place p.bytes (p.moved change).bytes := by
  obtain ⟨-, hown, -, hcode⟩ := h
  rw [Piece.bytes_moved]
  exact raisedBytes hown (code p.code hcode.fits)

theorem pieces {start : Nat} {ps : List Piece} (h : Piece.AllMovable change start ps) :
    Raised change (Piece.PlaceAmong ps) (ps.flatMap Piece.bytes)
      ((ps.map (Piece.moved change)).flatMap Piece.bytes) := by
  induction ps generalizing start with
  | nil => exact .none change (by simp [Piece.PlaceAmong]) []
  | cons p ps ih =>
    refine ((piece h.1).append (ih h.2)).congr ?_
    intro n
    rw [Piece.placeAmong_cons_iff, Piece.length_bytes]

/-- Of a table entry, the offset is raised. -/
theorem entry {s : Segment} (hs : s.Fits) (hfits : Word.Fits (s.offset + change)) :
    Raised change (· = 4) s.bytes (s.moved change).bytes := by
  have hraised := (word hs.2 hfits).between (Word.toBytes s.id) []
  rw [List.append_nil, List.append_nil] at hraised
  exact hraised.congr (by simp)

theorem entries {segments : List Segment} (hs : ∀ s ∈ segments, s.Fits)
    (hfits : ∀ s ∈ segments, Word.Fits (s.offset + change)) :
    Raised change (fun n => ∃ j, j < segments.length ∧ n = tableEntrySize * j + 4)
      (segments.flatMap Segment.bytes) ((segments.map (Segment.moved change)).flatMap Segment.bytes) := by
  induction segments with
  | nil => exact .none change (by simp) []
  | cons s segments ih =>
    obtain ⟨hfirst, hs⟩ := List.forall_mem_cons.1 hs
    obtain ⟨hraised, hfits⟩ := List.forall_mem_cons.1 hfits
    refine ((entry hfirst hraised).append (ih hs hfits)).congr ?_
    intro n
    rw [Segment.length_bytes]
    constructor
    · intro h
      obtain ⟨j, hj, rfl⟩ := h
      cases j with
      | zero => exact .inl rfl
      | succ j => exact .inr ⟨_, ⟨j, Nat.lt_of_succ_lt_succ hj, rfl⟩, by rw [Nat.mul_succ]; omega⟩
    · intro h
      rcases h with rfl | ⟨_, ⟨j, hj, rfl⟩, rfl⟩
      · exact ⟨0, Nat.succ_pos _, rfl⟩
      · exact ⟨j + 1, Nat.succ_lt_succ hj, by rw [Nat.mul_succ]; omega⟩

end Raised

/-! ## Containers -/

namespace Container

/-- Where the table has the offsets of the segments behind the one with index `k`. -/
def EntryPlace (c : Container) (k : Nat) (position : Int) : Prop :=
  ∃ j : Nat, k < j ∧ j < c.segments.length ∧ position = c.header.tableStart + tableEntrySize * j + 4

/-- Where the segment with index `j` has a word that says where something is: its first word, and the operands
of its text references, up to the first record that leaves the script, or else up to the last record that
ends within the segment. -/
def SegmentPlace (c : Container) (j : Nat) (s : Segment) (position : Int) : Prop :=
  position = s.offset ∨
    ∃ (rs : List Record) (r : Record), Record.StandAt c.bytes (codeStart s.offset).toNat (rs ++ [r]) ∧
      codeStart s.offset + recordSize * (rs.length + 1) ≤ c.segmentEnd j ∧ (∀ r' ∈ rs, r'.isExit = false) ∧
      r.isTextReference = true ∧ position = codeStart s.offset + recordSize * rs.length + 8

/-- Where the segments behind the one with index `k` have such words. -/
def TrailingPlace (c : Container) (k : Nat) (position : Int) : Prop :=
  ∃ (j : Nat) (s : Segment), k < j ∧ c.segments[j]? = some s ∧ c.SegmentPlace j s position

theorem SegmentPlace.le {c : Container} {j : Nat} {s : Segment} {position : Int}
    (h : c.SegmentPlace j s position) : s.offset ≤ position := by
  rcases h with rfl | ⟨rs, r, -, -, -, -, rfl⟩
  · exact Int.le_refl _
  · simp only [codeStart, segmentHeaderSize, recordSize]
    omega

end Container

namespace Image

variable {i : Image} {front back : List Piece} {p : Piece} {n : Nat}

/-- Records stand within a segment where they stand in its code. -/
theorem standAt_iff (hpieces : i.pieces = front ++ p :: back) {rs : List Record}
    (hlength : recordSize * rs.length ≤ p.code.length) :
    Record.StandAt i.bytes (i.base + Piece.totalSize front + segmentHeaderSize) rs ↔
      Record.StandAt p.code 0 rs := by
  have hcode : i.bytes.drop (i.base + Piece.totalSize front + segmentHeaderSize)
      = (p.code ++ back.flatMap Piece.bytes).drop 0 := by
    rw [← Workspace.length_codeFront, Workspace.bytes_eq_codeFront hpieces, List.append_assoc, List.drop_left,
      List.drop_zero]
  unfold Record.StandAt
  rw [hcode, prefix_drop_append_iff (by rw [Record.length_flatMap_bytes]; omega)]

/-- The words of a segment that say where something is are those that move with its piece. -/
theorem segmentPlace_iff (hpieces : i.pieces = front ++ p :: back) :
    i.container.SegmentPlace front.length ⟨p.id, (i.base + Piece.totalSize front : Nat)⟩
        ((i.base + Piece.totalSize front + n : Nat)) ↔ p.Place n := by
  have hstart : codeStart ((i.base + Piece.totalSize front : Nat) : Int)
      = (i.base + Piece.totalSize front + segmentHeaderSize : Nat) := by
    simp only [codeStart]
    omega
  unfold Container.SegmentPlace Piece.Place
  rw [Workspace.segmentEnd_eq hpieces]
  simp only [hstart, Int.toNat_natCast, Piece.size, recordSize]
  refine or_congr (by omega) ?_
  constructor
  · intro h
    obtain ⟨rs, r, hstand, hend, hstays, hrefers, hn⟩ := h
    have hlength : recordSize * (rs ++ [r]).length ≤ p.code.length := by
      rw [List.length_append, List.length_singleton, recordSize]
      omega
    refine ⟨_, ⟨rs, r, ⟨(standAt_iff hpieces hlength).1 hstand, hstays, hrefers⟩, rfl⟩, ?_⟩
    simp only [recordSize]
    omega
  · intro h
    obtain ⟨_, ⟨rs, r, ⟨hstand, hstays, hrefers⟩, rfl⟩, hn⟩ := h
    have hlength : recordSize * (rs ++ [r]).length ≤ p.code.length := by
      have hle := hstand.2.length_le
      rwa [Record.length_flatMap_bytes, List.drop_zero] at hle
    have hstand' := (standAt_iff hpieces hlength).2 hstand
    rw [List.length_append, List.length_singleton, recordSize] at hlength
    simp only [recordSize] at hn
    exact ⟨rs, r, hstand', by omega, hstays, hrefers, by omega⟩

theorem trailingPlace_iff (hpieces : i.pieces = front ++ p :: back) :
    i.container.TrailingPlace front.length ((i.base + Piece.totalSize front + p.size + n : Nat)) ↔
      Piece.PlaceAmong back n := by
  constructor
  · intro h
    obtain ⟨j, s, hj, hs, hplace⟩ := h
    obtain ⟨front', q, back', hpieces', rfl, rfl⟩ := Piece.exists_of_getElem?_entries hs
    rcases Piece.before_or_behind (hpieces.symm.trans hpieces') (by omega) with
      ⟨mid, rfl, -⟩ | ⟨mid, rfl, rfl⟩
    · simp only [List.length_append, List.length_cons] at hj
      omega
    -- A place is not before its segment, so its distance to what is behind the script counts from there.
    have hle := hplace.le
    simp only [Piece.totalSize_append, Piece.totalSize_cons] at hle
    obtain ⟨m, hm⟩ : ∃ m, n = Piece.totalSize mid + m := ⟨n - Piece.totalSize mid, by omega⟩
    refine ⟨mid, q, back', m, rfl, (segmentPlace_iff hpieces').1 ?_, hm⟩
    have hposition : i.base + Piece.totalSize front + p.size + n
        = i.base + Piece.totalSize (front ++ p :: mid) + m := by
      rw [hm, Piece.totalSize_append, Piece.totalSize_cons]
      omega
    rw [← hposition]
    exact hplace
  · intro h
    obtain ⟨mid, q, behind, m, rfl, hm, rfl⟩ := h
    have hpieces' : i.pieces = (front ++ p :: mid) ++ q :: behind := by
      rw [hpieces, List.append_assoc, List.cons_append]
    have hposition : i.base + Piece.totalSize front + p.size + (Piece.totalSize mid + m)
        = i.base + Piece.totalSize (front ++ p :: mid) + m := by
      rw [Piece.totalSize_append, Piece.totalSize_cons]
      omega
    refine ⟨_, _, ?_, Workspace.segments_getElem? hpieces', ?_⟩
    · simp only [List.length_append, List.length_cons]
      omega
    · rw [hposition]
      exact (segmentPlace_iff hpieces').2 hm

/-! ## Before and behind the script -/

variable {script : List UInt8}

/-- Behind the script, the words that say where something is are raised. -/
theorem raised_behind (hpieces : i.pieces = front ++ p :: back)
    (hinjectable : Workspace.Injectable i front p back script) :
    Raised (p.growth script)
      (fun n => p.growth script ≠ 0 ∧
        i.container.TrailingPlace front.length ((i.base + Piece.totalSize front + p.size + n : Nat)))
      (back.flatMap Piece.bytes) ((back.map (Piece.moved (p.growth script))).flatMap Piece.bytes) := by
  by_cases hzero : p.growth script = 0
  · rw [hzero, Piece.map_moved_zero]
    exact .none 0 (by simp) _
  · refine (Raised.pieces (hinjectable.pieces hzero)).congr ?_
    intro n
    rw [trailingPlace_iff hpieces, and_iff_right hzero]

/-- Before the script, the offsets of the segments behind it are raised. -/
theorem raised_before (hpieces : i.pieces = front ++ p :: back) (htable : i.header.tableStart = i.lead.length)
    (hfits : ∀ s ∈ i.segments, s.Fits) (hinjectable : Workspace.Injectable i front p back script) :
    Raised (p.growth script) (fun n => p.growth script ≠ 0 ∧ i.container.EntryPlace front.length n)
      (Workspace.codeFront i front p)
      (Workspace.codeFront (i.injected front p back script) front (p.withScript script)) := by
  let left := i.lead ++ (Workspace.tableFront i front p).flatMap Segment.bytes
  let right := i.gap ++ (front.flatMap Piece.bytes ++ (Word.toBytes p.own ++ p.filler))
  -- Both are the same in front of the entries of the segments behind the script, and after them.
  have hold : Workspace.codeFront i front p
      = left ++ ((Piece.entries (i.base + Piece.totalSize front + p.size) back).flatMap Segment.bytes
          ++ right) := by
    rw [Workspace.codeFront, Image.front, Workspace.segments_eq hpieces]
    simp [left, right]
  have hnew : Workspace.codeFront (i.injected front p back script) front (p.withScript script)
      = left ++ (((Piece.entries (i.base + Piece.totalSize front + p.size) back).map
          (Segment.moved (p.growth script))).flatMap Segment.bytes ++ right) := by
    rw [Workspace.codeFront, Image.front, Workspace.segments_injected hpieces]
    simp [left, right, Image.injected, Piece.withScript]
  rw [hold, hnew]
  by_cases hzero : p.growth script = 0
  · rw [hzero, Segment.map_moved_zero]
    exact .none 0 (by simp) _
  · have hmem : ∀ s ∈ Piece.entries (i.base + Piece.totalSize front + p.size) back, s.Fits := by
      intro s hs
      refine hfits s ?_
      rw [Workspace.segments_eq hpieces]
      exact List.mem_append_right _ hs
    refine ((Raised.entries hmem (hinjectable.entries hzero).fits).between left right).congr ?_
    intro n
    have hleft : left.length = i.lead.length + tableEntrySize * (front.length + 1) := by
      simp only [left, List.length_append, Segment.length_flatMap_bytes, Workspace.length_tableFront]
    have hlength : i.container.segments.length = front.length + 1 + back.length := by
      show i.segments.length = _
      rw [Workspace.segments_eq hpieces, List.length_append, Workspace.length_tableFront, Piece.length_entries]
    have hstart : i.container.header.tableStart = i.lead.length := htable
    rw [and_iff_right hzero, Container.EntryPlace, hlength, hleft, hstart, Piece.length_entries]
    simp only [tableEntrySize]
    constructor
    · intro h
      obtain ⟨j, hlt, hj, hn⟩ := h
      exact ⟨_, ⟨j - (front.length + 1), by omega, rfl⟩, by omega⟩
    · intro h
      obtain ⟨_, ⟨j, hj, rfl⟩, hn⟩ := h
      exact ⟨front.length + 1 + j, by omega, by omega, by omega⟩

end Image

namespace Workspace

variable {script : List UInt8} {w w' : Workspace} {change : Int}

/-- **What injecting does to each byte.** In a loaded container of the documented layout, the script in the
segment with index `k` is replaced with the new one and zeros up to the alignment, and the bytes get longer
by what the segment does. If that is not nothing, the offsets in the table and the words that say where
something is are greater by it for the segments behind. All other bytes are as they were, those behind the
script as far on. -/
theorem bytes_of_inject {bytes : List UInt8} {w₀ : Workspace} {k : Nat} {segment : Segment}
    (hload : load bytes w₀ = .ok () w) (hdocumented : w.container.Documented)
    (hsegment : w.container.segments[k]? = some segment)
    (hscript : segment.offset = w.container.header.scriptStart) (hinject : inject script w = .ok change w') :
    change = align script.length alignment - (w.container.segmentEnd k - codeStart segment.offset) ∧
      (w'.container.bytes.length : Int) = w.container.bytes.length + change ∧
      ∃ (before behind : List UInt8) (zeros : Nat),
        w'.container.bytes = before ++ ((script ++ List.replicate zeros 0) ++ behind) ∧
        (script.length + zeros : Int) = align script.length alignment ∧
        Raised change (fun n => change ≠ 0 ∧ w.container.EntryPlace k n)
          (w.container.bytes.take (codeStart segment.offset).toNat) before ∧
        Raised change (fun n => change ≠ 0 ∧ w.container.TrailingPlace k (w.container.segmentEnd k + n))
          (w.container.bytes.drop (w.container.segmentEnd k).toNat) behind := by
  obtain ⟨-, hspelled⟩ := gives_load_iff.1 ⟨w.notices, hload⟩
  obtain ⟨i, hcontainer, htable⟩ := Container.exists_image hspelled hdocumented
  rw [← hcontainer] at hspelled hdocumented hsegment hscript ⊢
  obtain ⟨front, p, back, hpieces, rfl, rfl⟩ := Piece.exists_of_getElem?_entries hsegment
  have haligned := hdocumented.aligned _ (List.mem_of_getElem? hsegment)
  simp only [alignment] at haligned
  have hscripted : i.Scripted front p back := ⟨hpieces, htable, hscript.symm, by omega⟩
  obtain ⟨hinjectable, rfl, hw'⟩ := hscripted.of_inject hcontainer.symm hinject
  have hpieces' := (hscripted.injected script).pieces
  let before := codeFront (i.injected front p back script) front (p.withScript script)
  have hbytes : i.container.bytes = (codeFront i front p ++ p.code) ++ back.flatMap Piece.bytes :=
    bytes_eq_codeFront hpieces
  have hbytes' : w'.container.bytes
      = (before ++ padded script) ++ (back.map (Piece.moved (p.growth script))).flatMap Piece.bytes := by
    rw [hw']
    exact bytes_eq_codeFront hpieces'
  have hstart : (codeStart ((i.base + Piece.totalSize front : Nat) : Int)).toNat
      = (codeFront i front p).length := by
    rw [length_codeFront]
    simp only [codeStart]
    omega
  have hend : i.base + Piece.totalSize front + p.size = (codeFront i front p ++ p.code).length := by
    rw [List.length_append, length_codeFront, Piece.size]
    omega
  have hbefore := Image.raised_before hpieces htable hspelled.table_fits hinjectable
  have hbehind := Image.raised_behind hpieces hinjectable
  rw [segmentEnd_eq hpieces, ← length_padded]
  refine ⟨?_, ?_, before, (back.map (Piece.moved (p.growth script))).flatMap Piece.bytes,
    Stream.paddingOf script.length 4, ?_, ?_, ?_, ?_⟩
  · simp only [Piece.growth, Piece.size, codeStart]
    omega
  · have hlength := congrArg List.length hbytes
    have hlength' := congrArg List.length hbytes'
    simp only [List.length_append, Piece.length_flatMap_bytes, Piece.totalSize_map_moved] at hlength hlength'
    have hsame : before.length = (codeFront i front p).length := hbefore.length
    simp only [Piece.growth]
    omega
  · rw [hbytes', List.append_assoc]
    rfl
  · simp only [padded, List.length_append, List.length_replicate]
    omega
  · rw [hstart, hbytes, List.append_assoc, List.take_left]
    exact hbefore
  · rw [Int.toNat_natCast, hbytes, hend, List.drop_left]
    rw [hend] at hbehind
    exact hbehind

/-- The script grows by four bytes; the own offset and the text reference behind it are greater by four. -/
theorem bytes_of_inject_small : ∃ (script : List UInt8) (w w' : Workspace) (before behind : List UInt8),
    load Image.small.bytes {} = .ok () w ∧ inject script w = .ok 4 w' ∧
      w'.container.bytes = before ++ ((script ++ [0, 0, 0]) ++ behind) ∧
      Raised 4 (w.container.EntryPlace 0 ·) (w.container.bytes.take 92) before ∧
      Raised 4 (fun n => w.container.TrailingPlace 0 (128 + n)) (w.container.bytes.drop 128) behind ∧
      w.container.TrailingPlace 0 128 ∧ w.container.TrailingPlace 0 228 := by
  let script : List UInt8 := Piece.leaving.code ++ [1]
  obtain ⟨notices, hload⟩ := gives_load Image.spelled_small {}
  obtain ⟨notices', hinject⟩ : Gives (inject script) ⟨Image.small.container, notices⟩ 4 _ :=
    (Image.scripted_small.gives_inject_iff rfl).2 ⟨by decide +kernel, by decide +kernel, rfl⟩
  have hsegment : Image.small.container.segments[0]? = some ⟨1, 36⟩ := by decide +kernel
  obtain ⟨-, -, before, behind, zeros, hbytes, hzeros, hbefore, hbehind⟩ :=
    bytes_of_inject hload Image.documented_small hsegment rfl hinject
  have hpieces : Image.small.pieces = [] ++ .leaving :: [.calling] := rfl
  have hplace : ∀ n, Piece.PlaceAmong [.calling] n → Image.small.container.TrailingPlace 0 (128 + n : Nat) :=
    fun n => (Image.trailingPlace_iff hpieces).2
  have hown : Piece.calling.Place 0 := .inl rfl
  have hreference : Record.ReferenceAfter Piece.calling.code
      ([Instruction.pushInt 0x40, .pushInt 7, .pushTrue].map Instruction.toRecord)
      (Instruction.pushText 192).toRecord :=
    ⟨⟨by decide +kernel, by decide +kernel⟩, by decide +kernel, by decide +kernel⟩
  have hoperand : Piece.calling.Place 100 := .inr ⟨44, ⟨_, _, hreference, rfl⟩, rfl⟩
  have hend : Image.small.container.segmentEnd 0 = 128 := by decide +kernel
  obtain rfl : zeros = 3 := by
    have hlength : align script.length alignment = script.length + 3 := by decide +kernel
    omega
  simp only [hend] at hbehind
  refine ⟨script, _, _, before, behind, hload, hinject, hbytes, hbefore.congr (by simp),
    hbehind.congr (by simp), ?_, ?_⟩
  · exact hplace 0 ⟨[], _, [], 0, rfl, hown, rfl⟩
  · exact hplace 100 ⟨[], _, [], 100, rfl, hoperand, rfl⟩

end Workspace
end Storyboard
