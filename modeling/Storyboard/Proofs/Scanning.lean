/-
What moving a segment changes, compared with what decoding the segment takes.

Moving a segment looks at its records up to the first one that leaves the script, decoding takes them up to the
sentinel. `Container.adjusts_iff_scans` says which records moving changes, `Container.scans_iff_of_lt` which of the
records that decoding takes are among them, and `Workspace.adjusts_of_decode` when the two agree, and what is left
where moving fails.
-/
import Storyboard.Proofs.Invariant
import Storyboard.Proofs.Overflow
import Storyboard.Proofs.Refinement
import Storyboard.Proofs.RoundTrip

namespace Storyboard

/-- Bytes are found at a position where there are the same ones. -/
theorem prefix_drop_congr {xs old new : List UInt8} {position : Nat}
    (h : ∀ n, position ≤ n → n < position + xs.length → new[n]? = old[n]?) :
    xs <+: new.drop position ↔ xs <+: old.drop position := by
  have htake : (new.drop position).take xs.length = (old.drop position).take xs.length := by
    refine List.ext_getElem? fun n => ?_
    simp only [List.getElem?_take, List.getElem?_drop]
    split
    · exact h _ (Nat.le_add_right _ _) (by omega)
    · rfl
  rw [List.prefix_iff_eq_take, List.prefix_iff_eq_take, htake]

/-! ## Records of a segment -/

namespace Record

variable {bytes old new : List UInt8} {position : Nat} {rs : List Record} {r : Record}

theorem getElem?_chop_drop_eq_some_iff {k : Nat} :
    (chop (bytes.drop position))[k]? = some r ↔ StandAt bytes (position + recordSize * k) [r] :=
  getElem?_chop_eq_some_iff.trans standAt_drop_iff

/-- The records from a position on begin with the one that stands there. -/
theorem chop_drop_of_standAt (h : StandAt bytes position [r]) :
    chop (bytes.drop position) = r :: chop (bytes.drop (position + recordSize)) := by
  obtain ⟨hfits, code, hcode⟩ := h
  have hr : r.Fits := hfits r List.mem_cons_self
  rw [List.flatMap_singleton] at hcode
  rw [(standAt_of_drop hr hcode.symm).2, ← hcode, chop_bytes_append hr]

/-- Records stand where they are the first ones from there on. -/
theorem standAt_iff_prefix_chop : StandAt bytes position rs ↔ rs <+: chop (bytes.drop position) := by
  induction rs generalizing position with
  | nil => exact iff_of_true (standAt_nil bytes position) List.nil_prefix
  | cons r rs ih =>
    rw [standAt_cons_iff, ih]
    constructor
    · intro h
      obtain ⟨hfirst, hrest⟩ := h
      rw [chop_drop_of_standAt hfirst]
      exact (List.prefix_cons_inj r).2 hrest
    · intro h
      have hfirst : StandAt bytes position [r] := by
        refine getElem?_chop_drop_eq_some_iff (k := 0).1 ?_
        obtain ⟨tail, htail⟩ := h
        rw [← htail]
        rfl
      rw [chop_drop_of_standAt hfirst] at h
      exact ⟨hfirst, (List.prefix_cons_inj r).1 h⟩

/-- A record stands where its twelve bytes are, whatever others are. -/
theorem standAt_congr (h : ∀ n, position ≤ n → n < position + recordSize → new[n]? = old[n]?) :
    StandAt new position [r] ↔ StandAt old position [r] := by
  unfold StandAt
  rw [List.flatMap_singleton, prefix_drop_congr (by rw [length_bytes]; exact h)]

/-- The operand is the last word of a record. -/
theorem StandAt.operand (h : StandAt bytes position [r]) : Word.StandsAt bytes (position + 8) r.operand := by
  obtain ⟨hfits, tail, htail⟩ := h
  refine ⟨(hfits r List.mem_cons_self).2.2, tail, ?_⟩
  have hsplit : [r].flatMap Record.bytes ++ tail
      = (Word.toBytes r.operation ++ Word.toBytes r.variant) ++ (Word.toBytes r.operand ++ tail) := by
    simp [Record.bytes]
  have hlength : (Word.toBytes r.operation ++ Word.toBytes r.variant).length = 8 := by simp
  rw [← List.drop_drop, ← htail, hsplit, List.drop_left' hlength]

end Record

theorem Word.StandsAt.unique {bytes : List UInt8} {n : Nat} {v w : Int} (hv : Word.StandsAt bytes n v)
    (hw : Word.StandsAt bytes n w) : v = w :=
  Word.eq_of_toBytes_prefix hv.1 hw.1 hv.2 hw.2

namespace Container

/-- The records from the code of a segment on, up to the end of the container. -/
def recordsFrom (c : Container) (s : Segment) : List Record :=
  Record.chop (c.bytes.drop (codeStart s.offset).toNat)

/-- Of the records from the code of the segment on, the one with index `k` is not the same in `c` and `c'`. -/
def Adjusts (c c' : Container) (s : Segment) (k : Nat) : Prop := (c'.recordsFrom s)[k]? ≠ (c.recordsFrom s)[k]?

/-- The record with index `k` of the segment with index `j` is a text reference that is looked at when the segment
moves: it lies within the segment, and no record before it leaves the script. -/
structure Scans (c : Container) (j : Nat) (s : Segment) (k : Nat) : Prop where
  within : codeStart s.offset + recordSize * (k + 1) ≤ c.segmentEnd j
  refers : ∃ r, (c.recordsFrom s)[k]? = some r ∧ r.isTextReference = true
  stays : ∀ i < k, ∀ r, (c.recordsFrom s)[i]? = some r → r.isExit = false

variable {c c' : Container} {j k : Nat} {s : Segment} {change : Int}

theorem getElem?_recordsFrom_eq_some_iff {r : Record} :
    (c.recordsFrom s)[k]? = some r ↔
      Record.StandAt c.bytes ((codeStart s.offset).toNat + recordSize * k) [r] :=
  Record.getElem?_chop_drop_eq_some_iff

/-! ## What moving a segment changes -/

theorem place_eq (hstart : 0 ≤ s.offset) : ((codeStart s.offset).toNat + recordSize * k + 8 : Nat)
    = codeStart s.offset + recordSize * k + 8 := by
  simp only [codeStart]
  omega

/-- The references that are looked at are the places that have to be raised, but for the segment's own offset. -/
theorem segmentPlace_iff_scans :
    c.SegmentPlace j s (codeStart s.offset + recordSize * k + 8) ↔ c.Scans j s k := by
  constructor
  · intro h
    rcases h with h | ⟨rs, r, hstand, hend, hstays, hrefers, hplace⟩
    · simp only [codeStart, segmentHeaderSize, recordSize] at h
      omega
    · obtain rfl : rs.length = k := by
        simp only [recordSize] at hplace
        omega
      obtain ⟨tail, htail⟩ := Record.standAt_iff_prefix_chop.1 hstand
      have hrecords : c.recordsFrom s = rs ++ r :: tail := by
        rw [recordsFrom, ← htail, List.append_assoc, List.singleton_append]
      refine ⟨hend, ⟨r, ?_, hrefers⟩, fun i hi r' hr' => hstays r' ?_⟩
      · rw [hrecords, List.getElem?_append_right (Nat.le_refl _), Nat.sub_self, List.getElem?_cons_zero]
      · rw [hrecords, List.getElem?_append_left hi] at hr'
        exact List.mem_of_getElem? hr'
  · intro h
    obtain ⟨r, hr, hrefers⟩ := h.refers
    have hlt : k < (c.recordsFrom s).length := (List.getElem?_eq_some_iff.1 hr).1
    have hlength : ((c.recordsFrom s).take k).length = k := List.length_take_of_le (Nat.le_of_lt hlt)
    refine .inr ⟨(c.recordsFrom s).take k, r, ?_, ?_, fun r' hr' => ?_, hrefers, by rw [hlength]⟩
    · rw [Record.standAt_iff_prefix_chop]
      have htake : (c.recordsFrom s).take k ++ [r] = (c.recordsFrom s).take (k + 1) := by
        rw [List.take_add_one, hr]
        rfl
      rw [htake]
      exact List.take_prefix _ _
    · rw [hlength]
      exact h.within
    · obtain ⟨i, hi⟩ := List.getElem?_of_mem hr'
      rw [List.getElem?_take] at hi
      split at hi
      · next hik => exact h.stays i hik r' hi
      · contradiction

/-- Where some of the words of a segment that say where something is are raised, the records that change are those of
which the operand is raised. -/
theorem adjusts_iff_place {places : Nat → Prop} (hraised : Raised change places c.bytes c'.bytes)
    (hplaces : ∀ n, places n → c.SegmentPlace j s n) (hchange : change ≠ 0) (hstart : 0 ≤ s.offset) :
    c.Adjusts c' s k ↔ places ((codeStart s.offset).toNat + recordSize * k + 8) := by
  by_cases hraise : places ((codeStart s.offset).toNat + recordSize * k + 8)
  · refine iff_of_true (fun hsame => ?_) hraise
    obtain ⟨v, hold, hnew⟩ := hraised.words _ hraise
    have hscans := hplaces _ hraise
    rw [place_eq hstart, segmentPlace_iff_scans] at hscans
    obtain ⟨r, hr, -⟩ := hscans.refers
    have hbefore := hold.unique (getElem?_recordsFrom_eq_some_iff.1 hr).operand
    have hafter := hnew.unique (getElem?_recordsFrom_eq_some_iff.1 (hsame.trans hr)).operand
    omega
  · refine iff_of_false (fun hadjusts => hadjusts (Option.ext fun r => ?_)) hraise
    rw [getElem?_recordsFrom_eq_some_iff, getElem?_recordsFrom_eq_some_iff]
    refine Record.standAt_congr fun n hle hlt => hraised.others n fun place hplace' hwithin => ?_
    -- The only place that can lie within the record is that of its operand.
    have hoperand : place = (codeStart s.offset).toNat + recordSize * k + 8 := by
      rcases hplaces _ hplace' with h | ⟨rs, r, -, -, -, -, h⟩
      · simp only [codeStart, segmentHeaderSize] at hle
        omega
      · simp only [codeStart, segmentHeaderSize, recordSize] at h hle hlt ⊢
        omega
    rw [hoperand] at hplace'
    exact hraise hplace'

/-- **Which records change.** Where the words of a segment that say where something is are raised, the records that
change are the text references that are looked at. -/
theorem adjusts_iff_scans (hraised : Raised change (fun n => c.SegmentPlace j s n) c.bytes c'.bytes)
    (hchange : change ≠ 0) (hstart : 0 ≤ s.offset) : c.Adjusts c' s k ↔ c.Scans j s k := by
  rw [adjusts_iff_place hraised (fun _ => id) hchange hstart, place_eq hstart, segmentPlace_iff_scans]

/-- Where they are raised up to a record, the records that change are the text references in front of it. -/
theorem adjusts_iff_scans_lt {m : Nat} (hraised : Raised change
      (fun n => c.SegmentPlace j s n ∧ n < codeStart s.offset + recordSize * m) c.bytes c'.bytes)
    (hchange : change ≠ 0) (hstart : 0 ≤ s.offset) : c.Adjusts c' s k ↔ c.Scans j s k ∧ k < m := by
  rw [adjusts_iff_place hraised (fun _ => And.left) hchange hstart, place_eq hstart, segmentPlace_iff_scans]
  refine and_congr_right fun _ => ?_
  simp only [recordSize]
  omega

/-! ## Correcting one segment -/

/-- The segments lie behind the table. -/
theorem Sound.table_end_le (h : c.Sound) (hs : s ∈ c.segments) :
    c.header.tableStart + tableEntrySize * c.segments.length ≤ s.offset := by
  obtain ⟨i, rfl, htable⟩ := exists_image h.spelled h.documented
  have hbase : (i.base : Int) ≤ s.offset := Piece.le_offset_of_mem_entries hs
  have hlength : i.container.segments.length = i.pieces.length := Piece.length_entries _ _
  have hstart : i.container.header.tableStart = i.lead.length := htable
  rw [hlength, hstart]
  simp only [Image.base] at hbase
  omega

/-- A container stays sound when no byte in front of a segment changes, and their number does not. -/
theorem Sound.withBytes {bytes : List UInt8} (h : c.Sound) (hs : s ∈ c.segments)
    (hlength : bytes.length = c.bytes.length) (hsame : ∀ n : Nat, n < s.offset → bytes[n]? = c.bytes[n]?) :
    Sound { c with bytes } := by
  have htable := h.table_end_le hs
  have hstart := h.documented.table_start
  refine ⟨⟨h.spelled.header_fits, ?_, h.spelled.table_nonneg, h.spelled.table_length, h.spelled.table_fits, ?_⟩,
    ⟨hstart, h.documented.table_end, h.documented.aligned, h.documented.spaced, ?_, h.documented.script⟩⟩
  · refine (prefix_drop_congr fun n _ hn => hsame n ?_).2 h.spelled.header_lies
    simp only [Header.length_bytes, headerPosition] at hn
    simp only [tableEntrySize] at htable
    omega
  · refine (prefix_drop_congr fun n _ hn => hsame n ?_).2 h.spelled.table_lies
    rw [Segment.length_flatMap_bytes] at hn
    dsimp only at hn
    omega
  · intro last hlast
    show _ ≤ (bytes.length : Int)
    rw [hlength]
    exact h.documented.room last hlast

/-- So it does when only words of a segment that say where something is are raised. -/
theorem Sound.withRaised {bytes : List UInt8} {places : Nat → Prop} (h : c.Sound) (hs : s ∈ c.segments)
    (hraised : Raised change places c.bytes bytes) (hplaces : ∀ n, places n → c.SegmentPlace j s n) :
    Sound { c with bytes } := by
  refine h.withBytes hs hraised.length fun n hn => hraised.others n ?_
  intro place hplace hwithin
  have hle := (hplaces place hplace).le
  omega

end Container

namespace Workspace

variable {w w' : Workspace} {segment : Segment} {j : Nat} {change : Int}

/-- **Correcting a segment** of a container raises the words of the segment that say where something is, and nothing
but bytes changes. -/
theorem raised_of_correctSegment (hsound : w.container.Sound) (hsegment : w.container.segments[j]? = some segment)
    (hcorrect : correctSegment segment (w.container.segmentEnd j) change w = .ok () w') :
    w'.container = { w.container with bytes := w'.container.bytes } ∧
      Raised change (fun n => w.container.SegmentPlace j segment n) w.container.bytes w'.container.bytes := by
  obtain ⟨c, notices⟩ := w
  obtain ⟨i, rfl, -⟩ := Container.exists_image hsound.spelled hsound.documented
  obtain ⟨front, p, back, hpieces, rfl, rfl⟩ := Piece.exists_of_getElem?_entries hsegment
  obtain ⟨left, right, hbytes, hleft⟩ := i.bytes_eq_around hpieces
  have hend := segmentEnd_eq hpieces
  rw [← hleft] at hcorrect hend ⊢
  obtain ⟨hmovable, hafter⟩ := (gives_correctSegment_iff hbytes rfl hend).1 ⟨w'.notices, hcorrect⟩
  rw [hafter]
  refine ⟨rfl, ?_⟩
  show Raised change _ i.bytes _
  rw [hbytes]
  refine ((Raised.piece hmovable).between left right).congr fun n => ?_
  constructor
  · intro hplace
    obtain ⟨m, rfl⟩ := Nat.exists_eq_add_of_le (Int.ofNat_le.1 hplace.le)
    rw [hleft] at hplace
    exact ⟨m, (Image.segmentPlace_iff hpieces).1 hplace, rfl⟩
  · intro hplace
    obtain ⟨m, hm, rfl⟩ := hplace
    rw [hleft]
    exact (Image.segmentPlace_iff hpieces).2 hm

/-- The container that is left is sound again, so that the next segment can be corrected. -/
theorem sound_of_correctSegment (hsound : w.container.Sound) (hsegment : w.container.segments[j]? = some segment)
    (hcorrect : correctSegment segment (w.container.segmentEnd j) change w = .ok () w') : w'.container.Sound := by
  obtain ⟨hafter, hraised⟩ := raised_of_correctSegment hsound hsegment hcorrect
  rw [hafter]
  exact hsound.withRaised (List.mem_of_getElem? hsegment) hraised fun _ => id

/-- **Correcting a segment fails** only where one of these words would not fit any more. Nothing has changed then if
that is the segment's own offset, and if it is the operand of a text reference, the words in front of it are raised. -/
theorem raised_of_correctSegment_error (hsound : w.container.Sound)
    (hsegment : w.container.segments[j]? = some segment) (hlength : w.container.bytes.length ≤ Stream.lengthLimit)
    {e : Error} (hcorrect : correctSegment segment (w.container.segmentEnd j) change w = .error e w') :
    e = .wordOverflow ∧
      ((∃ own, Word.StandsAt w.container.bytes segment.offset.toNat own ∧ ¬Word.Fits (own + change)) ∧ w' = w ∨
        ∃ m r, (w.container.recordsFrom segment)[m]? = some r ∧ w.container.Scans j segment m ∧
          ¬Word.Fits (r.operand + change) ∧
          w'.container = { w.container with bytes := w'.container.bytes } ∧
          Raised change (fun n => w.container.SegmentPlace j segment n ∧ n < codeStart segment.offset + recordSize * m)
            w.container.bytes w'.container.bytes) := by
  obtain ⟨c, notices⟩ := w
  obtain ⟨i, rfl, -⟩ := Container.exists_image hsound.spelled hsound.documented
  obtain ⟨front, p, back, hpieces, rfl, rfl⟩ := Piece.exists_of_getElem?_entries hsegment
  obtain ⟨left, right, hbytes, hleft⟩ := i.bytes_eq_around hpieces
  have hend := segmentEnd_eq hpieces
  have hreach : i.container.segmentEnd front.length ≤ Stream.lengthLimit := by
    have htotal := congrArg List.length hbytes
    rw [List.length_append, List.length_append, Piece.length_bytes] at htotal
    rw [show i.bytes.length = i.container.bytes.length from rfl] at htotal
    dsimp only at hlength
    omega
  rw [← hleft] at hcorrect hend ⊢
  obtain ⟨rfl, hfails⟩ := of_correctSegment_error hbytes rfl hend hreach hcorrect
  refine ⟨rfl, ?_⟩
  rcases hfails with ⟨hown, rfl⟩ | ⟨hown, rs, r, rest, hobstructed, hafter⟩
  · refine .inl ⟨⟨p.own, ⟨p.own_fits, ?_⟩, hown⟩, rfl⟩
    show _ <+: i.bytes.drop _
    rw [Int.toNat_natCast, hbytes, List.drop_left, Piece.bytes, List.append_assoc]
    exact List.prefix_append _ _
  · have hcode : codeStart (left.length : Int) = (left.length + segmentHeaderSize : Nat) := by
      simp only [codeStart]
      omega
    have hscanned : recordSize * (rs ++ [r]).length ≤ p.code.length := by
      have hle := hobstructed.stand.2.length_le
      rwa [Record.length_flatMap_bytes, List.drop_zero] at hle
    have hplace : ∀ n, i.container.SegmentPlace front.length ⟨p.id, left.length⟩ (left.length + n : Nat) ↔ p.Place n := by
      intro n
      rw [hleft]
      exact Image.segmentPlace_iff hpieces
    refine .inr ⟨rs.length, r, ?_, ?_, hobstructed.overflows, by rw [hafter], ?_⟩
    · have hstands := (Image.standAt_iff hpieces hscanned).2 hobstructed.stand
      rw [← hleft] at hstands
      refine Container.getElem?_recordsFrom_eq_some_iff.2 ?_
      rw [hcode, Int.toNat_natCast]
      exact (Record.standAt_append_iff.1 hstands).2
    · refine Container.segmentPlace_iff_scans.1 ?_
      have hoperand := (hplace _).2 (.inr ⟨_, ⟨rs, r, hobstructed.referenceAfter, rfl⟩, rfl⟩)
      rwa [show codeStart (left.length : Int) + recordSize * rs.length + 8
        = (left.length + (segmentHeaderSize + (recordSize * rs.length + 8)) : Nat) by rw [hcode]; omega]
    · rw [hafter]
      show Raised change _ i.bytes _
      rw [hbytes]
      refine ((Raised.raisedBytes hown (.obstructed hobstructed)).between left right).congr fun n => ?_
      rw [hcode]
      constructor
      · intro h
        obtain ⟨hn, hlt⟩ := h
        obtain ⟨m, rfl⟩ := Nat.exists_eq_add_of_le (Int.ofNat_le.1 hn.le)
        rcases (hplace m).1 hn with rfl | ⟨k, hk, rfl⟩
        · exact ⟨0, .inl rfl, rfl⟩
        · exact ⟨_, .inr ⟨k, ⟨hk, by omega⟩, rfl⟩, rfl⟩
      · intro h
        obtain ⟨_, rfl | ⟨k, ⟨hk, hlt⟩, rfl⟩, rfl⟩ := h
        · refine ⟨(hplace 0).2 (.inl rfl), ?_⟩
          simp only [segmentHeaderSize, recordSize]
          omega
        · exact ⟨(hplace _).2 (.inr ⟨k, hk, rfl⟩), by omega⟩

end Workspace

/-! ## What decoding takes of it -/

namespace Machine

/-- The event with index `k` pushed a text. -/
def PushesText (events : List Event) (k : Nat) : Prop :=
  ∃ e, events[k]? = some e ∧ e.record.isTextReference = true

/-- Behind a record that leaves the script no text is pushed. -/
def LeavesTexts (events : List Event) : Prop :=
  events.Pairwise fun e e' => e.record.isExit = true → e'.record.isTextReference = false

end Machine

namespace Container

variable {c : Container} {j k : Nat} {s : Segment} {events : List Machine.Event}

theorem getElem?_recordsFrom_of_lt (h : Machine.records events <+: c.recordsFrom s) (hk : k < events.length) :
    (c.recordsFrom s)[k]? = events[k]?.map Machine.Event.record := by
  obtain ⟨tail, htail⟩ := h
  rw [← htail, List.getElem?_append_left (by rw [Machine.length_records]; exact hk), Machine.records,
    List.getElem?_map]

/-- **Of the records that decoding takes**, those are looked at that push a text with no record before that leaves the
script. -/
theorem scans_iff_of_lt (h : Machine.records events <+: c.recordsFrom s)
    (hinside : codeStart s.offset + recordSize * events.length ≤ c.segmentEnd j) (hk : k < events.length) :
    c.Scans j s k ↔
      Machine.PushesText events k ∧ ∀ i < k, ∀ e, events[i]? = some e → e.record.isExit = false := by
  constructor
  · intro hscans
    obtain ⟨r, hr, hrefers⟩ := hscans.refers
    rw [getElem?_recordsFrom_of_lt h hk] at hr
    obtain ⟨e, he, rfl⟩ := Option.map_eq_some_iff.1 hr
    refine ⟨⟨e, he, hrefers⟩, fun i hi e' he' => hscans.stays i hi e'.record ?_⟩
    rw [getElem?_recordsFrom_of_lt h (Nat.lt_trans hi hk), he', Option.map_some]
  · intro hpushes
    obtain ⟨⟨e, he, hrefers⟩, hstays⟩ := hpushes
    refine ⟨?_, ⟨e.record, ?_, hrefers⟩, fun i hi r hr => ?_⟩
    · simp only [recordSize] at hinside ⊢
      omega
    · rw [getElem?_recordsFrom_of_lt h hk, he, Option.map_some]
    · rw [getElem?_recordsFrom_of_lt h (Nat.lt_trans hi hk)] at hr
      obtain ⟨e', he', rfl⟩ := Option.map_eq_some_iff.1 hr
      exact hstays i hi e' he'

/-- **When the records that are looked at are those that push texts.** -/
theorem scans_iff_pushesText_iff (h : Machine.records events <+: c.recordsFrom s)
    (hinside : codeStart s.offset + recordSize * events.length ≤ c.segmentEnd j) :
    (∀ k, c.Scans j s k ↔ Machine.PushesText events k) ↔
      Machine.LeavesTexts events ∧ ∀ k, events.length ≤ k → ¬c.Scans j s k := by
  have hbehind : ∀ k, events.length ≤ k → ¬Machine.PushesText events k := by
    intro k hk hpushes
    obtain ⟨e, he, -⟩ := hpushes
    rw [List.getElem?_eq_none hk] at he
    contradiction
  constructor
  · intro hagree
    refine ⟨List.pairwise_iff_getElem.2 fun i k hi hk hik hexit => ?_,
      fun k hk hscans => hbehind k hk ((hagree k).1 hscans)⟩
    refine Bool.eq_false_iff.2 fun hrefers => ?_
    have hpushes : Machine.PushesText events k := ⟨_, List.getElem?_eq_getElem hk, hrefers⟩
    have hstays := ((scans_iff_of_lt h hinside hk).1 ((hagree k).2 hpushes)).2 i hik _ (List.getElem?_eq_getElem hi)
    rw [hexit] at hstays
    contradiction
  · intro hcond k
    obtain ⟨hleaves, hnone⟩ := hcond
    by_cases hk : k < events.length
    · rw [scans_iff_of_lt h hinside hk, and_iff_left_iff_imp]
      intro hpushes i hi e he
      obtain ⟨e', he', hrefers⟩ := hpushes
      obtain ⟨hi', rfl⟩ := List.getElem?_eq_some_iff.1 he
      obtain ⟨hk', rfl⟩ := List.getElem?_eq_some_iff.1 he'
      refine Bool.eq_false_iff.2 fun hexit => ?_
      rw [List.pairwise_iff_getElem.1 hleaves i k hi' hk' hi hexit] at hrefers
      contradiction
    · exact iff_of_false (hnone k (Nat.le_of_not_lt hk)) (hbehind k (Nat.le_of_not_lt hk))

end Container

namespace Workspace

/-- In a sound container, a segment behind the script that decodes without a failure, its records in front of the
sentinel within it, is to be corrected by an amount that is not zero. -/
structure Trails (settings : Settings) (w : Workspace) (j : Nat) (segment : Segment) (change : Int)
    (t : Transcript) : Prop where
  sound : w.container.Sound
  trailing : ∃ i < j, ∃ script, w.container.segments[i]? = some script ∧
    script.offset = w.container.header.scriptStart
  entry : w.container.segments[j]? = some segment
  decodes : Decoder.decode ⟨settings, ⟨w.container.bytes, (codeStart segment.offset).toNat⟩, []⟩ = .ok t
  succeeds : t.failure = none
  inside : t.machine.stream.position ≤ w.container.segmentEnd j + recordSize
  moves : change ≠ 0

/-- Such a segment is corrected. -/
structure Corrects (settings : Settings) (w w' : Workspace) (j : Nat) (segment : Segment) (change : Int)
    (t : Transcript) : Prop extends Trails settings w j segment change t where
  corrects : correctSegment segment (w.container.segmentEnd j) change w = .ok () w'

variable {settings : Settings} {w w' : Workspace} {j : Nat} {segment : Segment} {change : Int} {t : Transcript}

/-- Segments do not start in front of the bytes. -/
theorem Trails.start_nonneg (h : Trails settings w j segment change t) : 0 ≤ segment.offset := by
  have htable := h.sound.table_end_le (List.mem_of_getElem? h.entry)
  have hstart := h.sound.documented.table_start
  simp only [tableEntrySize] at htable
  omega

theorem Corrects.adjusts_iff_scans (h : Corrects settings w w' j segment change t) (k : Nat) :
    w.container.Adjusts w'.container segment k ↔ w.container.Scans j segment k :=
  Container.adjusts_iff_scans (raised_of_correctSegment h.sound h.entry h.corrects).2 h.moves h.start_nonneg

/-- **What correcting a segment changes, and what decoding it takes.** Where correcting succeeds, the records that change
are the text references within the segment with no record before that leaves the script. They are the ones that decoding
pushes texts with exactly when no text is pushed behind a record that leaves the script, and no text reference behind
the records that decoding takes is reached without such a record. Where correcting fails, a number would not fit a word:
the segment's own offset, and then nothing changes, or the operand of such a reference, and then only those before it
change. -/
theorem adjusts_of_decode (h : Trails settings w j segment change t) :
    ∃ events, Machine.Run settings w.container.bytes (codeStart segment.offset).toNat [] events t.leftover ∧
      (∀ w', correctSegment segment (w.container.segmentEnd j) change w = .ok () w' →
        w'.container.Sound ∧
        (∀ k, w.container.Adjusts w'.container segment k ↔ w.container.Scans j segment k) ∧
        ((∀ k, w.container.Adjusts w'.container segment k ↔ Machine.PushesText events k) ↔
          Machine.LeavesTexts events ∧ ∀ k, events.length ≤ k → ¬w.container.Scans j segment k)) ∧
      ∀ e w', w.container.bytes.length ≤ Stream.lengthLimit →
        correctSegment segment (w.container.segmentEnd j) change w = .error e w' →
        e = .wordOverflow ∧ w'.container.Sound ∧
        ((∃ own, Word.StandsAt w.container.bytes segment.offset.toNat own ∧ ¬Word.Fits (own + change)) ∧ w' = w ∨
          ∃ m r, (w.container.recordsFrom segment)[m]? = some r ∧ w.container.Scans j segment m ∧
            ¬Word.Fits (r.operand + change) ∧
            ∀ k, w.container.Adjusts w'.container segment k ↔ w.container.Scans j segment k ∧ k < m) := by
  have ht := Machine.eq_transcribe_of_decode h.decodes
  have hsucceeds := h.succeeds
  have hinside := h.inside
  rw [ht] at hsucceeds hinside ⊢
  obtain ⟨events, hrun⟩ := Machine.exists_run _ hsucceeds
  refine ⟨events, hrun, fun w' hcorrect => ?_, fun e w' hlength hcorrect => ?_⟩
  · have hadjusts := Corrects.adjusts_iff_scans ⟨h, hcorrect⟩
    refine ⟨sound_of_correctSegment h.sound h.entry hcorrect, hadjusts, ?_⟩
    obtain ⟨-, sentinel, -, hstands⟩ := id hrun
    have hrecords : Machine.records events <+: w.container.recordsFrom segment :=
      (List.prefix_append _ _).trans (Record.standAt_iff_prefix_chop.1 hstands)
    rw [Machine.transcribe_eq_of_run hrun] at hinside
    simp only [hadjusts]
    refine Container.scans_iff_pushesText_iff hrecords ?_
    simp only [codeStart, recordSize] at hinside ⊢
    omega
  · obtain ⟨he, ⟨hown, rfl⟩ | ⟨m, r, hr, hscans, hoperand, hafter, hraised⟩⟩ :=
      raised_of_correctSegment_error h.sound h.entry hlength hcorrect
    · exact ⟨he, h.sound, .inl ⟨hown, rfl⟩⟩
    · refine ⟨he, ?_, .inr ⟨m, r, hr, hscans, hoperand,
        fun k => Container.adjusts_iff_scans_lt hraised h.moves h.start_nonneg⟩⟩
      rw [hafter]
      exact h.sound.withRaised (List.mem_of_getElem? h.entry) hraised fun _ => And.left

/-- A piece is corrected exactly if it can be moved. -/
theorem exists_correctSegment_iff (change : Int) {i : Image} {front back : List Piece} {p : Piece}
    (hpieces : i.pieces = front ++ p :: back) :
    (∃ w', correctSegment ⟨p.id, (i.base + Piece.totalSize front : Nat)⟩ (i.container.segmentEnd front.length) change
      ⟨i.container, []⟩ = .ok () w') ↔ p.Movable change (i.base + Piece.totalSize front) := by
  obtain ⟨left, right, hbytes, hleft⟩ := i.bytes_eq_around hpieces
  have hend := segmentEnd_eq hpieces
  rw [← hleft] at hend ⊢
  have hgives : ∀ c, Gives (correctSegment ⟨p.id, (left.length : Nat)⟩ (i.container.segmentEnd front.length) change)
      ⟨i.container, []⟩ () c ↔ _ := fun _ => gives_correctSegment_iff hbytes rfl hend
  constructor
  · intro h
    obtain ⟨w', hcorrect⟩ := h
    exact ((hgives _).1 ⟨w'.notices, hcorrect⟩).1
  · intro hmovable
    obtain ⟨notices, hcorrect⟩ := (hgives _).2 ⟨hmovable, rfl⟩
    exact ⟨_, hcorrect⟩

/-- A piece that cannot be moved is not corrected. -/
theorem exists_correctSegment_error (change : Int) {i : Image} {front back : List Piece} {p : Piece}
    (hpieces : i.pieces = front ++ p :: back) (hmovable : ¬p.Movable change (i.base + Piece.totalSize front)) :
    ∃ e w', correctSegment ⟨p.id, (i.base + Piece.totalSize front : Nat)⟩ (i.container.segmentEnd front.length) change
      ⟨i.container, []⟩ = .error e w' := by
  cases hcorrect : correctSegment ⟨p.id, (i.base + Piece.totalSize front : Nat)⟩
      (i.container.segmentEnd front.length) change ⟨i.container, []⟩ with
  | ok _ w' => exact absurd ((exists_correctSegment_iff change hpieces).1 ⟨w', hcorrect⟩) hmovable
  | error e w' => exact ⟨e, w', rfl⟩

/-- The segment that calls a sub method is corrected by four, and cannot be corrected by so much that the operand of its
text reference, but not its own offset, would not fit. -/
theorem adjusts_of_decode_calling : ∃ (settings : Settings) (w w' w'' : Workspace) (t : Transcript)
    (events : List Machine.Event),
    Trails settings w 1 ⟨2, 128⟩ 4 t ∧ correctSegment ⟨2, 128⟩ (w.container.segmentEnd 1) 4 w = .ok () w' ∧
      Machine.Run settings w.container.bytes 184 [] events t.leftover ∧ w'.container.Sound ∧
      (∀ k, w.container.Adjusts w'.container ⟨2, 128⟩ k ↔ w.container.Scans 1 ⟨2, 128⟩ k) ∧
      ((∀ k, w.container.Adjusts w'.container ⟨2, 128⟩ k ↔ Machine.PushesText events k) ↔
        Machine.LeavesTexts events ∧ ∀ k, events.length ≤ k → ¬w.container.Scans 1 ⟨2, 128⟩ k) ∧
    Trails settings w 1 ⟨2, 128⟩ 0x7FFFFF50 t ∧
      correctSegment ⟨2, 128⟩ (w.container.segmentEnd 1) 0x7FFFFF50 w = .error .wordOverflow w'' ∧
      ∃ m r, (w.container.recordsFrom ⟨2, 128⟩)[m]? = some r ∧ w.container.Scans 1 ⟨2, 128⟩ m ∧
        ¬Word.Fits (r.operand + 0x7FFFFF50) ∧
        ∀ k, w.container.Adjusts w''.container ⟨2, 128⟩ k ↔ w.container.Scans 1 ⟨2, 128⟩ k ∧ k < m := by
  let settings : Settings := ⟨some "ascii", some 16⟩
  let is : List Instruction := [.pushInt 0x40, .pushInt 7, .pushTrue, .pushText 192, .callSub 2, .pushInt 0, .exit]
  have hpieces : Image.small.pieces = [.leaving] ++ .calling :: [] := rfl
  obtain ⟨w', hcorrect⟩ := (exists_correctSegment_iff 4 hpieces).2 (by decide +kernel)
  obtain ⟨e, w'', hfails⟩ := exists_correctSegment_error 0x7FFFFF50 hpieces (by decide +kernel)
  have htext : Machine.textsOf settings Image.small.bytes 192 = .ok ['a'] := by decide +kernel
  have hperforms : Machine.Performs (Machine.textsOf settings Image.small.bytes) [] is
      [.sub 7 ["\"a\"".toList], .exit 0] [] :=
    .cons (Machine.step_pushInt _) (.cons (Machine.step_pushInt _) (.cons Machine.step_pushTrue
      (.cons (Machine.step_pushText htext) (.cons (Machine.step_callSub rfl rfl rfl)
        (.cons (Machine.step_pushInt _) (.cons (Machine.step_exit _) .nil))))))
  have hdecode := Machine.decode_eq_of_performs hperforms (by rfl : Instruction.finish.toRecord.isSentinel = true)
    (⟨by decide, by decide +kernel⟩ : Record.StandAt Image.small.bytes 184 _)
  have htrails : ∀ change, change ≠ 0 → Trails settings ⟨Image.small.container, []⟩ 1 ⟨2, 128⟩ change _ :=
    fun change hchange => ⟨⟨Image.spelled_small, Image.documented_small⟩, ⟨0, by decide, ⟨1, 36⟩, by decide +kernel, rfl⟩,
      by decide +kernel, hdecode, rfl, by decide +kernel, hchange⟩
  obtain ⟨events, hrun, hsucceeds, -⟩ := adjusts_of_decode (htrails 4 (by decide))
  obtain ⟨hsound, hadjusts, hagree⟩ := hsucceeds w' hcorrect
  obtain ⟨-, -, -, hoverflows⟩ := adjusts_of_decode (htrails 0x7FFFFF50 (by decide))
  obtain ⟨rfl, -, ⟨⟨own, hown, hoverflow⟩, -⟩ | hstops⟩ := hoverflows e w'' (by decide +kernel) hfails
  · obtain rfl : (128 : Int) = own := Word.StandsAt.unique ⟨by decide, by decide +kernel⟩ hown
    exact absurd (by decide) hoverflow
  · exact ⟨settings, _, w', w'', _, events, htrails 4 (by decide), hcorrect, hrun, hsound, hadjusts, hagree,
      htrails 0x7FFFFF50 (by decide), hfails, hstops⟩

end Workspace

/-! ## Where they do not agree -/

/-- A segment that leaves the script and then calls a sub method with a text. -/
def Piece.early : Piece :=
  { Piece.calling with
    own := 136
    code := ([Instruction.pushInt 0, .exit, .pushInt 0x40, .pushInt 7, .pushTrue, .pushText 200, .callSub 2,
      .finish].flatMap fun i => i.toRecord.bytes) ++ [97, 0, 0, 0]
    own_fits := by decide }

/-- A segment without records in front of its sentinel, and the bytes of a text reference behind that. -/
def Piece.empty : Piece :=
  { Piece.leaving with
    id := 3
    own := 292
    code := [Instruction.finish, .pushText 0].flatMap fun i => i.toRecord.bytes
    id_fits := by decide
    own_fits := by decide }

/-- The script and these two segments behind it. -/
def Image.contrary : Image where
  header := ⟨44, 0, 20, 3⟩
  lead := [0, 0, 0, 0] ++ Header.bytes ⟨44, 0, 20, 3⟩
  gap := []
  pieces := [.leaving, .early, .empty]

theorem Image.sound_contrary : contrary.container.Sound :=
  ⟨⟨by decide +kernel, by decide +kernel, by decide +kernel, by decide +kernel, by decide +kernel,
      by decide +kernel⟩,
    ⟨by decide +kernel, by decide +kernel, by decide +kernel, by decide +kernel, by decide +kernel,
      by decide +kernel⟩⟩

namespace Workspace

/-- A text is pushed with a record that does not change. -/
theorem exists_pushesText_not_adjusts : ∃ (settings : Settings) (w w' : Workspace) (t : Transcript)
    (events : List Machine.Event), Corrects settings w w' 1 ⟨2, 136⟩ 4 t ∧
      Machine.Run settings w.container.bytes 192 [] events t.leftover ∧ Machine.PushesText events 5 ∧
      ¬w.container.Adjusts w'.container ⟨2, 136⟩ 5 := by
  let settings : Settings := ⟨some "ascii", some 16⟩
  let is : List Instruction := [.pushInt 0, .exit, .pushInt 0x40, .pushInt 7, .pushTrue, .pushText 200, .callSub 2]
  have hpieces : Image.contrary.pieces = [.leaving] ++ .early :: [.empty] := rfl
  obtain ⟨w', hcorrect⟩ := (exists_correctSegment_iff 4 hpieces).2 (by decide +kernel)
  have htext : Machine.textsOf settings Image.contrary.bytes 200 = .ok ['a'] := by decide +kernel
  have hperforms : Machine.Performs (Machine.textsOf settings Image.contrary.bytes) [] is
      [.exit 0, .sub 7 ["\"a\"".toList]] [] :=
    .cons (Machine.step_pushInt _) (.cons (Machine.step_exit _) (.cons (Machine.step_pushInt _)
      (.cons (Machine.step_pushInt _) (.cons Machine.step_pushTrue (.cons (Machine.step_pushText htext)
        (.cons (Machine.step_callSub rfl rfl rfl) .nil))))))
  have hstands : Record.StandAt Image.contrary.bytes 192
      (is.map Instruction.toRecord ++ [Instruction.finish.toRecord]) := ⟨by decide, by decide +kernel⟩
  have hdecode := Machine.decode_eq_of_performs hperforms rfl hstands
  have hcorrects : Corrects settings ⟨Image.contrary.container, []⟩ w' 1 ⟨2, 136⟩ 4 _ :=
    ⟨⟨Image.sound_contrary, ⟨0, by decide, ⟨1, 44⟩, by decide +kernel, rfl⟩, by decide +kernel, hdecode, rfl,
      by decide +kernel, by decide⟩, hcorrect⟩
  obtain ⟨events, hsteps, hrecords, -⟩ := hperforms
  rw [← hrecords] at hstands
  refine ⟨settings, _, w', _, events, hcorrects, ⟨hsteps, _, rfl, hstands⟩, ?_, fun hadjusts => ?_⟩
  · have hrecord : events[5]?.map Machine.Event.record = some (Instruction.pushText 200).toRecord := by
      rw [← List.getElem?_map]
      exact congrArg (·[5]?) hrecords
    obtain ⟨e, he, hrecord⟩ := Option.map_eq_some_iff.1 hrecord
    exact ⟨e, he, by rw [hrecord]; rfl⟩
  · -- The record with index 1 leaves the script.
    have hstays := ((hcorrects.adjusts_iff_scans 5).1 hadjusts).stays 1 (by decide) Instruction.exit.toRecord
      (by decide +kernel)
    exact absurd hstays (by decide)

/-- A record changes behind the records that decoding takes, of which there is none here. -/
theorem exists_adjusts_of_nil : ∃ (settings : Settings) (w w' : Workspace) (t : Transcript),
    Corrects settings w w' 2 ⟨3, 292⟩ 4 t ∧ Machine.Run settings w.container.bytes 348 [] [] t.leftover ∧
      w.container.Adjusts w'.container ⟨3, 292⟩ 1 := by
  let settings : Settings := ⟨some "ascii", some 16⟩
  have hpieces : Image.contrary.pieces = [.leaving, .early] ++ .empty :: [] := rfl
  obtain ⟨w', hcorrect⟩ := (exists_correctSegment_iff 4 hpieces).2 (by decide +kernel)
  have hstands : Record.StandAt Image.contrary.bytes 348 [Instruction.finish.toRecord] :=
    ⟨by decide, by decide +kernel⟩
  have hrun : Machine.Run settings Image.contrary.bytes 348 [] [] [] := ⟨.nil, _, rfl, hstands⟩
  have hcorrects : Corrects settings ⟨Image.contrary.container, []⟩ w' 2 ⟨3, 292⟩ 4 _ :=
    ⟨⟨Image.sound_contrary, ⟨0, by decide, ⟨1, 44⟩, by decide +kernel, rfl⟩, by decide +kernel,
      Machine.decode_eq_of_run hrun, rfl, by decide +kernel, by decide⟩, hcorrect⟩
  have hscans : Image.contrary.container.Scans 2 ⟨3, 292⟩ 1 := by
    refine ⟨by decide +kernel, ⟨(Instruction.pushText 0).toRecord, by decide +kernel, rfl⟩, fun i hi r hr => ?_⟩
    have hfirst : (Image.contrary.container.recordsFrom ⟨3, 292⟩)[0]? = some Instruction.finish.toRecord := by
      decide +kernel
    obtain rfl : i = 0 := Nat.lt_one_iff.1 hi
    obtain rfl := Option.some.inj (hfirst.symm.trans hr)
    rfl
  exact ⟨settings, _, w', _, hcorrects, hrun, (hcorrects.adjusts_iff_scans 1).2 hscans⟩

/-- **Neither contains the other.** Not all records that texts are pushed with change, and not all that change are
such. -/
theorem not_adjusts_iff_pushesText :
    (¬∀ (settings : Settings) (w w' : Workspace) (j : Nat) (segment : Segment) (change : Int) (t : Transcript)
      (events : List Machine.Event), Corrects settings w w' j segment change t →
      Machine.Run settings w.container.bytes (codeStart segment.offset).toNat [] events t.leftover →
      ∀ k, Machine.PushesText events k → w.container.Adjusts w'.container segment k) ∧
    ¬∀ (settings : Settings) (w w' : Workspace) (j : Nat) (segment : Segment) (change : Int) (t : Transcript)
      (events : List Machine.Event), Corrects settings w w' j segment change t →
      Machine.Run settings w.container.bytes (codeStart segment.offset).toNat [] events t.leftover →
      ∀ k, w.container.Adjusts w'.container segment k → Machine.PushesText events k := by
  constructor
  · intro claim
    obtain ⟨settings, w, w', t, events, hcorrects, hrun, hpushes, hsame⟩ := exists_pushesText_not_adjusts
    exact hsame (claim _ _ _ _ _ _ _ _ hcorrects hrun 5 hpushes)
  · intro claim
    obtain ⟨settings, w, w', t, hcorrects, hrun, hadjusts⟩ := exists_adjusts_of_nil
    obtain ⟨e, he, -⟩ := claim _ _ _ _ _ _ _ _ hcorrects hrun 1 hadjusts
    cases he

end Workspace
end Storyboard
