/-
What loading gives, and when a loaded container is an image.

`gives_load_iff` says that a container is loaded from bytes exactly when these have its header and, where
the header says, its table. `Container.Documented` is the layout that is documented for containers, and
`exists_image` takes a loaded container of that layout apart.
-/
import Storyboard.Proofs.Injection

namespace Storyboard

namespace Header

/-- The fields of a header fit their words. -/
def Fits (h : Header) : Prop :=
  Word.Fits h.scriptStart ∧ Word.Fits h.headerSize ∧ Word.Fits h.tableStart ∧ Word.Fits h.tableCount

instance (h : Header) : Decidable h.Fits := inferInstanceAs (Decidable (_ ∧ _))

/-- The bytes of a header, from its first field on. -/
def bytes (h : Header) : List UInt8 :=
  Word.toBytes h.scriptStart ++ (Word.toBytes h.headerSize ++ (Word.toBytes h.tableStart
    ++ Word.toBytes h.tableCount))

@[simp] theorem length_bytes (h : Header) : h.bytes.length = 16 := by simp [bytes]

end Header

namespace Container

/-- The header's fields are read where their bytes lie. -/
theorem readHeader_eq_ok_iff {s s' : Stream} {h : Header} :
    readHeader s = .ok h s' ↔
      h.Fits ∧ h.bytes <+: s.bytes.drop headerPosition ∧
        s' = { s with position := headerPosition + h.bytes.length } := by
  unfold readHeader
  simp only [Attempt.bind_eq_ok, Stream.jump_eq_ok_iff, Stream.readWord_eq_ok_iff, Stream.rest]
  constructor
  · rintro ⟨_, _, ⟨-, -, rfl⟩, scriptStart, _, ⟨h1, l1, rfl⟩, headerSize, _, ⟨h2, l2, rfl⟩,
      tableStart, _, ⟨h3, l3, rfl⟩, tableCount, _, ⟨h4, l4, rfl⟩, h⟩
    injection h with h h'
    subst h
    refine ⟨⟨h1, h2, h3, h4⟩, ?_, h'.symm⟩
    simp only [Header.bytes, append_prefix_iff, List.drop_drop, Word.length_toBytes]
    exact ⟨l1, l2, l3, l4⟩
  · rintro ⟨⟨h1, h2, h3, h4⟩, hlies, rfl⟩
    simp only [Header.bytes, append_prefix_iff, List.drop_drop, Word.length_toBytes] at hlies
    obtain ⟨l1, l2, l3, l4⟩ := hlies
    exact ⟨(), _, ⟨by decide, by decide, rfl⟩, _, _, ⟨h1, l1, rfl⟩, _, _, ⟨h2, l2, rfl⟩,
      _, _, ⟨h3, l3, rfl⟩, _, _, ⟨h4, l4, rfl⟩, rfl⟩

/-- Entries are read one behind another. -/
theorem readEntries_eq_ok_iff {count : Nat} {s s' : Stream} {segments : List Segment} :
    readEntries count s = .ok segments s' ↔
      segments.length = count ∧ (∀ segment ∈ segments, segment.Fits) ∧
        segments.flatMap Segment.bytes <+: s.rest ∧
        s' = { s with position := s.position + (segments.flatMap Segment.bytes).length } := by
  induction count generalizing s s' segments with
  | zero =>
    constructor
    · intro h
      injection h with h h'
      subst h h'
      simp
    · rintro ⟨h, -, -, rfl⟩
      obtain rfl := List.eq_nil_of_length_eq_zero h
      rfl
  | succ count ih =>
    unfold readEntries
    simp only [Attempt.bind_eq_ok, Stream.readWord_eq_ok_iff, ih, Stream.rest]
    constructor
    · rintro ⟨id, _, ⟨h1, l1, rfl⟩, offset, _, ⟨h2, l2, rfl⟩, rest, _, ⟨hlength, hfits, hlies, rfl⟩, h⟩
      injection h with h h'
      subst h
      refine ⟨by rw [List.length_cons, hlength], List.forall_mem_cons.2 ⟨⟨h1, h2⟩, hfits⟩, ?_, ?_⟩
      · simp only [List.flatMap_cons, Segment.bytes, append_prefix_iff, List.drop_drop,
          List.length_append, Word.length_toBytes]
        exact ⟨⟨l1, l2⟩, hlies⟩
      · rw [← h']
        simp only [List.flatMap_cons, List.length_append, Segment.length_bytes, tableEntrySize,
          Stream.mk.injEq, true_and]
        omega
    · rintro ⟨hlength, hfits, hlies, rfl⟩
      cases segments with
      | nil => simp at hlength
      | cons segment segments =>
        obtain ⟨⟨h1, h2⟩, hfits⟩ := List.forall_mem_cons.1 hfits
        simp only [List.flatMap_cons, Segment.bytes, append_prefix_iff, List.drop_drop,
          List.length_append, Word.length_toBytes] at hlies
        obtain ⟨⟨l1, l2⟩, hlies⟩ := hlies
        refine ⟨segment.id, _, ⟨h1, l1, rfl⟩, segment.offset, _, ⟨h2, l2, rfl⟩, segments, _,
          ⟨by simpa using hlength, hfits, hlies, rfl⟩, ?_⟩
        show EStateM.Result.ok _ _ = _
        simp only [List.flatMap_cons, List.length_append, Segment.length_bytes, tableEntrySize,
          EStateM.Result.ok.injEq, Stream.mk.injEq, true_and]
        omega

/-- The table is read where the header points. -/
theorem readTable_eq_ok_iff {h : Header} {s s' : Stream} {segments : List Segment} :
    readTable h s = .ok segments s' ↔
      0 ≤ h.tableStart ∧ h.tableStart < Stream.offsetLimit ∧ segments.length = h.tableCount.toNat ∧
        (∀ segment ∈ segments, segment.Fits) ∧
        segments.flatMap Segment.bytes <+: s.bytes.drop h.tableStart.toNat ∧
        s' = { s with position := h.tableStart.toNat + (segments.flatMap Segment.bytes).length } := by
  unfold readTable
  simp only [Attempt.bind_eq_ok, Stream.jump_eq_ok_iff, readEntries_eq_ok_iff, Stream.rest]
  constructor
  · rintro ⟨_, _, ⟨h0, hlt, rfl⟩, h⟩
    exact ⟨h0, hlt, h⟩
  · rintro ⟨h0, hlt, h⟩
    exact ⟨(), _, ⟨h0, hlt, rfl⟩, h⟩

/-- The container has the header and the table that its bytes spell. -/
structure Spelled (c : Container) : Prop where
  header_fits : c.header.Fits
  header_lies : c.header.bytes <+: c.bytes.drop headerPosition
  table_nonneg : 0 ≤ c.header.tableStart
  table_length : c.segments.length = c.header.tableCount.toNat
  table_fits : ∀ segment ∈ c.segments, segment.Fits
  table_lies : c.segments.flatMap Segment.bytes <+: c.bytes.drop c.header.tableStart.toNat

end Container

namespace Workspace

theorem load_eq {bytes : List UInt8} {w : Workspace} :
    load bytes w =
      (onBytes Container.readHeader >>= fun header =>
        modify (fun w => { w with container := { w.container with header } }) >>= fun _ =>
        report (.loaded header.scriptStart header.tableStart header.tableCount) >>= fun _ =>
        onBytes (Container.readTable header) >>= fun segments =>
        modify fun w => { w with container := { w.container with segments } })
        { w with container := { w.container with bytes } } := rfl

/-- **Loading succeeds exactly with the container that the bytes spell.** -/
theorem gives_load_iff {bytes : List UInt8} {w : Workspace} {u : Unit} {c : Container} :
    Gives (load bytes) w u c ↔ c.bytes = bytes ∧ c.Spelled := by
  have hmodify : ∀ {f : Workspace → Workspace} {w w' : Workspace} {u : Unit},
      (modify f : Editing Unit) w = .ok u w' ↔ w' = f w := by
    intro f w w' u
    show EStateM.Result.ok () (f w) = .ok u w' ↔ _
    simp [eq_comm]
  unfold Gives
  rw [load_eq]
  constructor
  · rintro ⟨notices, h⟩
    obtain ⟨header, w₁, hheader, h⟩ := Attempt.bind_eq_ok.1 h
    obtain ⟨s, hread, hc₁⟩ := gives_onBytes_iff.1 ⟨w₁.notices, hheader⟩
    obtain ⟨hfits, hlies, rfl⟩ := Container.readHeader_eq_ok_iff.1 hread
    obtain ⟨_, w₂, hw₂, h⟩ := Attempt.bind_eq_ok.1 h
    obtain rfl := hmodify.1 hw₂
    obtain ⟨_, w₃, hreport, h⟩ := Attempt.bind_eq_ok.1 h
    have hc₃ := gives_report_iff.1 ⟨w₃.notices, hreport⟩
    obtain ⟨segments, w₄, htable, h⟩ := Attempt.bind_eq_ok.1 h
    obtain ⟨s, hread, hc₄⟩ := gives_onBytes_iff.1 ⟨w₄.notices, htable⟩
    rw [hc₃, hc₁] at hread hc₄
    obtain ⟨h0, -, hlength, hsegments, htable, rfl⟩ := Container.readTable_eq_ok_iff.1 hread
    have hw := congrArg Workspace.container (hmodify.1 h)
    rw [hc₄] at hw
    subst hw
    exact ⟨rfl, hfits, hlies, h0, hlength, hsegments, htable⟩
  · rintro ⟨rfl, hfits, hlies, h0, hlength, hsegments, htable⟩
    have hreach : c.header.tableStart < Stream.offsetLimit := by
      have h := hfits.2.2.1
      simp only [Word.Fits] at h
      simp only [Stream.offsetLimit]
      omega
    obtain ⟨notices₁, hheader⟩ : Gives (onBytes Container.readHeader)
        { w with container := { w.container with bytes := c.bytes } } c.header
        { w.container with bytes := c.bytes } :=
      gives_onBytes_iff.2 ⟨_, Container.readHeader_eq_ok_iff.2 ⟨hfits, hlies, rfl⟩, rfl⟩
    obtain ⟨notices₂, hentries⟩ : Gives (onBytes (Container.readTable c.header))
        ⟨⟨c.header, w.container.segments, c.bytes⟩,
          notices₁ ++ [.loaded c.header.scriptStart c.header.tableStart c.header.tableCount]⟩
        c.segments ⟨c.header, w.container.segments, c.bytes⟩ :=
      gives_onBytes_iff.2
        ⟨_, Container.readTable_eq_ok_iff.2 ⟨h0, hreach, hlength, hsegments, htable, rfl⟩, rfl⟩
    refine ⟨notices₂, Attempt.bind_eq_ok.2 ⟨_, _, hheader, ?_⟩⟩
    refine Attempt.bind_eq_ok.2 ⟨(), _, hmodify.2 rfl, ?_⟩
    refine Attempt.bind_eq_ok.2 ⟨(), _, rfl, ?_⟩
    exact Attempt.bind_eq_ok.2 ⟨_, _, hentries, rfl⟩

/-- The bytes of a container give it when they spell it. -/
theorem gives_load {c : Container} (h : c.Spelled) (w : Workspace) : Gives (load c.bytes) w () c :=
  gives_load_iff.2 ⟨rfl, h⟩

end Workspace
/-! ## The documented layout -/

namespace Container

/-- There is room for a segment header between two segments. -/
def Precedes (s s' : Segment) : Prop := s.offset + segmentHeaderSize ≤ s'.offset

instance (s s' : Segment) : Decidable (Precedes s s') := inferInstanceAs (Decidable (_ ≤ _))

/-- The layout that is documented for containers: the table lies behind the header and before the first
segment; segments start at aligned offsets, each at least a segment header behind those before it and
the last one as far before the end; and the script is one of them. -/
structure Documented (c : Container) : Prop where
  table_start : 0x14 ≤ c.header.tableStart
  table_end : ∀ first ∈ c.segments.head?,
    c.header.tableStart + tableEntrySize * c.segments.length ≤ first.offset
  aligned : ∀ segment ∈ c.segments, segment.offset % alignment = 0
  spaced : c.segments.Pairwise Precedes
  room : ∀ last ∈ c.segments.getLast?, last.offset + segmentHeaderSize ≤ c.bytes.length
  script : ∃ segment ∈ c.segments, segment.offset = c.header.scriptStart

/-- Bytes in which segments start far enough from each other are pieces, one for each of them. -/
theorem exists_pieces {segments : List Segment} {s : Segment} {start : Nat} {rest : List UInt8}
    (hstart : s.offset = start) (hfits : ∀ segment ∈ s :: segments, segment.Fits)
    (hspaced : (s :: segments).Pairwise Precedes)
    (hroom : ∀ last ∈ (s :: segments).getLast?,
      last.offset + segmentHeaderSize ≤ (start + rest.length : Nat)) :
    ∃ ps, Piece.entries start ps = s :: segments ∧ ps.flatMap Piece.bytes = rest := by
  induction segments generalizing s start rest with
  | nil =>
    have hlength : segmentHeaderSize ≤ rest.length := by
      have := hroom s rfl
      omega
    obtain ⟨p, hid, hbytes⟩ := Piece.exists_bytes (hfits s List.mem_cons_self).1 hlength
    refine ⟨[p], ?_, by simp [hbytes]⟩
    rw [Piece.entries, Piece.entries, hid, ← hstart]
  | cons s' segments ih =>
    obtain ⟨hs, hfits'⟩ := List.forall_mem_cons.1 hfits
    obtain ⟨hnext, hspaced'⟩ := List.pairwise_cons.1 hspaced
    have hprecedes := hnext s' List.mem_cons_self
    have hlast : ∀ last ∈ (s' :: segments).getLast?,
        last.offset + segmentHeaderSize ≤ (start + rest.length : Nat) := by
      intro last h
      exact hroom last (by simpa using h)
    -- The last segment leaves room for the first piece.
    obtain ⟨last, hmem⟩ : ∃ last, last ∈ (s' :: segments).getLast? :=
      ⟨_, List.getLast?_eq_some_getLast (List.cons_ne_nil _ _)⟩
    have hle : s'.offset ≤ last.offset := by
      rcases List.mem_cons.1 (List.mem_of_getLast? hmem) with rfl | h
      · exact Int.le_refl _
      · have := (List.pairwise_cons.1 hspaced').1 last h
        simp only [Precedes] at this
        omega
    have hroom' := hlast last hmem
    simp only [Precedes] at hprecedes
    obtain ⟨size, hsize⟩ : ∃ size : Nat, s'.offset = (start + size : Nat) :=
      ⟨(s'.offset - start).toNat, by omega⟩
    have hlength : (rest.take size).length = size := by
      rw [List.length_take]
      omega
    obtain ⟨p, hid, hbytes⟩ := Piece.exists_bytes hs.1
      (show segmentHeaderSize ≤ (rest.take size).length by omega)
    have hp : p.size = size := by rw [← Piece.length_bytes, hbytes, hlength]
    have hrest : ∀ last ∈ (s' :: segments).getLast?,
        last.offset + segmentHeaderSize ≤ (start + size + (rest.drop size).length : Nat) := by
      intro last h
      have := hlast last h
      rw [List.length_drop]
      omega
    obtain ⟨ps, hentries, hps⟩ := ih hsize hfits' hspaced' hrest
    refine ⟨p :: ps, ?_, ?_⟩
    · rw [Piece.entries, hp, hentries, hid, ← hstart]
    · rw [List.flatMap_cons, hbytes, hps, List.take_append_drop]

/-- **A loaded container of the documented layout is an image.** -/
theorem exists_image {c : Container} (hc : c.Spelled) (hdoc : c.Documented) :
    ∃ i : Image, i.container = c ∧ i.header.tableStart = i.lead.length := by
  obtain ⟨header, segments, bytes⟩ := c
  obtain ⟨_, hscript, -⟩ := hdoc.script
  obtain ⟨s, segments, rfl⟩ := List.exists_cons_of_ne_nil (List.ne_nil_of_mem hscript)
  have hstart : header.tableStart = header.tableStart.toNat := by
    have := hc.table_nonneg
    simp only at this
    omega
  have hend : header.tableStart + tableEntrySize * (s :: segments).length ≤ s.offset :=
    hdoc.table_end s rfl
  have hroom : s.offset + segmentHeaderSize ≤ bytes.length := by
    have hlast : ((s :: segments).getLast (List.cons_ne_nil s segments)).offset + segmentHeaderSize
        ≤ bytes.length := hdoc.room _ (List.getLast?_eq_some_getLast (List.cons_ne_nil s segments))
    rcases List.mem_cons.1 (List.getLast_mem (List.cons_ne_nil s segments)) with heq | h
    · rw [heq] at hlast
      exact hlast
    · have := (List.pairwise_cons.1 hdoc.spaced).1 _ h
      simp only [Precedes] at this
      omega
  obtain ⟨after, hafter⟩ := hc.table_lies
  simp only at hafter
  have hlength := congrArg List.length hafter
  simp only [List.length_append, Segment.length_flatMap_bytes, List.length_drop] at hlength
  let gap := after.take (s.offset.toNat - header.tableStart.toNat
    - tableEntrySize * (s :: segments).length)
  let tail := after.drop (s.offset.toNat - header.tableStart.toNat
    - tableEntrySize * (s :: segments).length)
  have hgap : gap.length = s.offset.toNat - header.tableStart.toNat
      - tableEntrySize * (s :: segments).length := by
    simp only [gap, List.length_take, tableEntrySize] at hlength hend ⊢
    omega
  have htail : ∀ last ∈ (s :: segments).getLast?,
      last.offset + segmentHeaderSize ≤ (s.offset.toNat + tail.length : Nat) := by
    intro last h
    have := hdoc.room last h
    simp only [tail, List.length_drop, tableEntrySize] at this hlength hend ⊢
    omega
  obtain ⟨ps, hentries, hps⟩ := exists_pieces (show s.offset = s.offset.toNat by omega) hc.table_fits
    hdoc.spaced htail
  have hpieces : ps.length = (s :: segments).length := by rw [← hentries, Piece.length_entries]
  have hlead : (bytes.take header.tableStart.toNat).length = header.tableStart.toNat := by
    rw [List.length_take]
    omega
  let i : Image := ⟨header, bytes.take header.tableStart.toNat, gap, ps⟩
  have hbase : i.base = s.offset.toNat := by
    simp only [Image.base, i, hlead, hgap, hpieces, tableEntrySize] at hend ⊢
    omega
  have hsegments : i.segments = s :: segments := by
    rw [Image.segments, hbase]
    exact hentries
  refine ⟨i, ?_, by rw [hstart]; exact congrArg _ hlead.symm⟩
  have hbytes : i.bytes = bytes := by
    rw [Image.bytes, hsegments]
    show bytes.take _ ++ (_ ++ (gap ++ ps.flatMap Piece.bytes)) = bytes
    rw [hps, List.take_append_drop, hafter, List.take_append_drop]
  rw [Image.container, hsegments, hbytes]

end Container

/-! ## Images of the documented layout -/

/-- The script of an image is the piece between `front` and `back`, and its offset is aligned. -/
structure Image.Scripted (i : Image) (front : List Piece) (p : Piece) (back : List Piece) : Prop where
  pieces : i.pieces = front ++ p :: back
  table : i.header.tableStart = i.lead.length
  script : i.header.scriptStart = (i.base + Piece.totalSize front : Nat)
  aligned : (i.base + Piece.totalSize front) % 4 = 0

/-- **A loaded container of the documented layout is an image whose script is one of its pieces.** -/
theorem Container.exists_scripted {c : Container} (hc : c.Spelled) (hdoc : c.Documented) :
    ∃ (i : Image) (front : List Piece) (p : Piece) (back : List Piece),
      i.container = c ∧ i.Scripted front p back := by
  obtain ⟨i, rfl, htable⟩ := exists_image hc hdoc
  obtain ⟨s, hmem, hscript⟩ := hdoc.script
  obtain ⟨k, hk⟩ := List.getElem?_of_mem hmem
  obtain ⟨front, p, back, hpieces, -, rfl⟩ := Piece.exists_of_getElem?_entries hk
  have haligned := hdoc.aligned _ hmem
  refine ⟨i, front, p, back, rfl, hpieces, htable, hscript.symm, ?_⟩
  simp only [alignment] at haligned
  omega

namespace Image

variable {i : Image} {front back : List Piece} {p : Piece} {script : List UInt8}

/-- Injecting leaves the script where it was. -/
theorem Scripted.injected (h : i.Scripted front p back) (script : List UInt8) :
    (i.injected front p back script).Scripted front (p.withScript script)
      (back.map (Piece.moved (p.growth script))) := by
  have hbase : (i.injected front p back script).base = i.base := Workspace.base_injected h.pieces
  refine ⟨rfl, h.table, ?_, ?_⟩
  · rw [hbase]
    exact h.script
  · rw [hbase]
    exact h.aligned

/-- What injecting gives, and when it succeeds. -/
theorem Scripted.gives_inject_iff (h : i.Scripted front p back) {w : Workspace} (hw : w.container = i.container)
    {change : Int} {c : Container} :
    Workspace.Gives (Workspace.inject script) w change c ↔
      Workspace.Injectable i front p back script ∧ change = p.growth script ∧
        c = (i.injected front p back script).container :=
  Workspace.gives_inject_iff h.pieces h.table h.script h.aligned hw

/-- What injecting a script has done once it has succeeded. -/
theorem Scripted.of_inject (h : i.Scripted front p back) {w w' : Workspace} (hw : w.container = i.container)
    {change : Int} (hinject : Workspace.inject script w = .ok change w') :
    Workspace.Injectable i front p back script ∧ change = p.growth script ∧
      w'.container = (i.injected front p back script).container :=
  (h.gives_inject_iff hw).1 ⟨w'.notices, hinject⟩

end Image

/-! ## A small image -/

/-- A script that leaves at once. -/
def Piece.leaving : Piece where
  id := 1
  own := 36
  filler := List.replicate 0x34 0
  code := [Instruction.pushInt 0, .exit, .finish].flatMap fun i => i.toRecord.bytes
  id_fits := by decide
  own_fits := by decide
  length_filler := by decide

/-- A segment that calls a sub method with a text of its own before it leaves. -/
def Piece.calling : Piece where
  id := 2
  own := 128
  filler := List.replicate 0x34 0
  code := ([Instruction.pushInt 0x40, .pushInt 7, .pushTrue, .pushText 192, .callSub 2, .pushInt 0, .exit,
    .finish].flatMap fun i => i.toRecord.bytes) ++ [97, 0, 0, 0]
  id_fits := by decide
  own_fits := by decide
  length_filler := by decide

/-- The script and the segment behind it, where the table is in front of them. -/
def Image.small : Image where
  header := ⟨36, 0, 20, 2⟩
  lead := [0, 0, 0, 0] ++ Header.bytes ⟨36, 0, 20, 2⟩
  gap := []
  pieces := [.leaving, .calling]

namespace Image

theorem spelled_small : small.container.Spelled :=
  ⟨by decide +kernel, by decide +kernel, by decide +kernel, by decide +kernel, by decide +kernel,
    by decide +kernel⟩

theorem documented_small : small.container.Documented :=
  ⟨by decide +kernel, by decide +kernel, by decide +kernel, by decide +kernel, by decide +kernel,
    by decide +kernel⟩

theorem scripted_small : small.Scripted [] .leaving [.calling] := ⟨rfl, rfl, rfl, rfl⟩

end Image
end Storyboard
