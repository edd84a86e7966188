/-
Containers that are built from scripts, and why injecting need not build them again.

`Frame.build` lays scripts out one behind another, each assembled for its place. Injecting another script
into such a container gives the very container that is built with that script (`inject_encode`): what is
moved in place is what assembling would have put there.
-/
import Storyboard.Proofs.Loading
import Storyboard.Proofs.Reassembly

namespace Storyboard

/-! ## Scripts -/

/-- What a segment is built from: its identifier, the bytes between its own offset and its records, and the
lines of its script. -/
structure Script where
  id : Int
  filler : List UInt8
  lines : List Text
  id_fits : Word.Fits id
  length_filler : filler.length + 4 = segmentHeaderSize

namespace Script

variable {settings : Settings} {s : Script} {p p' : Piece} {ps ps' : List Piece} {start start' : Nat}
  {change : Int}

/-- The segment of a script at an offset, which must fit a word. -/
def build (settings : Settings) (start : Nat) (s : Script) : Except Error Piece := do
  let code ← Assembly.assemble settings (codeStart start) s.lines
  if h : Word.Fits start then
    return { s with own := start, code := padded code, own_fits := h }
  else throw .wordOverflow

/-- The segments of scripts, one behind another. -/
def buildAll (settings : Settings) : (start : Nat) → List Script → Except Error (List Piece)
  | _, [] => .ok []
  | start, s :: scripts => do
    let p ← s.build settings start
    return p :: (← buildAll settings (start + p.size) scripts)

theorem build_eq_ok_iff : s.build settings start = .ok p ↔
    (∃ code, Assembly.assemble settings (codeStart start) s.lines = .ok code ∧ p.code = padded code) ∧
      p.id = s.id ∧ p.own = start ∧ p.filler = s.filler := by
  unfold build
  rw [except_bind_eq_ok_iff]
  constructor
  · rintro ⟨code, hcode, h⟩
    split at h
    · injection h with h
      rw [← h]
      exact ⟨⟨code, hcode, rfl⟩, rfl, rfl, rfl⟩
    · contradiction
  · rintro ⟨⟨code, hcode, hp⟩, hid, hown, hfiller⟩
    refine ⟨code, hcode, ?_⟩
    rw [dif_pos (hown ▸ p.own_fits)]
    obtain ⟨id, own, filler, _, _, _, _⟩ := p
    simp only at hp hid hown hfiller
    subst hp hid hown hfiller
    rfl

theorem buildAll_cons_eq_ok_iff {scripts : List Script} :
    buildAll settings start (s :: scripts) = .ok ps ↔
      ∃ p ps', s.build settings start = .ok p ∧ buildAll settings (start + p.size) scripts = .ok ps' ∧
        ps = p :: ps' := by
  simp only [buildAll, except_bind_eq_ok_iff]
  constructor
  · rintro ⟨p, hp, ps', hps', h⟩
    injection h with h
    exact ⟨p, ps', hp, hps', h.symm⟩
  · rintro ⟨p, ps', hp, hps', rfl⟩
    exact ⟨p, hp, ps', hps', rfl⟩

theorem buildAll_append_eq_ok_iff {scripts scripts' : List Script} :
    buildAll settings start (scripts ++ scripts') = .ok ps ↔
      ∃ qs qs', buildAll settings start scripts = .ok qs ∧
        buildAll settings (start + Piece.totalSize qs) scripts' = .ok qs' ∧ ps = qs ++ qs' := by
  induction scripts generalizing start ps with
  | nil =>
    constructor
    · intro h
      exact ⟨[], ps, rfl, h, rfl⟩
    · rintro ⟨qs, qs', h, h', rfl⟩
      injection h with h
      subst h
      exact h'
  | cons s scripts ih =>
    simp only [List.cons_append, buildAll_cons_eq_ok_iff, ih]
    constructor
    · rintro ⟨p, _, hp, ⟨qs, qs', hqs, hqs', rfl⟩, rfl⟩
      refine ⟨p :: qs, qs', ⟨p, qs, hp, hqs, rfl⟩, ?_, rfl⟩
      rwa [Piece.totalSize_cons, ← Nat.add_assoc]
    · rintro ⟨_, qs', ⟨p, qs, hp, hqs, rfl⟩, hqs', rfl⟩
      rw [Piece.totalSize_cons, ← Nat.add_assoc] at hqs'
      exact ⟨p, qs ++ qs', hp, ⟨qs, qs', hqs, hqs', rfl⟩, rfl⟩

theorem length_buildAll {scripts : List Script} (h : buildAll settings start scripts = .ok ps) :
    ps.length = scripts.length := by
  induction scripts generalizing start ps with
  | nil =>
    injection h with h
    rw [← h]
    rfl
  | cons s scripts ih =>
    obtain ⟨p, ps, -, hps, rfl⟩ := buildAll_cons_eq_ok_iff.1 h
    rw [List.length_cons, ih hps, List.length_cons]

/-- The table entries of built segments fit. -/
theorem fits_of_mem_entries {scripts : List Script} (h : buildAll settings start scripts = .ok ps) :
    ∀ segment ∈ Piece.entries start ps, segment.Fits := by
  induction scripts generalizing start ps with
  | nil =>
    injection h with h
    rw [← h]
    simp [Piece.entries]
  | cons s scripts ih =>
    obtain ⟨p, ps, hp, hps, rfl⟩ := buildAll_cons_eq_ok_iff.1 h
    obtain ⟨-, -, hown, -⟩ := build_eq_ok_iff.1 hp
    exact List.forall_mem_cons.2 ⟨⟨p.id_fits, hown ▸ p.own_fits⟩, ih hps⟩

/-- Built segments keep the alignment. -/
theorem totalSize_mod {scripts : List Script} (h : buildAll settings start scripts = .ok ps) :
    Piece.totalSize ps % 4 = 0 := by
  induction scripts generalizing start ps with
  | nil =>
    injection h with h
    rw [← h]
    rfl
  | cons s scripts ih =>
    obtain ⟨p, ps, hp, hps, rfl⟩ := buildAll_cons_eq_ok_iff.1 h
    obtain ⟨⟨code, -, hcode⟩, -⟩ := build_eq_ok_iff.1 hp
    have hpadded := length_padded_mod code
    have := ih hps
    simp only [Piece.totalSize_cons, Piece.size, hcode, segmentHeaderSize]
    omega

/-! ## Scripts elsewhere -/

/-- **A segment built elsewhere is the segment moved**, and its scanned records can be moved. -/
theorem build_add (hleaves : Assembly.Leaves s.lines) (hstart : (start' : Int) = start + change)
    (h : s.build settings start = .ok p) (h' : s.build settings start' = .ok p') :
    p' = p.moved change ∧ ∀ r ∈ (scan p.code).1.map (Record.moved change), r.Fits := by
  obtain ⟨⟨code, hcode, hp⟩, hid, hown, hfiller⟩ := build_eq_ok_iff.1 h
  obtain ⟨⟨code', hcode', hp'⟩, hid', hown', hfiller'⟩ := build_eq_ok_iff.1 h'
  have hplace : codeStart (start' : Int) = codeStart start + change := by
    simp only [codeStart]
    omega
  rw [hplace] at hcode'
  obtain ⟨hmoved, hfits⟩ := Assembly.moveCode_padded hleaves hcode hcode'
  have hcode : p'.code = moveCode change p.code := by rw [hp', hp, hmoved]
  refine ⟨?_, by rw [hp]; exact hfits⟩
  have hwrap : Word.wrap (p.own + change) = p'.own := by
    rw [hown, hown', ← hstart, ← hown', Word.wrap_of_fits p'.own_fits]
  obtain ⟨id, own, filler, code, _, _, _⟩ := p
  obtain ⟨id', own', filler', code', _, _, _⟩ := p'
  simp only at hid hid' hfiller hfiller' hcode hwrap
  subst hid hfiller hid' hfiller'
  simp only [Piece.moved, ← hwrap, hcode]

/-- Segments built elsewhere are the segments moved, all of which can be moved. -/
theorem buildAll_add {scripts : List Script} (hleaves : ∀ s ∈ scripts, Assembly.Leaves s.lines)
    (hstart : (start' : Int) = start + change) (h : buildAll settings start scripts = .ok ps)
    (h' : buildAll settings start' scripts = .ok ps')
    (hreach : start + Piece.totalSize ps ≤ Stream.lengthLimit) :
    ps' = ps.map (Piece.moved change) ∧ Piece.AllMovable change start ps := by
  induction scripts generalizing start start' ps ps' with
  | nil =>
    injection h with h
    injection h' with h'
    rw [← h, ← h']
    exact ⟨rfl, trivial⟩
  | cons s scripts ih =>
    obtain ⟨p, ps, hp, hps, rfl⟩ := buildAll_cons_eq_ok_iff.1 h
    obtain ⟨p', ps', hp', hps', rfl⟩ := buildAll_cons_eq_ok_iff.1 h'
    obtain ⟨hs, hscripts⟩ := List.forall_mem_cons.1 hleaves
    obtain ⟨rfl, hfits⟩ := build_add hs hstart hp hp'
    obtain ⟨-, -, hown, -⟩ := build_eq_ok_iff.1 hp
    obtain ⟨-, -, hown', -⟩ := build_eq_ok_iff.1 hp'
    rw [Piece.totalSize_cons] at hreach
    rw [Piece.size_moved] at hps'
    obtain ⟨rfl, hmovable⟩ := ih hscripts (by omega) hps hps' (by omega)
    have hmoved : Word.Fits (p.own + change) := by
      rw [hown, ← hstart, ← hown']
      exact (p.moved change).own_fits
    exact ⟨rfl, Piece.movable_of_fits (by omega) hmoved hfits, hmovable⟩

end Script

/-! ## Frames -/

/-- What a container has besides its segments: the bytes around its header and its table. The header and
the table themselves follow from the segments. -/
structure Frame where
  magic : List UInt8
  headerSize : Int
  between : List UInt8
  gap : List UInt8
  length_magic : magic.length = headerPosition
  headerSize_fits : Word.Fits headerSize

namespace Frame

variable {frame : Frame} {front back pieces : List Piece} {p : Piece} {k : Nat}

/-- Where the table starts: behind the magic, the four words of the header, and what follows these. -/
def tableStart (frame : Frame) : Nat := headerPosition + 16 + frame.between.length

/-- Where the first of so many segments starts. -/
def base (frame : Frame) (count : Nat) : Nat :=
  frame.tableStart + tableEntrySize * count + frame.gap.length

/-- The header when the segment of the index `k` is the script. -/
def header (frame : Frame) (pieces : List Piece) (k : Nat) : Header :=
  ⟨(frame.base pieces.length + Piece.totalSize (pieces.take k) : Nat), frame.headerSize, frame.tableStart,
    pieces.length⟩

/-- The container of some segments. -/
def image (frame : Frame) (pieces : List Piece) (k : Nat) : Image :=
  ⟨frame.header pieces k, frame.magic ++ ((frame.header pieces k).bytes ++ frame.between), frame.gap, pieces⟩

/-- The container that is built from scripts, of which that of the index `k` is the script. -/
def build (settings : Settings) (frame : Frame) (scripts : List Script) (k : Nat) : Except Error Image := do
  let pieces ← Script.buildAll settings (frame.base scripts.length) scripts
  return frame.image pieces k

theorem build_eq_ok_iff {settings : Settings} {scripts : List Script} {i : Image} :
    frame.build settings scripts k = .ok i ↔
      ∃ pieces, Script.buildAll settings (frame.base scripts.length) scripts = .ok pieces ∧
        i = frame.image pieces k := by
  rw [build, except_bind_eq_ok_iff]
  constructor
  · rintro ⟨pieces, hpieces, h⟩
    injection h with h
    exact ⟨pieces, hpieces, h.symm⟩
  · rintro ⟨pieces, hpieces, rfl⟩
    exact ⟨pieces, hpieces, rfl⟩

@[simp] theorem pieces_image : (frame.image pieces k).pieces = pieces := rfl

@[simp] theorem length_lead : (frame.image pieces k).lead.length = frame.tableStart := by
  simp only [image, tableStart, List.length_append, Header.length_bytes, frame.length_magic]
  omega

@[simp] theorem base_image : (frame.image pieces k).base = frame.base pieces.length := by
  rw [Image.base, length_lead]
  rfl

/-- Injecting keeps the frame. -/
theorem injected_image {script : List UInt8} :
    (frame.image (front ++ p :: back) front.length).injected front p back script
      = frame.image (front ++ p.withScript script :: back.map (Piece.moved (p.growth script)))
        front.length := by
  have hheader : frame.header (front ++ p.withScript script :: back.map (Piece.moved (p.growth script)))
      front.length = frame.header (front ++ p :: back) front.length := by simp [header]
  simp only [image, Image.injected, hheader]

/-- The container of segments whose entries fit has the header and the table that its bytes spell. -/
theorem spelled_image
    (hfits : ∀ segment ∈ Piece.entries (frame.base (front ++ p :: back).length) (front ++ p :: back),
      segment.Fits) : (frame.image (front ++ p :: back) front.length).container.Spelled := by
  have hscript : Word.Fits (frame.base (front ++ p :: back).length + Piece.totalSize front : Nat) := by
    rw [Piece.entries_append, Piece.entries] at hfits
    exact (hfits _ (List.mem_append_right _ List.mem_cons_self)).2
  have hheader : (frame.header (front ++ p :: back) front.length).Fits := by
    have htake : (front ++ p :: back).take front.length = front := List.take_left
    refine ⟨by rw [header, htake]; exact hscript, frame.headerSize_fits, ?_, ?_⟩
    all_goals
      simp only [base, tableEntrySize, Word.Fits] at hscript
      simp only [header, Word.Fits]
      omega
  refine ⟨hheader, ?_, Int.natCast_nonneg _, ?_, ?_, ?_⟩
  · show _ <+: (frame.magic ++ (_ ++ frame.between) ++ _ : List UInt8).drop headerPosition
    rw [List.append_assoc, List.append_assoc, ← frame.length_magic, List.drop_left]
    exact List.prefix_append _ _
  · exact Piece.length_entries _ _
  · intro segment hsegment
    rw [← base_image (k := front.length)] at hfits
    exact hfits segment hsegment
  · have hlength : (frame.image (front ++ p :: back) front.length).container.header.tableStart.toNat
        = (frame.image (front ++ p :: back) front.length).lead.length := length_lead.symm
    show _ <+: (_ ++ (_ ++ _) : List UInt8).drop _
    rw [hlength, List.drop_left]
    exact List.prefix_append _ _

end Frame

/-! ## Injecting into a built container -/

namespace Workspace

/-- Encoding lines gives what assembling them for the script's place gives. -/
theorem gives_encode {settings : Settings} {lines : List Text} {w : Workspace} {script : List UInt8}
    (h : Assembly.assemble settings (codeStart w.container.header.scriptStart) lines = .ok script) :
    Gives (encode settings lines) w script w.container := by
  unfold Assembly.assemble at h
  obtain ⟨⟨statements, size⟩, hmeasure, h⟩ := except_bind_eq_ok_iff.1 h
  obtain ⟨assembly, hemit, h⟩ := except_bind_eq_ok_iff.1 h
  injection h with h
  refine ⟨w.notices ++ [.encoding lines.length size], ?_⟩
  unfold encode
  refine Attempt.bind_eq_ok.2 ⟨_, w, Attempt.ofExcept_eq_ok_iff.2 ⟨hmeasure, rfl⟩, ?_⟩
  refine Attempt.bind_eq_ok.2 ⟨(), _, rfl, ?_⟩
  refine Attempt.bind_eq_ok.2 ⟨_, _, rfl, ?_⟩
  refine Attempt.bind_eq_ok.2 ⟨_, _, Attempt.ofExcept_eq_ok_iff.2 ⟨hemit, rfl⟩, ?_⟩
  rw [← h]
  rfl

/-- Segments that can be built where the script leaves them can be moved there, and that moves them to what is
built. -/
theorem injectable_of_buildAll {settings : Settings} {i : Image} {front back back' : List Piece} {p : Piece}
    {scripts : List Script} {script : List UInt8} (hpieces : i.pieces = front ++ p :: back)
    (hleaves : ∀ s ∈ scripts, Assembly.Leaves s.lines)
    (hback : Script.buildAll settings (i.base + Piece.totalSize front + p.size) scripts = .ok back)
    (hback' : Script.buildAll settings (i.base + Piece.totalSize front + (p.withScript script).size) scripts
      = .ok back') (hlength : i.bytes.length ≤ Stream.lengthLimit) :
    back' = back.map (Piece.moved (p.growth script)) ∧ Injectable i front p back script := by
  have hstart : ((i.base + Piece.totalSize front + (p.withScript script).size : Nat) : Int)
      = (i.base + Piece.totalSize front + p.size : Nat) + p.growth script := by
    simp only [Piece.size, Piece.withScript, Piece.growth]
    omega
  have htotal : i.base + Piece.totalSize front + p.size + Piece.totalSize back ≤ Stream.lengthLimit := by
    rw [Image.length_bytes, hpieces, Piece.totalSize_append, Piece.totalSize_cons] at hlength
    omega
  obtain ⟨rfl, hmovable⟩ := Script.buildAll_add hleaves hstart hback hback' htotal
  have hfits := Script.fits_of_mem_entries hback'
  rw [Piece.entries_moved hstart] at hfits
  have htable : i.lead.length + tableEntrySize * (front.length + 1)
      + tableEntrySize * (Piece.entries (i.base + Piece.totalSize front + p.size) back).length
      ≤ Stream.lengthLimit := by
    have hbase : i.lead.length + tableEntrySize * (front.length + 1 + back.length) ≤ i.base := by
      rw [Image.base, hpieces, List.length_append, List.length_cons]
      simp only [tableEntrySize]
      omega
    rw [Piece.length_entries]
    simp only [tableEntrySize] at hbase ⊢
    omega
  refine ⟨rfl, ?_, fun _ => hmovable, fun _ _ => ⟨?_, ?_⟩, fun _ => Segment.allMovable_of_fits htable hfits⟩
  all_goals
    simp only [Piece.size, Stream.lengthLimit, Stream.offsetLimit] at htotal ⊢
    omega

/-- **Injecting gives what building gives.** Where a container is built from scripts, encoding other lines
and injecting them gives the container that is built with these lines, and how much longer that is. -/
theorem inject_encode {settings : Settings} {frame : Frame} {front back : List Script} {s : Script}
    {lines : List Text} {i i' : Image} (w : Workspace)
    (haligned : frame.base (front ++ s :: back).length % 4 = 0)
    (hbefore : frame.build settings (front ++ s :: back) front.length = .ok i)
    (hafter : frame.build settings (front ++ { s with lines } :: back) front.length = .ok i')
    (hlength : i.bytes.length ≤ Stream.lengthLimit) (hleaves : ∀ t ∈ back, Assembly.Leaves t.lines) :
    ∃ w', (do load i.bytes; inject (← encode settings lines) : Editing Int) w
        = .ok (i'.bytes.length - i.bytes.length) w' ∧ w'.container = i'.container := by
  obtain ⟨pieces, hpieces, rfl⟩ := Frame.build_eq_ok_iff.1 hbefore
  obtain ⟨pieces', hpieces', rfl⟩ := Frame.build_eq_ok_iff.1 hafter
  have hcount : (front ++ { s with lines } :: back).length = (front ++ s :: back).length := by simp
  rw [hcount] at hpieces'
  have hfits := Script.fits_of_mem_entries hpieces
  have hlong := Script.length_buildAll hpieces
  -- Both containers have the same segments in front, and the script's segments start at the same place.
  obtain ⟨ps, _, hps, hrest, rfl⟩ := Script.buildAll_append_eq_ok_iff.1 hpieces
  obtain ⟨p, qs, hp, hqs, rfl⟩ := Script.buildAll_cons_eq_ok_iff.1 hrest
  obtain ⟨_, _, hps', hrest', rfl⟩ := Script.buildAll_append_eq_ok_iff.1 hpieces'
  obtain rfl := Except.ok.inj (hps.symm.trans hps')
  obtain ⟨p', qs', hp', hqs', rfl⟩ := Script.buildAll_cons_eq_ok_iff.1 hrest'
  obtain ⟨-, hid, hown, hfiller⟩ := Script.build_eq_ok_iff.1 hp
  obtain ⟨⟨script, hscript, hcode'⟩, hid', hown', hfiller'⟩ := Script.build_eq_ok_iff.1 hp'
  have hfront : ps.length = front.length := Script.length_buildAll hps
  have hmod := Script.totalSize_mod hps
  have hp' : p' = p.withScript script := by
    obtain ⟨id, own, filler, code, _, _, _⟩ := p
    obtain ⟨id', own', filler', code', _, _, _⟩ := p'
    simp only at hid hown hfiller hid' hown' hfiller' hcode'
    subst hid hown hfiller hid' hown' hfiller' hcode'
    rfl
  rw [← hlong] at hfits hqs hqs' haligned hscript
  rw [← hfront] at hlength ⊢
  subst hp'
  rw [← Frame.base_image (k := ps.length)] at hqs hqs'
  obtain ⟨rfl, hinjectable⟩ := injectable_of_buildAll rfl hleaves hqs hqs' hlength
  obtain ⟨notices, hload⟩ := gives_load (Frame.spelled_image hfits) w
  have hstart : (frame.image (ps ++ p :: qs) ps.length).header.scriptStart
      = ((frame.image (ps ++ p :: qs) ps.length).base + Piece.totalSize ps : Nat) := by
    have htake : (ps ++ p :: qs).take ps.length = ps := List.take_left
    simp only [Frame.base_image]
    simp only [Frame.image, Frame.header, htake]
  obtain ⟨notices', hencode⟩ : Gives (encode settings lines)
      ⟨(frame.image (ps ++ p :: qs) ps.length).container, notices⟩ script
      (frame.image (ps ++ p :: qs) ps.length).container := by
    refine gives_encode ?_
    show Assembly.assemble settings (codeStart (frame.image _ _).header.scriptStart) lines = _
    rw [hstart, Frame.base_image]
    exact hscript
  obtain ⟨notices'', hinject⟩ : Gives (inject script)
      ⟨(frame.image (ps ++ p :: qs) ps.length).container, notices'⟩ (p.growth script)
      ((frame.image (ps ++ p :: qs) ps.length).injected ps p qs script).container := by
    refine (gives_inject_iff rfl ?_ hstart ?_ rfl).2 ⟨hinjectable, rfl, rfl⟩
    · rw [Frame.length_lead]
      rfl
    · rw [Frame.base_image]
      omega
  have hgrowth : ((frame.image (ps ++ p.withScript script :: qs.map (Piece.moved (p.growth script)))
        ps.length).bytes.length : Int) - (frame.image (ps ++ p :: qs) ps.length).bytes.length
      = p.growth script := by
    simp only [Image.length_bytes, Frame.base_image, Frame.pieces_image, Piece.totalSize_append,
      Piece.totalSize_cons, Piece.totalSize_map_moved, List.length_append, List.length_cons,
      List.length_map, Piece.size, Piece.withScript, Piece.growth]
    omega
  rw [hgrowth, ← Frame.injected_image]
  exact ⟨_, Attempt.bind_eq_ok.2 ⟨(), _, hload, Attempt.bind_eq_ok.2 ⟨script, _, hencode, hinject⟩⟩, rfl⟩

/-- The script between two others grows by three records, and a call with a text is behind it. -/
theorem inject_encode_between : ∃ (settings : Settings) (frame : Frame) (a b c : Script) (i i' : Image)
    (w : Workspace), a.lines = ["exit(1);".toList] ∧ b.lines = ["exit(0);".toList] ∧
      c.lines = ["sub007(\"a\");".toList, "exit(0);".toList] ∧
      frame.build settings [a, b, c] 1 = .ok i ∧
      frame.build settings [a, { b with lines := ["time = 5;".toList, "exit(2);".toList] }, c] 1 = .ok i' ∧
      (do load i.bytes; inject (← encode settings ["time = 5;".toList, "exit(2);".toList]) : Editing Int) {}
        = .ok 36 w ∧ w.container = i'.container := by
  let settings : Settings := ⟨some "ascii", some 16⟩
  let filler : List UInt8 := List.replicate 0x34 0
  let a : Script := ⟨1, filler, ["exit(1);".toList], by decide, by decide⟩
  let b : Script := ⟨2, filler, ["exit(0);".toList], by decide, by decide⟩
  let c : Script := ⟨3, filler, ["sub007(\"a\");".toList, "exit(0);".toList], by decide, by decide⟩
  let lines : List Text := ["time = 5;".toList, "exit(2);".toList]
  let frame : Frame := ⟨[0, 0, 0, 0], 20, [1, 2, 3, 4], [], by decide, by decide⟩
  obtain ⟨i, hbefore⟩ : ∃ i, frame.build settings [a, b, c] 1 = .ok i := exists_eq_ok (by decide +kernel)
  obtain ⟨i', hafter⟩ : ∃ i', frame.build settings [a, { b with lines }, c] 1 = .ok i' :=
    exists_eq_ok (by decide +kernel)
  have hlength : i.bytes.length = 388 := by
    have h : (frame.build settings [a, b, c] 1).map (·.bytes.length) = .ok 388 := by decide +kernel
    rw [hbefore] at h
    exact Except.ok.inj h
  have hlength' : i'.bytes.length = 424 := by
    have h : (frame.build settings [a, { b with lines }, c] 1).map (·.bytes.length) = .ok 424 := by
      decide +kernel
    rw [hafter] at h
    exact Except.ok.inj h
  have hleaves : ∀ t ∈ [c], Assembly.Leaves t.lines := by
    intro t ht
    rw [List.mem_singleton.1 ht]
    exact ⟨[.sub 7 ["\"a\"".toList]], 0, [], by decide +kernel, by decide +kernel, by decide +kernel⟩
  have hbefore' : frame.build settings ([a] ++ b :: [c]) [a].length = .ok i := hbefore
  have hafter' : frame.build settings ([a] ++ { b with lines } :: [c]) [a].length = .ok i' := hafter
  obtain ⟨w, hw, hcontainer⟩ := inject_encode {} (by decide +kernel) hbefore' hafter'
    (by rw [hlength]; decide) hleaves
  rw [hlength, hlength'] at hw
  exact ⟨settings, frame, a, b, c, i, i', w, rfl, rfl, rfl, hbefore, hafter, hw, hcontainer⟩

end Workspace
end Storyboard
