/-
What remains of a container however many scripts are injected into it.

A container is `Sound` when its header and its table are the ones that its bytes spell and lie as it is
documented. One script keeps that (`Workspace.sound_of_inject`), along with the header, the identifiers and
the own offsets of the segments (`Container.Continues`), and so do any number of them one after another.
-/
import Storyboard.Proofs.Loading

namespace Storyboard

/-! ## Table entries of pieces -/

namespace Piece

theorem map_id_entries (start : Nat) (ps : List Piece) :
    (entries start ps).map Segment.id = ps.map Piece.id := by
  induction ps generalizing start with
  | nil => rfl
  | cons p ps ih => rw [entries, List.map_cons, List.map_cons, ih]

/-- Pieces leave room for each other's segment headers. -/
theorem pairwise_entries (start : Nat) (ps : List Piece) : (entries start ps).Pairwise Container.Precedes := by
  induction ps generalizing start with
  | nil => exact .nil
  | cons p ps ih =>
    refine List.pairwise_cons.2 ⟨?_, ih _⟩
    intro s hs
    have hle := le_offset_of_mem_entries hs
    simp only [Container.Precedes, size] at hle ⊢
    omega

end Piece

/-! ## Sound containers -/

namespace Container

/-- Header and table are those that the bytes spell, and they are laid out as it is documented. -/
structure Sound (c : Container) : Prop where
  spelled : c.Spelled
  documented : c.Documented

/-- The first word of a segment is where the segment starts. -/
def StartsWithOffset (c : Container) (s : Segment) : Prop :=
  ∃ s', Stream.readWordAt s.offset ⟨c.bytes, 0⟩ = .ok s.offset s'

/-- What injecting keeps of a container `c`: its header, the identifiers of its segments, and that
segments start with their offsets. -/
structure Continues (c c' : Container) : Prop where
  header : c'.header = c.header
  ids : c'.segments.map Segment.id = c.segments.map Segment.id
  own : ∀ (k : Nat) (s : Segment), c.segments[k]? = some s → c.StartsWithOffset s →
    ∃ s', c'.segments[k]? = some s' ∧ c'.StartsWithOffset s'

theorem Continues.refl (c : Container) : c.Continues c := ⟨rfl, rfl, fun _ s hs hown => ⟨s, hs, hown⟩⟩

theorem Continues.trans {c₁ c₂ c₃ : Container} (h : c₁.Continues c₂) (h' : c₂.Continues c₃) :
    c₁.Continues c₃ := by
  refine ⟨h'.header.trans h.header, h'.ids.trans h.ids, ?_⟩
  intro k s hs hown
  obtain ⟨s', hs', hown'⟩ := h.own k s hs hown
  exact h'.own k s' hs' hown'

end Container

namespace Image

variable {i : Image} {front back front' back' : List Piece} {p q : Piece} {script : List UInt8}

/-- The container of an image is spelled out when the lead has the header and the entries fit. -/
theorem Scripted.spelled_iff (h : i.Scripted front p back) (hlead : 0x14 ≤ i.lead.length) :
    i.container.Spelled ↔
      i.header.Fits ∧ i.header.bytes <+: i.lead.drop headerPosition ∧
        i.pieces.length = i.header.tableCount.toNat ∧ ∀ s ∈ i.segments, s.Fits := by
  have hlies : i.header.bytes <+: i.bytes.drop headerPosition ↔ i.header.bytes <+: i.lead.drop headerPosition :=
    prefix_drop_append_iff (by rw [Header.length_bytes, headerPosition]; omega)
  have hlength : i.segments.length = i.pieces.length := Piece.length_entries _ _
  constructor
  · intro hspelled
    exact ⟨hspelled.header_fits, hlies.1 hspelled.header_lies, hlength.symm.trans hspelled.table_length,
      hspelled.table_fits⟩
  · intro hspelled
    obtain ⟨hfits, hheader, hcount, hentries⟩ := hspelled
    refine ⟨hfits, hlies.2 hheader, ?_, hlength.trans hcount, hentries, ?_⟩
    · show 0 ≤ i.header.tableStart
      rw [h.table]
      exact Int.natCast_nonneg _
    · show i.segments.flatMap Segment.bytes <+: i.bytes.drop i.header.tableStart.toNat
      rw [h.table, Int.toNat_natCast, bytes, List.drop_left]
      exact List.prefix_append _ _

/-- An image whose script is one of its pieces is laid out as it is documented when its segments are aligned
and the table is behind the header. -/
theorem Scripted.documented (h : i.Scripted front p back) (hlead : 0x14 ≤ i.lead.length)
    (haligned : ∀ s ∈ i.segments, s.offset % alignment = 0) : i.container.Documented := by
  refine ⟨?_, ?_, haligned, Piece.pairwise_entries _ _, ?_, ?_⟩
  · show 0x14 ≤ i.header.tableStart
    rw [h.table]
    omega
  · intro first hfirst
    have hle : (i.base : Int) ≤ first.offset := Piece.le_offset_of_mem_entries (List.mem_of_mem_head? hfirst)
    have hlength : i.container.segments.length = i.pieces.length := Piece.length_entries _ _
    show i.header.tableStart + _ ≤ _
    rw [h.table, hlength]
    simp only [base] at hle
    omega
  · intro last hlast
    show _ ≤ (i.bytes.length : Int)
    rw [length_bytes]
    exact Piece.room_of_mem_entries (List.mem_of_mem_getLast? hlast)
  · refine ⟨⟨p.id, (i.base + Piece.totalSize front : Nat)⟩, ?_, h.script.symm⟩
    exact List.mem_of_getElem? (Workspace.segments_getElem? h.pieces)

/-! ## One script -/

/-- Where segments are aligned, those behind the script move by a multiple of the alignment. -/
theorem Scripted.growth_mod (h : i.Scripted front p back)
    (haligned : ∀ s ∈ i.segments, s.offset % alignment = 0) (hback : back ≠ []) : p.growth script % alignment = 0 := by
  obtain ⟨q, back, rfl⟩ := List.exists_cons_of_ne_nil hback
  have hpieces : i.pieces = (front ++ [p]) ++ q :: back := by rw [h.pieces, List.append_assoc]; rfl
  have hnext := haligned _ (List.mem_of_getElem? (Workspace.segments_getElem? hpieces))
  have hscript := h.aligned
  have hpadded := length_padded_mod script
  simp only [alignment, Piece.totalSize_append, Piece.totalSize_cons, Piece.size, segmentHeaderSize] at hnext
  simp only [Piece.growth, alignment]
  simp only [Piece.totalSize, List.map_nil, List.sum_nil] at hnext hscript
  omega

/-- The segments after a script has been injected are those before, where those behind it have moved. -/
theorem Scripted.mem_segments_injected (h : i.Scripted front p back) {s : Segment}
    (hs : s ∈ (i.injected front p back script).segments) :
    s ∈ i.segments ∨ ∃ s₀ ∈ Piece.entries (i.base + Piece.totalSize front + p.size) back,
      s₀ ∈ i.segments ∧ s = s₀.moved (p.growth script) := by
  rw [Workspace.segments_injected h.pieces] at hs
  rw [Workspace.segments_eq h.pieces]
  rcases List.mem_append.1 hs with hs | hs
  · exact .inl (List.mem_append_left _ hs)
  · obtain ⟨s₀, hs₀, rfl⟩ := List.mem_map.1 hs
    exact .inr ⟨s₀, hs₀, List.mem_append_right _ hs₀, rfl⟩

theorem Scripted.aligned_injected (h : i.Scripted front p back)
    (haligned : ∀ s ∈ i.segments, s.offset % alignment = 0) :
    ∀ s ∈ (i.injected front p back script).segments, s.offset % alignment = 0 := by
  intro s hs
  rcases h.mem_segments_injected hs with hs | ⟨s₀, hback, hs₀, rfl⟩
  · exact haligned s hs
  · have hne : back ≠ [] := by
      rintro rfl
      simp [Piece.entries] at hback
    have hoffset := haligned s₀ hs₀
    have hgrowth : p.growth script % alignment = 0 := h.growth_mod haligned hne
    simp only [Segment.moved, alignment] at hoffset hgrowth ⊢
    omega

theorem Scripted.fits_injected (h : i.Scripted front p back) (hfits : ∀ s ∈ i.segments, s.Fits)
    (hinjectable : Workspace.Injectable i front p back script) :
    ∀ s ∈ (i.injected front p back script).segments, s.Fits := by
  intro s hs
  rcases h.mem_segments_injected hs with hs | ⟨s₀, hback, hs₀, rfl⟩
  · exact hfits s hs
  · refine ⟨(hfits s₀ hs₀).1, ?_⟩
    show Word.Fits (s₀.offset + p.growth script)
    by_cases hzero : p.growth script = 0
    · rw [hzero, Int.add_zero]
      exact (hfits s₀ hs₀).2
    · exact (hinjectable.entries hzero).fits s₀ hback

/-- The first word of a piece says whether its segment starts with its offset. -/
theorem startsWithOffset_iff (hpieces : i.pieces = front ++ p :: back) :
    i.container.StartsWithOffset ⟨p.id, (i.base + Piece.totalSize front : Nat)⟩ ↔
      p.own = (i.base + Piece.totalSize front : Nat) := by
  obtain ⟨left, right, hbytes, hleft⟩ := bytes_eq_around hpieces
  have hsplit : i.container.bytes = left ++ (Word.toBytes p.own ++ (p.filler ++ (p.code ++ right))) := by
    show i.bytes = _
    rw [hbytes, Piece.bytes]
    simp only [List.append_assoc]
  unfold Container.StartsWithOffset
  rw [hsplit]
  simp only [Stream.readWordAt_eq_ok_iff p.own_fits (congrArg Nat.cast hleft.symm)]
  constructor
  · intro hread
    obtain ⟨_, -, hown, -⟩ := hread
    exact hown.symm
  · intro hown
    have hreach := p.own_fits.2
    refine ⟨_, ?_, hown.symm, rfl⟩
    simp only [Stream.offsetLimit]
    omega

/-- The own offset of a piece moves as far as the piece does. -/
theorem Scripted.exists_injected (h : i.Scripted front p back) (script : List UInt8)
    (hpieces : i.pieces = front' ++ q :: back') :
    ∃ (before : List Piece) (q' : Piece) (behind : List Piece) (d : Int),
      (i.injected front p back script).pieces = before ++ q' :: behind ∧
        before.length = front'.length ∧ (Piece.totalSize before : Int) = Piece.totalSize front' + d ∧
        q'.own = Word.wrap (q.own + d) := by
  have hstays : q.own = Word.wrap (q.own + 0) := by rw [Int.add_zero, Word.wrap_of_fits q.own_fits]
  by_cases hlength : front'.length = front.length
  · obtain ⟨rfl, htail⟩ := List.append_inj (hpieces.symm.trans h.pieces) hlength
    injection htail with hq hback
    subst hq
    exact ⟨front', q.withScript script, _, 0, rfl, rfl, (Int.add_zero _).symm, hstays⟩
  rcases Piece.before_or_behind (h.pieces.symm.trans hpieces) hlength with ⟨mid, rfl, rfl⟩ | ⟨mid, rfl, rfl⟩
  · refine ⟨front', q, mid ++ p.withScript script :: back.map (Piece.moved (p.growth script)), 0, ?_, rfl,
      (Int.add_zero _).symm, hstays⟩
    simp [Image.injected]
  · refine ⟨front ++ p.withScript script :: mid.map (Piece.moved (p.growth script)),
      q.moved (p.growth script), back'.map (Piece.moved (p.growth script)), p.growth script, ?_, ?_, ?_, rfl⟩
    · simp [Image.injected]
    · simp
    · simp only [Piece.totalSize_append, Piece.totalSize_cons, Piece.totalSize_map_moved, Piece.size,
        Piece.withScript, Piece.growth]
      omega

end Image

namespace Workspace

variable {script : List UInt8} {w w' : Workspace} {change : Int}

/-- **One script.** Injecting keeps a container sound, and the container continues. -/
theorem sound_of_inject (hsound : w.container.Sound) (hinject : inject script w = .ok change w') :
    w'.container.Sound ∧ w.container.Continues w'.container := by
  obtain ⟨hspelled, hdocumented⟩ := hsound
  obtain ⟨i, front, p, back, hcontainer, hscripted⟩ := Container.exists_scripted hspelled hdocumented
  obtain ⟨hinjectable, -, hw'⟩ := hscripted.of_inject hcontainer.symm hinject
  rw [← hcontainer] at hspelled hdocumented ⊢
  have hlead : 0x14 ≤ i.lead.length := by
    have htable : 0x14 ≤ i.header.tableStart := hdocumented.table_start
    rw [hscripted.table] at htable
    omega
  have hafter := hscripted.injected script
  obtain ⟨hheader, hlies, hcount, hfits⟩ := (hscripted.spelled_iff hlead).1 hspelled
  have hpieces : (i.injected front p back script).pieces.length = i.pieces.length := by
    simp [Image.injected, hscripted.pieces]
  have hfits' := hscripted.fits_injected hfits hinjectable
  have hspelled' : (i.injected front p back script).container.Spelled :=
    (hafter.spelled_iff hlead).2 ⟨hheader, hlies, hpieces.trans hcount, hfits'⟩
  have hdocumented' : (i.injected front p back script).container.Documented :=
    hafter.documented hlead (hscripted.aligned_injected hdocumented.aligned)
  rw [hw']
  refine ⟨⟨hspelled', hdocumented'⟩, rfl, ?_, ?_⟩
  · show (i.injected front p back script).segments.map Segment.id = i.segments.map Segment.id
    rw [Image.segments, Image.segments, Piece.map_id_entries, Piece.map_id_entries, hscripted.pieces]
    simp [Image.injected, Piece.withScript, Piece.moved]
  · intro k s hs hown
    obtain ⟨front', q, back', hq, rfl, rfl⟩ := Piece.exists_of_getElem?_entries hs
    obtain ⟨before, q', behind, d, hq', hlength, hmoved, hown'⟩ := hscripted.exists_injected script hq
    have hbase : (i.injected front p back script).base = i.base := base_injected hscripted.pieces
    have hs' := segments_getElem? hq'
    rw [hlength] at hs'
    refine ⟨_, hs', (Image.startsWithOffset_iff hq').2 ?_⟩
    -- The moved offset is the one that the table has now, and so fits a word.
    have hoffset := (hfits' _ (List.mem_of_getElem? hs')).2
    have hsum : q.own + d = ((i.injected front p back script).base + Piece.totalSize before : Nat) := by
      rw [(Image.startsWithOffset_iff hq).1 hown, hbase]
      omega
    rw [hown', hsum, Word.wrap_of_fits hoffset]

/-- **Any number of scripts.** -/
theorem sound_of_injects {scripts : List (List UInt8)} {changes : List Int} (hsound : w.container.Sound)
    (hinject : scripts.mapM inject w = .ok changes w') :
    w'.container.Sound ∧ w.container.Continues w'.container := by
  induction scripts generalizing w changes with
  | nil =>
    injection hinject with _ hw'
    subst hw'
    exact ⟨hsound, .refl _⟩
  | cons script scripts ih =>
    rw [List.mapM_cons] at hinject
    obtain ⟨change, w₁, hfirst, hrest⟩ := Attempt.bind_eq_ok.1 hinject
    obtain ⟨changes', w₂, hothers, hresult⟩ := Attempt.bind_eq_ok.1 hrest
    injection hresult with _ hw'
    subst hw'
    obtain ⟨hsound₁, hcontinues⟩ := sound_of_inject hsound hfirst
    obtain ⟨hsound₂, hcontinues'⟩ := ih hsound₁ hothers
    exact ⟨hsound₂, hcontinues.trans hcontinues'⟩

/-- **Container and bytes stay in step.** However many scripts are injected into a loaded container of the
documented layout, it is still of that layout, loading its bytes gives the container that is in memory, header
and identifiers are those that were loaded, and a segment that started with its offset still does. -/
theorem load_of_injects {bytes : List UInt8} {w₀ : Workspace} {scripts : List (List UInt8)} {changes : List Int}
    (hload : load bytes w₀ = .ok () w) (hdocumented : w.container.Documented)
    (hinject : scripts.mapM inject w = .ok changes w') :
    w'.container.Documented ∧
      (∀ w₁, ∃ w₂, load w'.container.bytes w₁ = .ok () w₂ ∧ w₂.container = w'.container) ∧
      w'.container.header = w.container.header ∧
      w'.container.segments.map Segment.id = w.container.segments.map Segment.id ∧
      ∀ (k : Nat) (s : Segment), w.container.segments[k]? = some s → w.container.StartsWithOffset s →
        ∃ s', w'.container.segments[k]? = some s' ∧ w'.container.StartsWithOffset s' := by
  obtain ⟨-, hspelled⟩ := gives_load_iff.1 ⟨w.notices, hload⟩
  obtain ⟨⟨hspelled', hdocumented'⟩, hheader, hids, hown⟩ := sound_of_injects ⟨hspelled, hdocumented⟩ hinject
  refine ⟨hdocumented', ?_, hheader, hids, hown⟩
  intro w₁
  obtain ⟨notices, hagain⟩ := gives_load hspelled' w₁
  exact ⟨_, hagain, rfl⟩

/-- The script grows and shrinks, and the segment behind it keeps starting with its offset. -/
theorem load_of_injects_small : ∃ (scripts : List (List UInt8)) (w w' : Workspace) (s : Segment),
    load Image.small.bytes {} = .ok () w ∧ scripts.mapM inject w = .ok [4, -28] w' ∧
      w.container.segments[1]? = some ⟨2, 128⟩ ∧ w'.container.segments[1]? = some s ∧
      w'.container.StartsWithOffset s ∧ w'.container.Documented ∧
      ∃ w₂, load w'.container.bytes {} = .ok () w₂ ∧ w₂.container = w'.container := by
  let shorter : List UInt8 := Instruction.finish.toRecord.bytes
  let longer : List UInt8 := Piece.leaving.code ++ [1]
  have hscripted := Image.scripted_small.injected longer
  obtain ⟨notices, hload⟩ := gives_load Image.spelled_small {}
  obtain ⟨notices₁, h₁⟩ : Gives (inject longer) ⟨Image.small.container, notices⟩ 4 _ :=
    (Image.scripted_small.gives_inject_iff rfl).2 ⟨by decide +kernel, by decide +kernel, rfl⟩
  obtain ⟨notices₂, h₂⟩ : Gives (inject shorter) ⟨_, notices₁⟩ (-28) _ :=
    (hscripted.gives_inject_iff rfl).2 ⟨by decide +kernel, by decide +kernel, rfl⟩
  obtain ⟨w', hinject⟩ : ∃ w',
      [longer, shorter].mapM inject ⟨Image.small.container, notices⟩ = .ok [4, -28] w' := by
    simp only [List.mapM_cons, List.mapM_nil]
    exact ⟨_, Attempt.bind_eq_ok.2 ⟨_, _, h₁, Attempt.bind_eq_ok.2 ⟨_, _,
      Attempt.bind_eq_ok.2 ⟨_, _, h₂, rfl⟩, rfl⟩⟩⟩
  have hpieces : Image.small.pieces = [.leaving] ++ .calling :: [] := rfl
  have hsegment : Image.small.container.segments[1]? = some ⟨2, 128⟩ := by decide +kernel
  have hstarts : Image.small.container.StartsWithOffset ⟨2, 128⟩ := (Image.startsWithOffset_iff hpieces).2 rfl
  obtain ⟨hdocumented, hagain, -, -, hown⟩ := load_of_injects hload Image.documented_small hinject
  obtain ⟨s, hs, hstarts'⟩ := hown 1 _ hsegment hstarts
  exact ⟨_, _, _, s, hload, hinject, hsegment, hs, hstarts', hdocumented, hagain {}⟩

end Workspace
end Storyboard
