/-
Scripts that are injected one after another.

What moves by one amount and then by another moves by both, so injecting a script forgets what was injected
before it (`Image.injected_injected`), and injecting what was there at first brings the container back
(`Image.Scripted.injected_code`). `inject_inject` says both of loaded containers.
-/
import Storyboard.Proofs.Loading

namespace Storyboard

/-! ## Moving there and back -/

namespace Record

/-- A record that has moved and whose operand fitted comes back. -/
theorem moved_back {r : Record} {change : Int} (hr : r.Fits)
    (h : r.isTextReference = true → Word.Fits (r.operand + change)) :
    (r.moved change).wrapped.moved (-change) = r := by
  cases href : r.isTextReference with
  | false =>
    have hmoved : ∀ change, r.moved change = r := fun change => by simp [moved, href]
    rw [hmoved, wrapped_of_fits hr, hmoved]
  | true =>
    have hthere : r.moved change = { r with operand := r.operand + change } := by simp [moved, href]
    have hwrapped : (r.moved change).wrapped = { r with operand := r.operand + change } := by
      rw [hthere, wrapped, Word.wrap_of_fits (h href)]
    have href' : ({ r with operand := r.operand + change } : Record).isTextReference = true := href
    rw [hwrapped, moved, if_pos href']
    simp only [Int.add_neg_cancel_right]

end Record

/-- References that can be moved can be moved back. -/
theorem Movable.back {change : Int} {position position' : Nat} {rs : List Record}
    (h : Movable change position rs) (hfits : ∀ r ∈ rs, r.Fits)
    (hreach : position' + recordSize * rs.length ≤ Stream.lengthLimit) :
    Movable (-change) position' (rs.map fun r => (r.moved change).wrapped) := by
  refine movable_of_fits (by rwa [List.length_map]) ?_
  intro r hr
  obtain ⟨r', hr', rfl⟩ := List.mem_map.1 hr
  obtain ⟨r, hmem, rfl⟩ := List.mem_map.1 hr'
  rw [Record.moved_back (hfits r hmem) (h.fits r hmem)]
  exact hfits r hmem

namespace Piece

theorem map_moved_moved (a b : Int) (ps : List Piece) :
    (ps.map (moved a)).map (moved b) = ps.map (moved (a + b)) := by
  rw [List.map_map]
  congr 1
  funext p
  exact moved_moved a b p

/-- Pieces that can be moved can be moved back. -/
theorem AllMovable.back {change : Int} {start start' : Nat} {ps : List Piece} (h : AllMovable change start ps)
    (hreach : start' + totalSize ps ≤ Stream.lengthLimit) :
    AllMovable (-change) start' (ps.map (moved change)) := by
  induction ps generalizing start start' with
  | nil => exact trivial
  | cons p ps ih =>
    obtain ⟨⟨-, hown, -, hcode⟩, hps⟩ := h
    have hscan := congrArg List.length (flatMap_bytes_scan p.code)
    rw [List.length_append, Record.length_flatMap_bytes] at hscan
    rw [totalSize_cons] at hreach
    have hsize := hreach
    simp only [size, Stream.lengthLimit] at hsize
    refine ⟨⟨?_, ?_, ?_, ?_⟩, ?_⟩
    · simp only [Stream.offsetLimit]
      omega
    · show Word.Fits (Word.wrap (p.own + change) + -change)
      rw [Word.wrap_of_fits hown, Int.add_neg_cancel_right]
      exact p.own_fits
    · simp only [Stream.offsetLimit]
      omega
    · show Storyboard.Movable _ _ (scan (moveCode change p.code)).1
      rw [scan_moveCode]
      refine hcode.back (fun r => fits_of_mem_scan) ?_
      simp only [Stream.lengthLimit]
      omega
    · rw [size_moved]
      exact ih hps (by omega)

/-! ## One script after another -/

/-- What a piece grows by with one script after another is what it grows by with the latter. -/
theorem growth_add (p : Piece) (script script' : List UInt8) :
    p.growth script + (p.withScript script).growth script' = p.growth script' := by
  simp only [growth, withScript]
  omega

theorem padded_eq {code : List UInt8} (h : code.length % 4 = 0) : padded code = code := by
  have hpadding : Stream.paddingOf code.length 4 = 0 := by simp [Stream.paddingOf, h]
  simp [padded, hpadding]

end Piece

/-- The bytes that an injected script replaces: from the first record of the script to the end of its
segment, which has the given index. -/
def Container.scriptCode (c : Container) (index : Nat) : List UInt8 :=
  (c.bytes.take (c.segmentEnd index).toNat).drop (codeStart c.header.scriptStart).toNat

namespace Image

variable {i : Image} {front back : List Piece} {p : Piece} {script : List UInt8}

/-- **What was injected before does not matter.** -/
theorem injected_injected (i : Image) (front : List Piece) (p : Piece) (back : List Piece)
    (script script' : List UInt8) :
    (i.injected front p back script).injected front (p.withScript script)
        (back.map (Piece.moved (p.growth script))) script'
      = i.injected front p back script' := by
  simp only [injected, Piece.map_moved_moved, Piece.growth_add]
  rfl

/-- **The code of a piece brings the image back.** -/
theorem Scripted.injected_code (h : i.Scripted front p back) (hcode : p.code.length % 4 = 0) :
    i.injected front p back p.code = i := by
  have hpadded := Piece.padded_eq hcode
  have hgrowth : p.growth p.code = 0 := by simp [Piece.growth, hpadded]
  have hscript : p.withScript p.code = p := by simp only [Piece.withScript, hpadded]
  rw [Image.injected, hgrowth, hscript, Piece.map_moved_zero, ← h.pieces]

theorem Scripted.scriptCode_eq (h : i.Scripted front p back) :
    i.container.scriptCode front.length = p.code := by
  have hstart : (codeStart i.container.header.scriptStart).toNat = (Workspace.codeFront i front p).length := by
    rw [Workspace.length_codeFront]
    show (codeStart i.header.scriptStart).toNat = _
    rw [h.script, codeStart]
    omega
  have hend : (i.container.segmentEnd front.length).toNat
      = (Workspace.codeFront i front p ++ p.code).length := by
    rw [Workspace.segmentEnd_eq h.pieces, List.length_append, Workspace.length_codeFront, Piece.size]
    omega
  have hbytes : i.container.bytes = (Workspace.codeFront i front p ++ p.code) ++ back.flatMap Piece.bytes :=
    Workspace.bytes_eq_codeFront h.pieces
  rw [Container.scriptCode, hstart, hend, hbytes, List.take_left, List.drop_left]

/-- The code that a script has replaced can be injected again. -/
theorem Scripted.injectable_code (h : i.Scripted front p back) (hfits : ∀ s ∈ i.segments, s.Fits)
    (hinjectable : Workspace.Injectable i front p back script) (hcode : p.code.length % 4 = 0)
    (hlength : (i.injected front p back script).bytes.length ≤ Stream.lengthLimit) :
    Workspace.Injectable (i.injected front p back script) front (p.withScript script)
      (back.map (Piece.moved (p.growth script))) p.code := by
  have hbase : (i.injected front p back script).base = i.base := Workspace.base_injected h.pieces
  have hgrowth : (p.withScript script).growth p.code = -p.growth script := by
    have hadd := p.growth_add script p.code
    simp only [Piece.growth, Piece.padded_eq hcode] at hadd ⊢
    omega
  have hne : (p.withScript script).growth p.code ≠ 0 → p.growth script ≠ 0 := by
    rw [hgrowth]
    omega
  have htotal : i.base + Piece.totalSize front + (p.withScript script).size + Piece.totalSize back
      ≤ Stream.lengthLimit := by
    have hpieces : (i.injected front p back script).pieces
        = front ++ p.withScript script :: back.map (Piece.moved (p.growth script)) := rfl
    rw [length_bytes, hbase, hpieces, Piece.totalSize_append, Piece.totalSize_cons,
      Piece.totalSize_map_moved] at hlength
    omega
  have hstart : ((i.base + Piece.totalSize front + (p.withScript script).size : Nat) : Int)
      = (i.base + Piece.totalSize front + p.size : Nat) + p.growth script := by
    simp only [Piece.size, Piece.withScript, Piece.growth]
    omega
  refine ⟨?_, ?_, ?_, ?_⟩
  · rw [hbase]
    exact hinjectable.reachable
  · intro hchange
    rw [hbase, hgrowth]
    exact (hinjectable.pieces (hne hchange)).back htotal
  · intro _ _
    rw [hbase, Piece.totalSize_map_moved]
    simp only [Stream.lengthLimit, Stream.offsetLimit] at htotal ⊢
    omega
  · intro _
    -- Moved back, the entries are those that the table had at first.
    have hentries : ((Piece.entries (i.base + Piece.totalSize front + (p.withScript script).size)
          (back.map (Piece.moved (p.growth script)))).map (Segment.moved (-p.growth script)))
        = Piece.entries (i.base + Piece.totalSize front + p.size) back := by
      have hback : Segment.moved (-p.growth script) ∘ Segment.moved (p.growth script) = id := by
        funext s
        show (⟨s.id, s.offset + p.growth script + -p.growth script⟩ : Segment) = s
        rw [Int.add_neg_cancel_right]
      rw [Piece.entries_moved hstart, List.map_map, hback, List.map_id]
    have htable : i.lead.length + tableEntrySize * (front.length + 1) + tableEntrySize * back.length
        ≤ i.base := by
      rw [Image.base, h.pieces, List.length_append, List.length_cons]
      simp only [tableEntrySize]
      omega
    rw [hbase, hgrowth]
    refine Segment.allMovable_of_fits ?_ ?_
    · rw [Piece.length_entries, List.length_map]
      show i.lead.length + _ + _ ≤ _
      omega
    · rw [hentries]
      intro s hs
      refine hfits s ?_
      rw [Workspace.segments_eq h.pieces]
      exact List.mem_append_right _ hs

end Image

/-! ## Injecting twice -/

namespace Workspace

variable {i : Image} {front back : List Piece} {p : Piece} {script script' : List UInt8} {w w₁ w₂ : Workspace}
  {change change₁ : Int}

/-- What two scripts do to an image, one after another. -/
theorem of_inject_inject (h : i.Scripted front p back) (hw : w.container = i.container)
    (hinject : inject script w = .ok change w₁) (hinject' : inject script' w₁ = .ok change₁ w₂) :
    change + change₁ = p.growth script' ∧ w₂.container = (i.injected front p back script').container := by
  obtain ⟨-, rfl, hw₁⟩ := h.of_inject hw hinject
  obtain ⟨-, rfl, hw₂⟩ := (h.injected script).of_inject hw₁ hinject'
  rw [Image.injected_injected] at hw₂
  exact ⟨p.growth_add script script', hw₂⟩

/-- **Injecting depends on the last script only.** Where one script was injected into a loaded container of the
documented layout, injecting another gives what injecting that alone gives, and the changes add up. Injecting
the bytes that were replaced gives the container as it was loaded, if their count is a multiple of four; and
that succeeds, unless the container has become longer than anything can be. -/
theorem inject_inject {bytes : List UInt8} {w₀ : Workspace} (hload : load bytes w₀ = .ok () w)
    (hdocumented : w.container.Documented) (hinject : inject script w = .ok change w₁) :
    (∀ script' change₁ change₂ w₂ w₃, inject script' w₁ = .ok change₁ w₂ → inject script' w = .ok change₂ w₃ →
      w₂.container = w₃.container ∧ change + change₁ = change₂) ∧
    ∀ k, w.container.findSegment w.container.header.scriptStart = .ok k →
      (w.container.scriptCode k).length % 4 = 0 →
      (∀ change₁ w₂, inject (w.container.scriptCode k) w₁ = .ok change₁ w₂ →
        w₂.container = w.container ∧ change + change₁ = 0) ∧
      (w₁.container.bytes.length ≤ Stream.lengthLimit →
        ∃ change₁ w₂, inject (w.container.scriptCode k) w₁ = .ok change₁ w₂) := by
  obtain ⟨-, hspelled⟩ := gives_load_iff.1 ⟨w.notices, hload⟩
  obtain ⟨i, front, p, back, hcontainer, hscripted⟩ := Container.exists_scripted hspelled hdocumented
  have hw := hcontainer.symm
  refine ⟨?_, ?_⟩
  · intro script' change₁ change₂ w₂ w₃ h₂ h₃
    obtain ⟨hchange, hw₂⟩ := of_inject_inject hscripted hw hinject h₂
    obtain ⟨-, rfl, hw₃⟩ := hscripted.of_inject hw h₃
    exact ⟨hw₂.trans hw₃.symm, hchange⟩
  · intro k hk hlength
    obtain rfl : k = front.length := by
      rw [hw] at hk
      have hindex := hscripted.script ▸ findSegment_eq hscripted.pieces
      exact Except.ok.inj (hk.symm.trans hindex)
    rw [hw, hscripted.scriptCode_eq] at hlength ⊢
    refine ⟨?_, ?_⟩
    · intro change₁ w₂ h₂
      obtain ⟨hchange, hw₂⟩ := of_inject_inject hscripted hw hinject h₂
      have hgrowth : p.growth p.code = 0 := by simp [Piece.growth, Piece.padded_eq hlength]
      rw [hscripted.injected_code hlength] at hw₂
      exact ⟨hw₂, hchange.trans hgrowth⟩
    · intro hlong
      obtain ⟨hinjectable, -, hw₁⟩ := hscripted.of_inject hw hinject
      rw [hw₁] at hlong
      rw [hw] at hspelled
      have hagain := hscripted.injectable_code hspelled.table_fits hinjectable hlength hlong
      obtain ⟨notices, h⟩ := ((hscripted.injected script).gives_inject_iff hw₁).2 ⟨hagain, rfl, rfl⟩
      exact ⟨_, _, h⟩

/-- After a script that is longer than what was there, a shorter one and what was there. -/
theorem inject_inject_small : ∃ (longer shorter : List UInt8) (w w₁ w₂ w₃ w₄ : Workspace),
    load Image.small.bytes {} = .ok () w ∧ inject longer w = .ok 4 w₁ ∧
      inject shorter w₁ = .ok (-28) w₂ ∧ inject shorter w = .ok (-24) w₃ ∧ w₂.container = w₃.container ∧
      inject (w.container.scriptCode 0) w₁ = .ok (-4) w₄ ∧ w₄.container = w.container := by
  let shorter : List UInt8 := Instruction.finish.toRecord.bytes
  let longer : List UInt8 := Piece.leaving.code ++ [1]
  let grown : Piece := Piece.leaving.withScript longer
  have hscripted : (Image.small.injected [] .leaving [.calling] longer).Scripted [] grown
      ([Piece.calling].map (Piece.moved (Piece.leaving.growth longer))) :=
    Image.scripted_small.injected longer
  obtain ⟨notices, hload⟩ := gives_load Image.spelled_small {}
  obtain ⟨notices₁, h₁⟩ : Gives (inject longer) ⟨Image.small.container, notices⟩ 4 _ :=
    (Image.scripted_small.gives_inject_iff rfl).2 ⟨by decide +kernel, by decide +kernel, rfl⟩
  obtain ⟨notices₂, h₂⟩ : Gives (inject shorter) ⟨_, notices₁⟩ (-28) _ :=
    (hscripted.gives_inject_iff rfl).2 ⟨by decide +kernel, by decide +kernel, rfl⟩
  obtain ⟨notices₃, h₃⟩ : Gives (inject shorter) ⟨Image.small.container, notices⟩ (-24) _ :=
    (Image.scripted_small.gives_inject_iff rfl).2 ⟨by decide +kernel, by decide +kernel, rfl⟩
  obtain ⟨hagain, hback⟩ := inject_inject hload Image.documented_small h₁
  have hfound : Image.small.container.findSegment 36 = .ok 0 := by decide +kernel
  have haligned : (Image.small.container.scriptCode 0).length % 4 = 0 := by decide +kernel
  have hlong : (Image.small.injected [] .leaving [.calling] longer).bytes.length ≤ Stream.lengthLimit := by
    decide +kernel
  obtain ⟨hrestored, hsucceeds⟩ := hback 0 hfound haligned
  obtain ⟨change₁, w₄, h₄⟩ := hsucceeds hlong
  obtain ⟨hw₄, hchange⟩ := hrestored _ _ h₄
  obtain rfl : change₁ = -4 := by omega
  exact ⟨longer, shorter, _, _, _, _, w₄, hload, h₁, h₂, h₃, (hagain _ _ _ _ _ h₂ h₃).1, h₄, hw₄⟩

end Workspace
end Storyboard
