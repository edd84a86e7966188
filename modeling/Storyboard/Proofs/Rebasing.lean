/-
Assembling commutes with moving.

Elsewhere, lines are assembled to the same records moved, and the same texts behind them. Where they leave the script
and push no text behind that, correcting a segment that holds the one code leaves it with the other
(`Assembly.correctSegment_of_assemble`), unless the offset that the segment starts with does not fit a word then
(`Workspace.correctSegment_of_not_fits`). `Assembly.assemble_relocates` says all of this.
-/
import Storyboard.Proofs.Overflow
import Storyboard.Proofs.Pool

namespace Storyboard

namespace Assembly

open Statement

variable {settings : Settings} {start d : Int} {lines : List Text} {out out' : List UInt8}

/-- A segment that holds assembled lines is corrected to hold what they are assembled to elsewhere. -/
theorem correctSegment_of_assemble (hleaves : Leaves lines) (h : assemble settings start lines = .ok out)
    (h' : assemble settings (start + d) lines = .ok out') {w : Workspace} {segment : Segment} {stop : Int}
    {left right : List UInt8} {p : Piece} (hcode : p.code = padded out)
    (hbytes : w.container.bytes = left ++ (p.bytes ++ right)) (hoffset : segment.offset = left.length)
    (hstop : stop = left.length + p.size) (hreach : stop ≤ Stream.lengthLimit)
    (hown : Word.Fits (p.own + d)) :
    Workspace.Gives (Workspace.correctSegment segment stop d) w ()
      { w.container with bytes := left ++ (Word.toBytes (p.own + d) ++ (p.filler ++ (padded out' ++ right))) } := by
  obtain ⟨hmoved, hfits⟩ := moveCode_padded hleaves h h'
  rw [← hcode] at hmoved hfits
  have hpiece : (p.moved d).bytes = Word.toBytes (p.own + d) ++ (p.filler ++ padded out') := by
    rw [hmoved, ← Word.toBytes_wrap]
    rfl
  refine (Workspace.gives_correctSegment_iff hbytes hoffset hstop).2
    ⟨Piece.movable_of_fits (by omega) hown hfits, ?_⟩
  rw [hpiece, List.append_assoc, List.append_assoc]

/-- **Assembling commutes with moving.** Where lines are assembled at two places, they become the same records, moved by
the distance, and the same texts behind them. Where they also leave the script and push no text behind that, correcting
a segment that holds the one code by the distance makes it hold the other one, and fails, leaving everything as it is,
only if the offset that the segment starts with does not fit a word then. -/
theorem assemble_relocates (h : assemble settings start lines = .ok out)
    (h' : assemble settings (start + d) lines = .ok out') :
    out'.length = out.length ∧
    (∃ (ss : List Statement) (size : Nat) (rs : List Record),
      parseLines lines = .ok ss ∧ totalSize ss = .ok size ∧ (rs.flatMap Record.bytes).length = size ∧
      out = rs.flatMap Record.bytes ++ (texts ss).flatMap settings.stored ∧
      out' = (rs.map (Record.moved d)).flatMap Record.bytes ++ (texts ss).flatMap settings.stored ∧
      ∀ r ∈ rs, r.Fits ∧ (r.moved d).Fits) ∧
    (Leaves lines → ∀ (w : Workspace) (segment : Segment) (stop : Int) (left right : List UInt8) (p : Piece),
      p.code = padded out → w.container.bytes = left ++ (p.bytes ++ right) → segment.offset = left.length →
      stop = left.length + p.size → stop ≤ Stream.lengthLimit →
      (Word.Fits (p.own + d) → ∃ notices, Workspace.correctSegment segment stop d w = .ok ()
        ⟨{ w.container with
            bytes := left ++ (Word.toBytes (p.own + d) ++ (p.filler ++ (padded out' ++ right))) }, notices⟩) ∧
      (¬Word.Fits (p.own + d) → Workspace.correctSegment segment stop d w = .error .wordOverflow w)) := by
  refine ⟨length_assemble h h', ?_, fun hleaves w segment stop left right p hcode hbytes hoffset hstop hreach => ?_⟩
  · obtain ⟨ss, hparse, hstorable, hfits, hfits', rfl, rfl⟩ := exists_statements h h'
    rw [placeOf_add] at hfits' ⊢
    have hrecords := List.forall_mem_map.2 hfits
    have hmoved : ∀ r ∈ recordsOf (listing settings (placeOf start ss + d) ss), r.Fits := List.forall_mem_map.2 hfits'
    rw [listing_add] at hmoved
    refine ⟨ss, codeSize ss, recordsOf (listing settings (placeOf start ss) ss), hparse,
      totalSize_eq_ok_iff.2 ⟨fun s hs => (hstorable s hs).1, rfl⟩, length_records_listing settings _ ss,
      toBytes_listing settings _ ss, ?_, fun r hr => ⟨hrecords r hr, hmoved _ (List.mem_map_of_mem hr)⟩⟩
    rw [← listing_add]
    exact toBytes_listing settings _ ss
  · have hnear : segment.offset < Stream.offsetLimit := by
      simp only [Stream.lengthLimit] at hreach
      simp only [Stream.offsetLimit]
      omega
    exact ⟨fun hown => correctSegment_of_assemble hleaves h h' hcode hbytes hoffset hstop hreach hown,
      Workspace.correctSegment_of_not_fits hbytes hoffset hnear⟩

theorem assemble_relocates_call :
    let settings : Settings := ⟨some "ascii", some 16⟩
    let lines : List Text := ["sub007(\"a\");".toList, "exit(0);".toList]
    ∃ (out out' left filler right : List UInt8) (w w' : Workspace),
      assemble settings 76 lines = .ok out ∧ assemble settings (76 + 36) lines = .ok out' ∧ left.length = 20 ∧
      w.container.bytes = left ++ (Word.toBytes 20 ++ (filler ++ padded out) ++ right) ∧
      Workspace.correctSegment ⟨5, 20⟩ 176 36 w = .ok () w' ∧
      w'.container.bytes = left ++ (Word.toBytes 56 ++ (filler ++ (padded out' ++ right))) := by
  intro settings lines
  have hleaves : Leaves lines :=
    ⟨[.sub 7 ["\"a\"".toList]], 0, [], by decide +kernel, by decide, by decide⟩
  obtain ⟨out, hout⟩ : ∃ out, assemble settings 76 lines = .ok out := exists_eq_ok (by decide +kernel)
  obtain ⟨out', hout'⟩ : ∃ out', assemble settings (76 + 36) lines = .ok out' := exists_eq_ok (by decide +kernel)
  have hlength : (padded out).length = 100 := by
    have h : (assemble settings 76 lines).map (fun out => (padded out).length) = .ok 100 := by decide +kernel
    rw [hout] at h
    exact Except.ok.inj h
  let p : Piece := ⟨5, 20, List.replicate 52 0, padded out, by decide, by decide, by decide⟩
  let left : List UInt8 := List.replicate 20 0
  let w : Workspace := { container := { bytes := left ++ (p.bytes ++ [1]) } }
  have hsize : p.size = 156 := by rw [Piece.size, hlength]; rfl
  obtain ⟨-, -, hcorrect⟩ := assemble_relocates hout hout'
  obtain ⟨hcorrected, -⟩ := hcorrect hleaves w ⟨5, 20⟩ 176 left [1] p rfl rfl rfl (by rw [hsize]; rfl) (by decide)
  obtain ⟨notices, hcorrected⟩ := hcorrected (show Word.Fits (20 + 36) by decide)
  exact ⟨out, out', left, p.filler, [1], w, _, hout, hout', rfl, rfl, hcorrected, rfl⟩

end Assembly
end Storyboard
