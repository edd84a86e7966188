/-
What decoding, loading and changing a container can fail with.

Decoding with supported settings fails with causes that lie in the storyboard, so that it always gives a result
(`Container.exists_decode`). Loading does so too (`Workspace.ends_load`), and lines are injected into what has been
loaded unless they or the storyboard are at fault, or for one of the few causes that escape
(`Workspace.ends_injectLines`).
-/
import Storyboard.Proofs.Faults
import Storyboard.Proofs.Loading
import Storyboard.Proofs.Machine
import Storyboard.Proofs.Patching

namespace Storyboard

variable {α : Type} {settings : Settings} {P : Error → Prop}

/-! ## Decoding -/

namespace Error

theorem endsDecoding_of_isScriptFault {e : Error} (h : e.isScriptFault = true) : e.endsDecoding = true := by
  cases e <;> first | rfl | exact h

theorem failsFile_of_endsDecoding {e : Error} (h : e.endsDecoding = true) : e.failsFile = true := by
  cases e <;> first | rfl | exact h

end Error

namespace Stream

variable {target : Int} {s : Stream}

/-- A word is within reach, and so is what is not far behind it. -/
theorem not_far {v : Int} (h : Word.Fits v) (htarget : target ≤ v + 0x100) : ¬offsetLimit ≤ target := by
  simp only [Word.Fits] at h
  simp only [offsetLimit]
  omega

theorem not_far_codeStart {v : Int} (h : Word.Fits v) : ¬offsetLimit ≤ codeStart v :=
  not_far h (by simp only [codeStart, segmentHeaderSize]; omega)

/-- Going to a position fails where there is none, or where none is within reach. -/
theorem ends_jump (hP : ∀ e, e.isScriptFault = true → P e) (hreach : offsetLimit ≤ target → P .offsetOverflow) :
    Attempt.Ends (fun _ t => 0 ≤ target ∧ t = { s with position := target.toNat }) (fun e _ => P e)
      (jump target s) := by
  unfold jump
  by_cases hneg : target < 0
  · rw [if_pos hneg]
    exact hP _ rfl
  · rw [if_neg hneg]
    by_cases hlimit : offsetLimit ≤ target
    · rw [if_pos hlimit]
      exact hreach hlimit
    · rw [if_neg hlimit]
      exact ⟨Int.not_lt.1 hneg, rfl⟩

/-- Work somewhere fails as the work does there, or because it is not gone there. -/
theorem ends_elsewhere {work : Streaming α} {post : α → Stream → Prop} (hP : ∀ e, e.isScriptFault = true → P e)
    (hreach : offsetLimit ≤ target → P .offsetOverflow)
    (hwork : 0 ≤ target → Attempt.Ends (fun a t => post a { t with position := s.position }) (fun e _ => P e)
      (work { s with position := target.toNat })) :
    Attempt.Ends post (fun e _ => P e) (elsewhere target work s) := by
  unfold elsewhere returning
  refine .within ((ends_jump hP hreach).bind fun _ t ht => ?_)
  rw [ht.2]
  exact hwork ht.1

theorem ends_readText (hsettings : settings.Supported) :
    Attempt.Ends (fun _ _ => True) (fun e _ => e.endsDecoding = true) (readText settings s) := by
  unfold readText readTextWith
  obtain ⟨limit, hlimit⟩ := Option.isSome_iff_exists.1 hsettings.scanLimit
  rw [hlimit]
  dsimp only
  split
  · rfl
  · cases hdecode : settings.decodeTextWith Settings.decoders ((s.rest.take limit.toNat).takeWhile (· ≠ 0)) with
    | ok t => trivial
    | error e => exact Settings.failsOnly_decodeText hsettings _ e hdecode

theorem ends_readRecord :
    Attempt.Ends (fun r t => r.Fits ∧ t = { s with position := s.position + recordSize } ∧
      s.position + recordSize ≤ s.bytes.length) (fun e _ => e.isScriptFault = true) (Record.read s) := by
  cases hread : Record.read s with
  | ok r t =>
    obtain ⟨hfits, -, ht⟩ := Record.read_eq_ok_iff.1 hread
    exact ⟨hfits, ht, (Record.read_eq_ok hread).2⟩
  | error e t =>
    unfold Record.read at hread
    split at hread
    · cases hread
    · cases hread
      rfl

end Stream

/-- What an instruction takes from a record that fits is a word. -/
theorem Record.fits_operand {r : Record} {i : Instruction} (hr : r.Fits) (h : r.instruction? = some i) :
    Word.Fits i.toRecord.operand := by
  have hcases : i.toRecord.operand = r.operand ∨ i.toRecord.operand = 0 := by
    unfold Record.instruction? at h
    grind [Instruction.toRecord]
  cases hcases with
  | inl hoperand =>
    rw [hoperand]
    exact hr.2.2
  | inr hzero =>
    rw [hzero]
    decide

namespace Stack

variable {s : Stack}

theorem ends_pop : Attempt.Ends (fun _ _ => True) (fun e _ => e.isScriptFault = true) (pop s) := by
  cases s with
  | nil => rfl
  | cons v s => trivial

theorem ends_popAs (kind : Value.Kind) (view : Value → Option α) :
    Attempt.Ends (fun _ _ => True) (fun e _ => e.isScriptFault = true) (popAs kind view s) := by
  refine ends_pop.bind fun v _ _ => ?_
  cases view v with
  | some a => trivial
  | none => rfl

theorem ends_popArguments (needed : Nat) (marked : Bool) (found : List Text) :
    Attempt.Ends (fun _ _ => True) (fun e _ => e.isScriptFault = true) (popArguments needed marked found s) := by
  fun_induction popArguments needed marked found s with
  | case1 => trivial
  | case2 => rfl
  | case3 needed marked found s ih => exact ih
  | case4 needed marked found v s hv e he =>
    cases v with
    | float32 x =>
      unfold Value.argument at he
      dsimp only at he
      split at he
      · cases he
      · cases he
        rfl
    | int32 | text => cases he
    | bool | null | uint16 =>
      cases he
      rfl
  | case5 needed marked found v s hv t ht ih => exact ih

theorem ends_popDescriptor :
    Attempt.Ends (fun _ _ => True) (fun e _ => e.isScriptFault = true) (popDescriptor s) := by
  unfold popDescriptor
  split
  · split
    · trivial
    · rfl
  · rfl
  · rfl

/-- **Taking a record** fails only because of what it is and what is on the stack. -/
theorem ends_perform {record : Record} (hfits : record.Fits) (position : Int) :
    Attempt.Ends (fun _ _ => True) (fun e _ => e.isScriptFault = true) (perform record position s) := by
  unfold perform
  cases hi : record.instruction? with
  | none => rfl
  | some i =>
    cases i with
    | pushInt | pushTrue | pushNull | pushCode => trivial
    | pushText | finish => rfl
    | pushFloat bits =>
      have hbits : Word.Fits bits := Record.fits_operand hfits hi
      have hx : Number.Binary.ofWord? bits = some (.ofBits (Word.pattern bits)) := if_pos hbits
      dsimp only
      rw [hx]
      trivial
    | call =>
      refine (ends_popAs _ _).bind fun code t _ => ?_
      by_cases hcode : code = 0
      · rw [if_pos hcode]
        exact (ends_popAs _ _).bind fun _ _ _ => trivial
      · rw [if_neg hcode]
        trivial
    | exit => exact (ends_popAs _ _).bind fun _ _ _ => trivial
    | callSub count =>
      exact (ends_popArguments _ _ _).bind fun _ _ _ => ends_popDescriptor.bind fun _ _ _ => trivial

end Stack

namespace Machine

variable {bytes : List UInt8}

/-- Looking up the text of a word fails only because there is none. -/
theorem failsOnly_textsOf (hsettings : settings.Supported) {operand : Int} (hoperand : Word.Fits operand) :
    FailsOnly (fun e => e.endsDecoding = true) (textsOf settings bytes operand) := by
  have hnear : ¬Stream.offsetLimit ≤ operand + textOperandBias :=
    Stream.not_far hoperand (by simp only [textOperandBias]; omega)
  have hread : Attempt.Ends (fun _ _ => True) (fun e _ => e.endsDecoding = true)
      (Stream.readTextAt settings (operand + textOperandBias) ⟨bytes, 0⟩) :=
    Stream.ends_elsewhere (fun _ => Error.endsDecoding_of_isScriptFault) (fun hfar => absurd hfar hnear)
      fun _ => Stream.ends_readText hsettings
  exact hread.failsOnly

theorem ends_step (hsettings : settings.Supported) {record : Record} (hfits : record.Fits) {position : Int}
    {s : Stack} :
    Attempt.Ends (fun _ _ => True) (fun e _ => e.endsDecoding = true)
      (step (textsOf settings bytes) record position s) := by
  have hperform := (Stack.ends_perform (s := s) hfits position).imp_fault
    fun _ _ => Error.endsDecoding_of_isScriptFault
  unfold step
  cases hi : record.instruction? with
  | none => exact hperform
  | some i =>
    cases i with
    | pushText operand =>
      have hoperand : Word.Fits operand := Record.fits_operand hfits hi
      have htext : Attempt.Ends (fun _ _ => True) (fun e _ => e.endsDecoding = true)
          ((Attempt.ofExcept (textsOf settings bytes operand) : Stacking Text) s) :=
        .ofExcept (fun _ _ => trivial) fun e he => failsOnly_textsOf hsettings hoperand e he
      exact htext.bind fun t _ _ => trivial
    | _ => exact hperform

end Machine

/-- **A run that fails** does so because of the storyboard, where the settings are supported. -/
theorem Decoder.endsDecoding_of_failure (d : Decoder) (hsettings : d.settings.Supported) :
    ∀ e ∈ d.transcribe.failure, e.endsDecoding = true := by
  fun_induction Decoder.transcribe d with
  | case1 d e d' hread =>
    intro e' he'
    obtain rfl := Option.some.inj he'
    have hends : Attempt.Ends (fun _ _ => True) (fun e _ => e.isScriptFault = true) (onStream Record.read d) :=
      .within Stream.ends_readRecord.forget
    rw [hread] at hends
    exact Error.endsDecoding_of_isScriptFault hends
  | case2 => exact fun e he => by cases he
  | case3 d record d' hread hsentinel e d'' hrun =>
    intro e' he'
    obtain rfl := Option.some.inj he'
    obtain ⟨hstands, rfl⟩ := Machine.onStream_read_eq_ok_iff.1 hread
    have hfits : record.Fits := hstands.1 record List.mem_cons_self
    have hends : Attempt.Ends (fun _ _ => True) (fun e _ => e.endsDecoding = true)
        (Decoder.execute record d.stream.position
          ⟨d.settings, ⟨d.stream.bytes, d.stream.position + recordSize⟩, d.stack⟩) := by
      rw [Machine.execute_eq]
      exact .within (Machine.ends_step hsettings hfits)
    rw [hrun] at hends
    exact hends
  | case4 d record d' hread hsentinel statement d'' hrun ih =>
    obtain ⟨hstands, rfl⟩ := Machine.onStream_read_eq_ok_iff.1 hread
    obtain ⟨s', hstep, rfl⟩ := Machine.execute_eq_ok_iff.1 hrun
    exact ih hsettings

/-- A run whose failure lies in the storyboard is a result. -/
theorem Decoder.decode_eq_transcribe {d : Decoder} (h : ∀ e ∈ d.transcribe.failure, e.endsDecoding = true) :
    d.decode = .ok d.transcribe := by
  unfold decode
  dsimp only
  split
  · next e he => rw [if_pos (h e he)]
  · rfl

/-- **Decoding a container gives a result**, which may be that the storyboard is at fault. -/
theorem Container.exists_decode {c : Container} (hsettings : settings.Supported)
    (hstart : Word.Fits c.header.scriptStart) :
    ∃ t, c.decode settings = .ok t ∧ ∀ e ∈ t.failure, e.endsDecoding = true := by
  have hjump : Attempt.Ends (fun _ d => d.settings = settings) (fun e _ => e.isScriptFault = true)
      (Decoder.jump (codeStart c.header.scriptStart) (.ofBytes settings c.bytes)) := by
    unfold Decoder.jump Decoder.onStream
    have hthere := Stream.ends_jump (s := ⟨c.bytes, 0⟩) (fun _ h => h)
      fun hfar => absurd hfar (Stream.not_far_codeStart hstart)
    exact .within (hthere.imp (fun _ _ _ => rfl) fun _ _ h => h)
  unfold decode
  cases hresult : Decoder.jump (codeStart c.header.scriptStart) (.ofBytes settings c.bytes) with
  | error e d =>
    rw [hresult] at hjump
    have hfault : e.isScriptFault = true := hjump
    dsimp only
    rw [if_pos hfault]
    refine ⟨_, rfl, fun e' he' => ?_⟩
    rw [← Option.some.inj he']
    exact Error.endsDecoding_of_isScriptFault hfault
  | ok _ d =>
    rw [hresult] at hjump
    have hd : d.settings = settings := hjump
    have hends := d.endsDecoding_of_failure (hd ▸ hsettings)
    exact ⟨d.transcribe, Decoder.decode_eq_transcribe hends, hends⟩

/-! ## Loading -/

theorem Stream.ends_readWord {s : Stream} :
    Attempt.Ends (fun v _ => Word.Fits v) (fun e _ => e.isScriptFault = true) (readWord s) := by
  rw [readWord_eq]
  split
  · exact Word.fits_ofBytes ..
  · rfl

namespace Container

variable {s : Stream}

theorem ends_readHeader :
    Attempt.Ends (fun h _ => h.Fits) (fun e _ => e.isScriptFault = true) (readHeader s) := by
  refine (Stream.ends_jump (fun _ h => h) fun hfar => absurd hfar (by decide)).bind fun _ _ _ => ?_
  refine Stream.ends_readWord.bind fun _ _ hscript => Stream.ends_readWord.bind fun _ _ hsize => ?_
  refine Stream.ends_readWord.bind fun _ _ htable => Stream.ends_readWord.bind fun _ _ hcount => ?_
  exact ⟨hscript, hsize, htable, hcount⟩

theorem ends_readEntries {count : Nat} :
    Attempt.Ends (fun _ _ => True) (fun e _ => e.isScriptFault = true) (readEntries count s) := by
  induction count generalizing s with
  | zero => trivial
  | succ count ih =>
    exact Stream.ends_readWord.bind fun _ _ _ => Stream.ends_readWord.bind fun _ _ _ => ih.bind fun _ _ _ => trivial

theorem ends_readTable {h : Header} (hfits : h.Fits) :
    Attempt.Ends (fun _ _ => True) (fun e _ => e.isScriptFault = true) (readTable h s) := by
  have hnear : ¬Stream.offsetLimit ≤ h.tableStart := Stream.not_far hfits.2.2.1 (by omega)
  exact (Stream.ends_jump (fun _ h => h) fun hfar => absurd hfar hnear).bind fun _ _ _ => ends_readEntries

end Container

namespace Workspace

variable {w : Workspace}

theorem ends_onBytes {post : α → Workspace → Prop} {work : Streaming α}
    (h : Attempt.Ends (fun a s => post a { w with container := { w.container with bytes := s.bytes } })
      (fun e _ => P e) (work ⟨w.container.bytes, 0⟩)) :
    Attempt.Ends post (fun e _ => P e) (onBytes work w) := .within h

/-- **Loading gives the container that the bytes spell**, or fails because they spell none. -/
theorem ends_load {bytes : List UInt8} :
    Attempt.Ends (fun _ w' => w'.container.bytes = bytes ∧ w'.container.Spelled)
      (fun e _ => e.isScriptFault = true) (load bytes w) := by
  have hfaults : Attempt.Ends (fun _ _ => True) (fun e _ => e.isScriptFault = true) (load bytes w) := by
    have hheader : ∀ w, Attempt.Ends (fun h _ => h.Fits) (fun e _ => e.isScriptFault = true)
        (onBytes Container.readHeader w) :=
      fun _ => ends_onBytes Container.ends_readHeader
    have htable : ∀ {h : Header}, h.Fits → ∀ w, Attempt.Ends (fun _ _ => True) (fun e _ => e.isScriptFault = true)
        (onBytes (Container.readTable h) w) :=
      fun hfits _ => ends_onBytes (Container.ends_readTable hfits)
    rw [load_eq]
    refine (hheader _).bind fun header _ hfits => .of_modify (.of_modify ?_)
    exact (htable hfits _).bind fun _ _ _ => trivial
  cases hload : load bytes w with
  | ok _ w' => exact gives_load_iff.1 ⟨w'.notices, hload⟩
  | error e w' =>
    rw [hload] at hfaults
    exact hfaults

end Workspace

/-! ## Changing -/

namespace Stream

variable {target v : Int} {s : Stream}

/-- Writing fails where there is no room. Either nothing is written, or it ends without a gap before it. -/
theorem ends_write {data : List UInt8} (hroom : ¬s.HasRoom data.length → P (gapFault (s.position + data.length))) :
    Attempt.Ends (fun _ t => t = s ∨ t.position ≤ t.bytes.length) (fun e _ => P e) (write data s) := by
  by_cases h : s.HasRoom data.length
  · obtain ⟨bytes, hbytes, hwrite⟩ := exists_write h
    by_cases hdata : data = []
    · subst hdata
      exact .inl rfl
    · rw [hwrite]
      exact .inr (hbytes.no_gap hdata)
  · rw [write_of_not_hasRoom h]
    exact hroom h

theorem ends_pad (h : s.HasRoom 3) :
    Attempt.Ends (fun _ t => t = s ∨ t.position ≤ t.bytes.length) (fun e _ => P e) (pad alignment s) := by
  rw [pad_alignment_eq]
  refine ends_write fun hfull => absurd ?_ hfull
  have hlt : paddingOf s.position 4 < 4 := Nat.mod_lt _ (by decide)
  simp only [HasRoom, List.length_replicate] at h ⊢
  omega

theorem ends_writeWord (hword : ¬Word.Fits v → P .wordOverflow) (h : s.HasRoom 4) :
    Attempt.Ends (fun _ _ => Word.Fits v) (fun e _ => P e) (writeWord v s) := by
  unfold writeWord
  by_cases hv : Word.Fits v
  · rw [if_pos hv]
    exact (ends_write fun hfull => absurd h hfull).imp (fun _ _ _ => hv) fun _ _ h => h
  · rw [if_neg hv]
    exact hword hv

theorem ends_readWordAt (hP : ∀ e, e.isScriptFault = true → P e) (hreach : offsetLimit ≤ target → P .offsetOverflow) :
    Attempt.Ends (fun v _ => Word.Fits v) (fun e _ => P e) (readWordAt target s) :=
  ends_elsewhere hP hreach fun _ => ends_readWord.imp_fault fun e _ => hP e

theorem ends_writeWordAt (hP : ∀ e, e.isScriptFault = true → P e) (hword : ¬Word.Fits v → P .wordOverflow)
    (hreach : offsetLimit ≤ target → P .offsetOverflow) (h : HasRoom ⟨s.bytes, target.toNat⟩ 4) :
    Attempt.Ends (fun _ _ => Word.Fits v) (fun e _ => P e) (writeWordAt target v s) :=
  ends_elsewhere hP hreach fun _ => ends_writeWord hword h

end Stream

/-- How far what is behind the script is moved by another script. -/
def Container.Moves (c : Container) (script : List UInt8) (change : Int) : Prop :=
  ∃ index length, c.findSegment c.header.scriptStart = .ok index ∧ c.codeLength index = .ok length ∧
    index + 1 < c.segments.length ∧ change = align script.length alignment - length

namespace Workspace

variable {w : Workspace} {change stop : Int} {script : List UInt8}

/-- **Moving references** fails because of a number that does not fit, or because of a stop out of reach. -/
theorem ends_moveReferences (hP : ∀ e, e.isScriptFault = true → P e)
    (hword : ∀ v, Word.Fits v → ¬Word.Fits (v + change) → P .wordOverflow)
    (hstop : Stream.offsetLimit ≤ stop → P .offsetOverflow) {position : Nat} {s : Stream} :
    Attempt.Ends (fun _ _ => True) (fun e _ => P e) (moveReferences change stop position s) := by
  -- on how much is left up to the stop
  induction hn : (stop - position).toNat using Nat.strongRecOn generalizing position s with
  | ind n ih =>
    by_cases hle : (position + recordSize : Int) ≤ stop
    · have hothers : ∀ record moved t, Attempt.Ends (fun _ _ => True) (fun e _ => P e)
          (moveOthers change stop position record moved t) := by
        intro record moved t
        unfold moveOthers
        by_cases hexit : record.isExit = true
        · rw [if_pos hexit]
          trivial
        · rw [if_neg hexit]
          refine (ih _ ?_ rfl).bind fun _ _ _ => trivial
          simp only [recordSize] at hle ⊢
          omega
      have hreach : ∀ target : Int, target ≤ position + recordSize → Stream.offsetLimit ≤ target →
          P .offsetOverflow :=
        fun _ hin hfar => hstop (hfar.trans (hin.trans hle))
      rw [moveReferences_of_le hle]
      refine (Stream.ends_jump hP (hreach _ (by omega))).bind fun _ t ht => ?_
      rw [ht.2]
      refine (Stream.ends_readRecord.imp_fault fun e _ => hP e).bind fun record t' hread => ?_
      obtain ⟨hfits, rfl, hroom⟩ := hread
      by_cases href : record.isTextReference = true
      · rw [if_pos href]
        have hoperand := hreach (position + 8) (by simp only [recordSize]; omega)
        refine (Stream.ends_writeWordAt hP (hword _ hfits.2.2) hoperand (.inr (.inl ?_))).bind
          fun _ _ _ => hothers _ _ _
        simp only [recordSize] at hroom
        dsimp only
        omega
      · rw [if_neg href]
        exact hothers _ _ _
    · rw [moveReferences_of_lt (Int.not_le.1 hle)]
      trivial

/-- Behind a word that is an offset, however far behind the end that is, there is room for a word. -/
theorem hasRoom_of_fits {offset : Int} (h : Word.Fits offset) (bytes : List UInt8) :
    Stream.HasRoom ⟨bytes, offset.toNat⟩ 4 := by
  refine .inr (.inr ?_)
  simp only [Word.Fits] at h
  simp only [Stream.lengthLimit]
  omega

/-- Placing a script fails only where its place lies in front of the bytes, or where it would end beyond the limit. -/
theorem ends_placeScript (hP : ∀ e, e.isScriptFault = true → P e) {scriptStart : Int} (h : Word.Fits scriptStart)
    (hlong : Stream.lengthLimit < (codeStart scriptStart).toNat + script.length →
      P (Stream.gapFault ((codeStart scriptStart).toNat + script.length))) {s : Stream} :
    Attempt.Ends (fun _ t => t = ⟨s.bytes, (codeStart scriptStart).toNat⟩ ∨ t.position ≤ t.bytes.length)
      (fun e _ => P e) (placeScript (codeStart scriptStart) script s) := by
  refine (Stream.ends_jump hP fun hfar => absurd hfar (Stream.not_far_codeStart h)).bind fun _ t ht => ?_
  rw [ht.2]
  have hnear : (codeStart scriptStart).toNat + 3 ≤ Stream.lengthLimit := by
    simp only [Word.Fits] at h
    simp only [codeStart, segmentHeaderSize, Stream.lengthLimit]
    omega
  refine (Stream.ends_write fun hfull => hlong ?_).bind fun _ u hu => ?_
  · simp only [Stream.HasRoom, not_or, Nat.not_le] at hfull
    exact hfull.2.2
  · cases hu with
    | inl hsame =>
      subst hsame
      exact Stream.ends_pad (.inr (.inr hnear))
    | inr hno =>
      refine (Stream.ends_pad (.inr (.inl hno))).imp (fun _ v hv => .inr ?_) fun _ _ h => h
      exact hv.elim (fun h => h ▸ hno) id

/-- Header and table are of words, and the table is no longer than the header can say. -/
structure Tabled (w : Workspace) : Prop where
  header_fits : w.container.header.Fits
  table_fits : ∀ segment ∈ w.container.segments, Word.Fits segment.offset
  count : w.container.segments.length ≤ 0x7FFFFFFF

theorem tabled_of_spelled (h : w.container.Spelled) : w.Tabled := by
  refine ⟨h.header_fits, fun segment hsegment => (h.table_fits segment hsegment).2, ?_⟩
  have hlength := h.table_length
  have hcount := h.header_fits.2.2.2
  simp only [Word.Fits] at hcount
  omega

/-- Work on the bytes does not touch header and table. -/
theorem Tabled.ends_onBytes {work : Streaming α} (hw : w.Tabled)
    (h : Attempt.Ends (fun _ _ => True) (fun e _ => P e) (work ⟨w.container.bytes, 0⟩)) :
    Attempt.Ends (fun _ => Tabled) (fun e _ => P e) (onBytes work w) :=
  Workspace.ends_onBytes (h.imp (fun _ _ _ => ⟨hw.header_fits, hw.table_fits, hw.count⟩) fun _ _ h => h)

theorem ends_correctSegment (hP : ∀ e, e.isScriptFault = true → P e)
    (hword : ∀ v, Word.Fits v → ¬Word.Fits (v + change) → P .wordOverflow)
    (hstop : Stream.offsetLimit ≤ stop → P .offsetOverflow) {segment : Segment} (hfits : Word.Fits segment.offset)
    (hw : w.Tabled) :
    Attempt.Ends (fun _ => Tabled) (fun e _ => P e) (correctSegment segment stop change w) := by
  have hown : Stream.offsetLimit ≤ segment.offset → P .offsetOverflow :=
    fun hfar => absurd hfar (Stream.not_far hfits (by omega))
  have hcode : Stream.offsetLimit ≤ codeStart segment.offset → P .offsetOverflow :=
    fun hfar => absurd hfar (Stream.not_far_codeStart hfits)
  have hcorrect : Attempt.Ends (fun _ => Tabled) (fun e _ => P e) (onBytes (do
      let own ← Stream.readWordAt segment.offset
      Stream.writeWordAt segment.offset (own + change)
      Stream.jump (codeStart segment.offset)
      moveReferences change stop (codeStart segment.offset).toNat) w) := by
    refine hw.ends_onBytes ?_
    refine (Stream.ends_readWordAt hP hown).bind fun own _ hfitsOwn => ?_
    refine (Stream.ends_writeWordAt hP (hword own hfitsOwn) hown (hasRoom_of_fits hfits _)).bind fun _ _ _ => ?_
    exact (Stream.ends_jump hP hcode).bind fun _ _ _ => ends_moveReferences hP hword hstop
  unfold correctSegment
  refine hcorrect.bind fun found w' hw' => ?_
  obtain ⟨count, unfinished⟩ := found
  cases unfinished with
  | none => exact ⟨hw'.header_fits, hw'.table_fits, hw'.count⟩
  | some position => exact ⟨hw'.header_fits, hw'.table_fits, hw'.count⟩

theorem ends_moveEntry (hP : ∀ e, e.isScriptFault = true → P e)
    (hword : ∀ v, Word.Fits v → ¬Word.Fits (v + change) → P .wordOverflow) {index : Nat}
    (hw : w.Tabled) : Attempt.Ends (fun _ => Tabled) (fun e _ => P e) (moveEntry change index w) := by
  refine .of_get ?_
  cases hsegment : w.container.segments[index]? with
  | none => exact hw
  | some segment =>
    have hoffset := hw.table_fits segment (List.mem_of_getElem? hsegment)
    have hindex := (List.getElem?_eq_some_iff.1 hsegment).1
    have hcount := hw.count
    have htable := hw.header_fits.2.2.1
    simp only [Word.Fits] at htable
    have hwrite : ∀ s : Stream, Attempt.Ends (fun _ _ => Word.Fits (segment.offset + change)) (fun e _ => P e)
        (Stream.writeWordAt (w.container.header.tableStart + index * tableEntrySize + 4)
          (segment.offset + change) s) := by
      intro s
      refine Stream.ends_writeWordAt hP (hword _ hoffset) (fun hfar => ?_) (.inr (.inr ?_))
      · simp only [Stream.offsetLimit, tableEntrySize] at hfar
        omega
      · simp only [Stream.lengthLimit, tableEntrySize]
        omega
    refine .of_modify (ends_onBytes ((hwrite _).imp (fun _ _ hmoved => ?_) fun _ _ h => h))
    refine ⟨hw.header_fits, fun other hother => ?_, by simpa using hw.count⟩
    cases List.mem_or_eq_of_mem_set hother with
    | inl hold => exact hw.table_fits other hold
    | inr hnew =>
      rw [hnew]
      exact hmoved

/-- What is behind the script is no more than there is. -/
theorem ends_readTail (hP : ∀ e, e.isScriptFault = true → P e) {length : Nat}
    (hlength : Stream.offsetLimit ≤ length → P .offsetOverflow) {trailing : List (Segment × Nat)}
    (htrailing : ∀ entry ∈ trailing, Word.Fits entry.1.offset) {s : Stream} :
    Attempt.Ends (fun tail t => tail.length ≤ t.bytes.length) (fun e _ => P e) (readTail length trailing s) := by
  cases trailing with
  | nil => exact Nat.zero_le _
  | cons entry trailing =>
    have hoffset := htrailing entry List.mem_cons_self
    refine (Stream.ends_jump hP fun hfar => absurd hfar (Stream.not_far hoffset (by omega))).bind fun _ t ht => ?_
    unfold Stream.read
    by_cases hcount : length - entry.1.offset < -Stream.offsetLimit ∨ Stream.offsetLimit ≤ length - entry.1.offset
    · rw [if_pos hcount]
      refine hlength ?_
      have hnonneg := ht.1
      simp only [Word.Fits] at hoffset
      simp only [Stream.offsetLimit] at hcount ⊢
      omega
    · rw [if_neg hcount]
      have hrest : t.rest.length ≤ t.bytes.length := by
        rw [Stream.rest, List.length_drop]
        exact Nat.sub_le _ _
      show List.length (if _ then _ else _) ≤ _
      split
      · exact hrest
      · exact (List.length_take_le' _ _).trans hrest

/-- Replacing the code of the script fails because of where it is, because it would end beyond the limit, or because
what is behind it is out of reach. -/
theorem ends_replaceCode (hP : ∀ e, e.isScriptFault = true → P e) {length : Nat}
    (hlength : Stream.offsetLimit ≤ length → P .offsetOverflow) {trailing : List (Segment × Nat)}
    (htrailing : ∀ entry ∈ trailing, Word.Fits entry.1.offset) {scriptStart : Int} (hstart : Word.Fits scriptStart)
    (hlong : Stream.lengthLimit < (codeStart scriptStart).toNat + script.length →
      P (Stream.gapFault ((codeStart scriptStart).toNat + script.length))) {s : Stream} :
    Attempt.Ends (fun _ _ => True) (fun e _ => P e)
      (replaceCode length trailing (codeStart scriptStart) script s) := by
  rw [replaceCode_eq]
  refine (ends_readTail hP hlength htrailing).bind fun tail t htail => ?_
  refine (ends_placeScript hP hstart hlong).bind fun _ u hu => ?_
  refine (Stream.ends_write fun hfull => absurd ?_ hfull).bind fun _ _ _ => trivial
  cases hu with
  | inr hno => exact .inr (.inl hno)
  | inl hsame =>
    -- a gap in front of the tail is longer than the tail
    subst hsame
    simp only [Word.Fits] at hstart
    simp only [Stream.HasRoom, codeStart, segmentHeaderSize, Stream.lengthLimit]
    omega

/-- The table entries behind the script are words. -/
theorem fits_of_mem_trailing {c : Container} (hc : c.Spelled) {count : Nat} {entry : Segment × Nat}
    (h : entry ∈ c.segments.zipIdx.drop count) : Word.Fits entry.1.offset :=
  (hc.table_fits entry.1 (List.fst_mem_of_mem_zipIdx (List.mem_of_mem_drop h))).2

/-- A segment that ends out of reach does so with the bytes. -/
theorem reaches_segmentEnd {c : Container} (hc : c.Spelled) {index : Nat}
    (h : Stream.offsetLimit ≤ c.segmentEnd index) : Stream.offsetLimit ≤ (c.bytes.length : Int) := by
  unfold Container.segmentEnd at h
  cases hnext : c.segments[index + 1]? with
  | none =>
    rw [hnext] at h
    exact h
  | some next =>
    rw [hnext] at h
    exact absurd h (Stream.not_far (hc.table_fits next (List.mem_of_getElem? hnext)).2 (by simp))

theorem ends_resize (hP : ∀ e, e.isScriptFault = true → P e) (hc : w.container.Spelled) {index : Nat}
    (hword : ∀ v, index + 1 < w.container.segments.length → Word.Fits v → ¬Word.Fits (v + change) → P .wordOverflow)
    (hlength : Stream.offsetLimit ≤ (w.container.bytes.length : Int) → P .offsetOverflow)
    (hlong : Stream.lengthLimit < (codeStart w.container.header.scriptStart).toNat + script.length →
      P (Stream.gapFault ((codeStart w.container.header.scriptStart).toNat + script.length)))
    {w' : Workspace} (hw' : w'.Tabled) :
    Attempt.Ends (fun _ _ => True) (fun e _ => P e) (resize w.container script index change w') := by
  have hstart := hc.header_fits.1
  have hbehind : ∀ entry ∈ w.container.segments.zipIdx.drop (index + 1),
      ∀ v, Word.Fits v → ¬Word.Fits (v + change) → P .wordOverflow := by
    intro entry hentry v
    refine hword v ?_
    have hpos := List.length_pos_of_mem hentry
    rw [List.length_drop, List.length_zipIdx] at hpos
    omega
  unfold resize
  dsimp only
  by_cases hchange : change = 0
  · rw [if_pos hchange]
    have hplace : Attempt.Ends (fun _ => Tabled) (fun e _ => P e)
        (onBytes (placeScript (codeStart w.container.header.scriptStart) script) w') :=
      hw'.ends_onBytes (ends_placeScript hP hstart hlong).forget
    exact hplace.bind fun _ _ _ => trivial
  · rw [if_neg hchange]
    refine (Attempt.Ends.forM (fun entry hentry t ht => ?_) hw').bind fun _ w₁ hw₁ => ?_
    · exact ends_correctSegment hP (hbehind entry hentry) (fun hfar => hlength (reaches_segmentEnd hc hfar))
        (fits_of_mem_trailing hc hentry) ht
    refine (hw₁.ends_onBytes
      (ends_replaceCode hP hlength (fun _ => fits_of_mem_trailing hc) hstart hlong)).bind fun _ w₂ hw₂ => ?_
    refine (Attempt.Ends.forM (fun entry hentry t ht => ?_) hw₂).bind fun _ _ _ => trivial
    exact ends_moveEntry hP (hbehind entry hentry) ht

/-- **Injecting a script** into a container that has been loaded fails because of the place of its script, because of a
number that does not fit when what is behind the script is moved, because of bytes out of reach, or because the script
would end beyond the limit. -/
theorem ends_inject (hP : ∀ e, e.isScriptFault = true → P e) (hc : w.container.Spelled)
    (hword : ∀ change v, w.container.Moves script change → Word.Fits v → ¬Word.Fits (v + change) → P .wordOverflow)
    (hlength : Stream.offsetLimit ≤ (w.container.bytes.length : Int) → P .offsetOverflow)
    (hlong : Stream.lengthLimit < (codeStart w.container.header.scriptStart).toNat + script.length →
      P (Stream.gapFault ((codeStart w.container.header.scriptStart).toNat + script.length))) :
    Attempt.Ends (fun _ _ => True) (fun e _ => P e) (inject script w) := by
  cases hindex : w.container.findSegment w.container.header.scriptStart with
  | error e =>
    have hfind : (Attempt.ofExcept (w.container.findSegment w.container.header.scriptStart) : Editing Nat) w
        = .error e w := by
      rw [hindex]
      rfl
    have hinject : inject script w = .error e w := (Attempt.bind_of_ok rfl).trans (Attempt.bind_of_error hfind)
    rw [hinject]
    refine hP e ?_
    unfold Container.findSegment at hindex
    split at hindex
    · cases hindex
    · cases hindex
      rfl
  | ok index =>
    obtain ⟨segment, hsegment⟩ : ∃ segment, w.container.segments[index]? = some segment := by
      unfold Container.findSegment at hindex
      split at hindex
      · next index' hfound =>
        cases hindex
        exact ⟨_, List.getElem?_eq_getElem (List.findIdx?_eq_some_iff_findIdx_eq.1 hfound).1⟩
      · cases hindex
    have hcode : w.container.codeLength index = .ok (w.container.segmentEnd index - codeStart segment.offset) := by
      unfold Container.codeLength
      rw [hsegment]
    rw [inject_eq hindex hcode]
    refine .of_modify (ends_resize hP hc (fun v hbehind => ?_) hlength hlong (tabled_of_spelled hc))
    exact hword _ v ⟨index, _, hindex, hcode, hbehind, rfl⟩

end Workspace

/-! ## Lines -/

/-- Why injecting lines into the storyboard that bytes spell may stop a whole batch. -/
inductive Error.Escapes (settings : Settings) (lines : List Text) (bytes : List UInt8) : Error → Prop
  /-- A numeral in the lines has more digits than are read. -/
  | numeral {line : Text} (hline : line ∈ lines) (hlong : line.HasLongNumeral) :
    Escapes settings lines bytes .numeralTooLong
  /-- A number in the records of the lines does not fit its word at the place of the script. -/
  | operand {c : Container} (hbytes : c.bytes = bytes) (hspelled : c.Spelled)
    (hassemble : Assembly.assemble settings (codeStart c.header.scriptStart) lines = .error .wordOverflow) :
    Escapes settings lines bytes .wordOverflow
  /-- A number behind the script does not fit its word any more once it is moved. -/
  | moved {c : Container} {script : List UInt8} {change v : Int} (hbytes : c.bytes = bytes) (hspelled : c.Spelled)
    (hassemble : Assembly.assemble settings (codeStart c.header.scriptStart) lines = .ok script)
    (hmoves : c.Moves script change) (hfits : Word.Fits v) (hmoved : ¬Word.Fits (v + change)) :
    Escapes settings lines bytes .wordOverflow
  /-- The storyboard has more bytes than any stream. -/
  | offset (hlength : Stream.offsetLimit ≤ bytes.length) : Escapes settings lines bytes .offsetOverflow
  /-- The records of the lines are more than any stream has bytes for. -/
  | length {c : Container} {script : List UInt8} (hbytes : c.bytes = bytes) (hspelled : c.Spelled)
    (hassemble : Assembly.assemble settings (codeStart c.header.scriptStart) lines = .ok script)
    (hlong : Stream.lengthLimit < (codeStart c.header.scriptStart).toNat + script.length) :
    Escapes settings lines bytes (Stream.gapFault ((codeStart c.header.scriptStart).toNat + script.length))

namespace Workspace

variable {w : Workspace} {lines : List Text} {bytes : List UInt8}

/-- **Encoding lines** for the script of a container fails the file that is worked on, or lets an error escape. -/
theorem ends_encode (hsettings : settings.Supported) (hbytes : w.container.bytes = bytes) (hc : w.container.Spelled) :
    Attempt.Ends (fun script w' => w'.container = w.container ∧
        Assembly.assemble settings (codeStart w.container.header.scriptStart) lines = .ok script)
      (fun e _ => e.failsFile = true ∨ e.Escapes settings lines bytes) (encode settings lines w) := by
  have hmeasure : Attempt.Ends (fun found w' => Assembly.measure lines = .ok found ∧ w' = w)
      (fun e _ => e.failsFile = true ∨ e.Escapes settings lines bytes)
      ((Attempt.ofExcept (Assembly.measure lines) : Editing _) w) := by
    refine .ofExcept (fun _ h => ⟨h, rfl⟩) fun e he => ?_
    obtain ⟨line, hline, hmisread⟩ := Assembly.failsOnly_measure lines e he
    cases hmisread with
    | inl hfails => exact .inl hfails
    | inr hlong =>
      obtain ⟨rfl, hlong⟩ := hlong
      exact .inr (.numeral hline hlong)
  refine hmeasure.bind fun found w' hfound => ?_
  obtain ⟨statements, size⟩ := found
  obtain ⟨hmeasured, rfl⟩ := hfound
  refine .of_modify (.of_get ?_)
  have hassemble := Assembly.assemble_eq settings hmeasured (codeStart w'.container.header.scriptStart)
  have hemit : Attempt.Ends (fun a w'' => w''.container = w'.container ∧
        Assembly.assemble settings (codeStart w'.container.header.scriptStart) lines = .ok a.toBytes)
      (fun e _ => e.failsFile = true ∨ e.Escapes settings lines bytes)
      ((Attempt.ofExcept (Assembly.emit settings (codeStart w'.container.header.scriptStart) size statements) :
        Editing _) { w' with notices := w'.notices ++ [.encoding lines.length size] }) := by
    refine .ofExcept (fun a ha => ⟨rfl, by rw [hassemble, ha]; rfl⟩) fun e he => ?_
    cases Assembly.failsOnly_emit hsettings hmeasured _ e he with
    | text fault => exact .inl rfl
    | word => exact .inr (.operand hbytes hc (by rw [hassemble, he]; rfl))
  exact hemit.bind fun _ _ h => h

/-- **Injecting lines into the storyboard that bytes spell** fails the file that is worked on, or lets an error
escape. -/
theorem ends_injectLines (hsettings : settings.Supported) (lines : List Text) (bytes : List UInt8) :
    Attempt.Ends (fun _ _ => True) (fun e _ => e.failsFile = true ∨ e.Escapes settings lines bytes)
      ((do
        load bytes
        inject (← encode settings lines) : Editing Int) w) := by
  have hfault : ∀ e : Error, e.isScriptFault = true → e.failsFile = true ∨ e.Escapes settings lines bytes :=
    fun e h => .inl (Error.failsFile_of_endsDecoding (Error.endsDecoding_of_isScriptFault h))
  refine (ends_load.imp_fault fun e _ => hfault e).bind fun _ w₁ hloaded => ?_
  obtain ⟨hbytes, hspelled⟩ := hloaded
  refine (ends_encode hsettings hbytes hspelled).bind fun script w₂ hencoded => ?_
  obtain ⟨hw₂, hassemble⟩ := hencoded
  rw [← hw₂] at hbytes hspelled hassemble
  refine ends_inject hfault hspelled (fun change v hmoves hfits hmoved => ?_) (fun hfar => .inr (.offset ?_))
    fun hlong => .inr (.length hbytes hspelled hassemble hlong)
  · exact .inr (.moved hbytes hspelled hassemble hmoves hfits hmoved)
  · rwa [hbytes] at hfar

end Workspace

end Storyboard
