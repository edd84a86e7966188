/-
What decoding reads, and that it depends on nothing else.

Decoding reads the records up to the sentinel and the texts that they refer to (`Decoder.Reads`), which the records
themselves say where to find. Over any bytes that are the same there, a run that a sentinel ends is the same run
(`Machine.transcribe_withBytes`), so that other bytes may be changed and more may follow (`Decoder.decodes_withBytes`).
-/
import Storyboard.Proofs.Meaning
import Storyboard.Proofs.Scanning

namespace Storyboard

namespace Stream

variable {settings : Settings} {bytes : List UInt8} {target : Int} {spelled : List UInt8} {t : Text} {n : Nat}

/-- The byte at `n` belongs to the text at `target`: it is not behind the first zero from there on. -/
def InText (bytes : List UInt8) (target : Int) (n : Nat) : Prop :=
  target ≤ n ∧ ∀ m : Nat, target ≤ m → m < n → bytes[m]? ≠ some 0

theorem TextAt.getElem? (h : TextAt settings bytes target spelled t) (n : Nat) (hn : n < spelled.length + 1) :
    bytes[target.toNat + n]? = (spelled ++ [0])[n]? := by
  obtain ⟨tail, htail⟩ := h.lies
  rw [← List.getElem?_drop, ← htail, List.getElem?_append_left]
  simpa using hn

/-- The bytes of a text that is read are those that spell it, and the zero. -/
theorem TextAt.inText_iff (h : TextAt settings bytes target spelled t) :
    InText bytes target n ↔ target ≤ n ∧ n < target + (spelled.length + 1) := by
  have h0 := h.nonneg
  constructor
  · intro hn
    obtain ⟨hle, hbefore⟩ := hn
    refine ⟨hle, Int.not_le.1 fun hbehind => ?_⟩
    have hzero := h.getElem? spelled.length (Nat.lt_succ_self _)
    rw [List.getElem?_concat_length] at hzero
    exact hbefore (target.toNat + spelled.length) (by omega) (by omega) hzero
  · intro hn
    refine ⟨hn.1, fun m hle hlt hzero => ?_⟩
    obtain ⟨k, rfl⟩ : ∃ k, m = target.toNat + k := ⟨m - target.toNat, by omega⟩
    have hk : k < spelled.length := by omega
    rw [h.getElem? k (by omega), List.getElem?_append_left hk] at hzero
    exact h.zeroFree (List.mem_of_getElem? hzero)

/-- A text that is read lies within the bytes. -/
theorem TextAt.lt_length (h : TextAt settings bytes target spelled t) (hn : InText bytes target n) :
    n < bytes.length := by
  obtain ⟨hle, hlt⟩ := h.inText_iff.1 hn
  have hlength := h.lies.length_le
  rw [List.length_append, List.length_singleton, List.length_drop] at hlength
  omega

/-- A text is read from any bytes that are the same where it lies. -/
theorem TextAt.congr {bytes' : List UInt8} (h : TextAt settings bytes target spelled t)
    (hsame : ∀ n, InText bytes target n → bytes'[n]? = bytes[n]?) : TextAt settings bytes' target spelled t := by
  have h0 := h.nonneg
  refine h.transfer h0 h.reachable ((prefix_drop_congr fun n hle hlt => hsame n (h.inText_iff.2 ?_)).2 h.lies)
  rw [List.length_append, List.length_singleton] at hlt
  omega

end Stream

namespace Decoder

open Machine

/-- The same decoder over other bytes. -/
def withBytes (d : Decoder) (bytes : List UInt8) : Decoder := { d with stream := { d.stream with bytes } }

/-- The byte at `n` belongs to a record that the decoder takes, or to the record behind those. -/
def ReadsRecord (d : Decoder) (n : Nat) : Prop :=
  ∃ k d', Advances k d d' ∧ d'.stream.position ≤ n ∧ n < d'.stream.position + recordSize

/-- The byte at `n` belongs to a text that a record refers to which the decoder takes. -/
def ReadsText (d : Decoder) (n : Nat) : Prop :=
  ∃ k d' r, Advances k d d' ∧ Record.StandAt d.stream.bytes d'.stream.position [r] ∧ r.isTextReference = true ∧
    Stream.InText d.stream.bytes (r.operand + textOperandBias) n

/-- The decoder looks at the byte at `n`. -/
def Reads (d : Decoder) (n : Nat) : Prop := d.ReadsRecord n ∨ d.ReadsText n

end Decoder

/-- What a run gave, its bytes put in place of others. -/
def Transcript.withBytes (t : Transcript) (bytes : List UInt8) : Transcript :=
  { t with machine := t.machine.withBytes bytes }

namespace Machine

variable {d d' d'' : Decoder} {k k' n : Nat} {t : Transcript} {bytes : List UInt8}

/-! ## What is read on the way -/

theorem Advances.trans (h : Advances k d d') (h' : Advances k' d' d'') : Advances (k' + k) d d'' := by
  induction h with
  | zero => exact h'
  | succ hread hsentinel hexecute _ ih => exact .succ hread hsentinel hexecute (ih h')

/-- What the decoder reads later on, it reads. -/
theorem Advances.reads (h : Advances k d d') (hn : d'.Reads n) : d.Reads n := by
  have hbytes : d'.stream.bytes = d.stream.bytes := by rw [h.stream_eq]
  rcases hn with ⟨k', d'', h', hle, hlt⟩ | ⟨k', d'', r, h', hstands, hrefers, hn⟩
  · exact .inl ⟨_, d'', h.trans h', hle, hlt⟩
  · rw [hbytes] at hstands hn
    exact .inr ⟨_, d'', r, h.trans h', hstands, hrefers, hn⟩

/-- Taking records does not change how the run ends. -/
theorem Advances.transcribe_eq (h : Advances k d d') :
    d'.transcribe.failure = d.transcribe.failure ∧ d'.transcribe.machine = d.transcribe.machine := by
  induction h with
  | zero => exact ⟨rfl, rfl⟩
  | @succ k d d₁ d₂ d' record statement hread _ hexecute _ ih =>
    obtain ⟨hstands, rfl⟩ := onStream_read_eq_ok_iff.1 hread
    obtain ⟨s', hstep, rfl⟩ := execute_eq_ok_iff.1 hexecute
    have hd : d.transcribe = _ := transcribe_step hstands (step_position hstep)
    rw [hd]
    exact ih

/-- In a run that a sentinel ends, a record stands where the decoder is, not behind the end, and if that refers to a
text, there is one. -/
theorem exists_record_of_succeeds (h : d.transcribe.failure = none) :
    ∃ r, Record.StandAt d.stream.bytes d.stream.position [r] ∧
      d.stream.position + recordSize ≤ d.transcribe.machine.stream.position ∧
      (r.isTextReference = true → ∃ spelled t,
        Stream.TextAt d.settings d.stream.bytes (r.operand + textOperandBias) spelled t) := by
  obtain ⟨events, hrun⟩ := exists_run d h
  have hend : d.transcribe.machine.stream.position = d.stream.position + recordSize * (events.length + 1) := by
    rw [show d.transcribe = _ from transcribe_eq_of_run hrun]
  obtain ⟨hsteps, sentinel, hsentinel, hstands⟩ := hrun
  have hroom : d.stream.position + recordSize ≤ d.transcribe.machine.stream.position := by
    rw [hend, Nat.mul_succ]
    omega
  generalize d.transcribe.leftover = leftover at hsteps
  cases hsteps with
  | nil =>
    refine ⟨sentinel, hstands, hroom, fun hrefers => ?_⟩
    simp only [Record.isSentinel, Record.isTextReference, beq_iff_eq, Bool.and_eq_true] at hsentinel hrefers
    omega
  | @cons _ _ _ record _ _ events hstep _ =>
    refine ⟨record, (Record.standAt_cons_iff.1 hstands).1, hroom, fun hrefers => ?_⟩
    obtain ⟨i, hi, htakes⟩ := step_eq_ok_iff.1 hstep
    rw [instruction?_of_isTextReference hrefers] at hi
    obtain rfl := Option.some.inj hi
    cases htakes with
    | pushText htext =>
      obtain ⟨spelled, hspelled⟩ := textsOf_eq_ok_iff.1 htext
      exact ⟨spelled, _, hspelled⟩

/-- **What is read is there**: in a run that a sentinel ends, the decoder looks at no byte behind the last one, and at
no record behind the sentinel. -/
theorem lt_length_of_reads (h : d.transcribe.failure = none) (hn : d.Reads n) : n < d.stream.bytes.length := by
  rcases hn with ⟨k, d', h', hle, hlt⟩ | ⟨k, d', r, h', hstands, hrefers, hn⟩
  · obtain ⟨r, hstands, -, -⟩ := exists_record_of_succeeds (h'.transcribe_eq.1.trans h)
    have hlength := hstands.2.length_le
    rw [Record.length_flatMap_bytes, List.length_drop, h'.stream_eq] at hlength
    rw [h'.stream_eq] at hle hlt
    simp only [List.length_singleton, recordSize] at hlength hlt
    omega
  · obtain ⟨r', hstands', -, htext⟩ := exists_record_of_succeeds (h'.transcribe_eq.1.trans h)
    rw [show d'.stream.bytes = d.stream.bytes by rw [h'.stream_eq]] at hstands' htext
    obtain rfl := hstands'.unique hstands
    obtain ⟨spelled, t, hspelled⟩ := htext hrefers
    exact hspelled.lt_length hn

/-- The records that are looked at are those from where the decoder is up to the sentinel. -/
theorem readsRecord_iff (h : d.transcribe.failure = none) :
    d.ReadsRecord n ↔ d.stream.position ≤ n ∧ n < d.transcribe.machine.stream.position := by
  constructor
  · intro hn
    obtain ⟨k, d', h', hle, hlt⟩ := hn
    obtain ⟨r, -, hroom, -⟩ := exists_record_of_succeeds (h'.transcribe_eq.1.trans h)
    rw [h'.transcribe_eq.2] at hroom
    rw [h'.stream_eq] at hle hroom hlt
    dsimp only at hle hroom hlt
    omega
  · intro hn
    obtain ⟨hle, hlt⟩ := hn
    fun_induction Decoder.transcribe d with
    | case1 | case3 => contradiction
    | case2 d record d' hread hsentinel =>
      obtain ⟨-, rfl⟩ := onStream_read_eq_ok_iff.1 hread
      exact ⟨0, d, .zero, hle, hlt⟩
    | case4 d record d' hread hsentinel statement d'' hrun ih =>
      have htaken : Advances 1 d d'' := .succ hread (Bool.eq_false_of_not_eq_true hsentinel) hrun .zero
      by_cases hfirst : n < d.stream.position + recordSize
      · exact ⟨0, d, .zero, hle, hfirst⟩
      · have hnext : d''.stream.position ≤ n := by
          rw [htaken.stream_eq]
          exact Nat.not_lt.1 hfirst
        obtain ⟨k, d', h', hin⟩ := ih h hnext hlt
        exact ⟨k + 1, d', htaken.trans h', hin⟩

/-! ## Other bytes elsewhere -/

/-- A step is the same if the text that its record refers to is. -/
theorem step_congr {texts texts' : Int → Except Error Text} {record : Record} {position : Int} {s s' : Stack}
    {statement : Option Statement}
    (htexts : record.isTextReference = true → ∀ t, texts record.operand = .ok t → texts' record.operand = .ok t)
    (h : step texts record position s = .ok statement s') : step texts' record position s = .ok statement s' := by
  rw [← Record.moved_zero record]
  refine step_moved (fun hrefers t ht => ?_) h
  rw [Int.add_zero]
  exact htexts hrefers t ht

/-- **A run is the same over any bytes that are the same where it reads.** -/
theorem transcribe_withBytes (hok : d.transcribe.failure = none)
    (hsame : ∀ n, d.Reads n → bytes[n]? = d.stream.bytes[n]?) :
    (d.withBytes bytes).transcribe = d.transcribe.withBytes bytes := by
  fun_induction Decoder.transcribe d with
  | case1 | case3 => contradiction
  | case2 d record d' hread hsentinel =>
    obtain ⟨hstands, rfl⟩ := onStream_read_eq_ok_iff.1 hread
    have hstands' : Record.StandAt bytes d.stream.position [record] :=
      (Record.standAt_congr fun n hle hlt => hsame n (.inl ⟨0, d, .zero, hle, hlt⟩)).2 hstands
    exact transcribe_sentinel hstands' hsentinel
  | case4 d record d' hread hsentinel statement d'' hrun ih =>
    have htaken : Advances 1 d d'' := .succ hread (Bool.eq_false_of_not_eq_true hsentinel) hrun .zero
    obtain ⟨hstands, rfl⟩ := onStream_read_eq_ok_iff.1 hread
    obtain ⟨s', hstep, rfl⟩ := execute_eq_ok_iff.1 hrun
    have hstands' : Record.StandAt bytes d.stream.position [record] :=
      (Record.standAt_congr fun n hle hlt => hsame n (.inl ⟨0, d, .zero, hle, hlt⟩)).2 hstands
    have hstep' : step (textsOf d.settings bytes) record d.stream.position d.stack = .ok statement s' := by
      refine step_congr (fun hrefers t ht => ?_) hstep
      obtain ⟨spelled, hspelled⟩ := textsOf_eq_ok_iff.1 ht
      exact textsOf_eq_ok_iff.2 ⟨spelled, hspelled.congr fun n hn =>
        hsame n (.inr ⟨0, d, record, .zero, hstands, hrefers, hn⟩)⟩
    refine (transcribe_step hstands' hstep').trans ?_
    rw [show Decoder.transcribe ⟨d.settings, ⟨bytes, d.stream.position + recordSize⟩, s'⟩ = _ from
      ih hok fun n hn => hsame n (htaken.reads hn)]
    rfl

end Machine

namespace Decoder

variable {d : Decoder} {t : Transcript}

/-- Decoding succeeds, with these lines and these values left on the stack. -/
def Decodes (d : Decoder) (lines : List Text) (leftover : Stack) : Prop :=
  ∃ t, d.decode = .ok t ∧ t.failure = none ∧ t.lines = lines ∧ t.leftover = leftover

/-- **Decoding depends on what it reads only.** A script that decodes does so, with the same lines and the same values
left, over any bytes that are the same in the records up to the sentinel and in the texts that they refer to. So more
bytes may follow, and those behind the sentinel that belong to no such text may be others. -/
theorem decodes_withBytes (h : d.decode = .ok t) (hok : t.failure = none) :
    (∀ bytes, (∀ n, d.Reads n → bytes[n]? = d.stream.bytes[n]?) →
      (d.withBytes bytes).Decodes t.lines t.leftover) ∧
    (∀ more, (d.withBytes (d.stream.bytes ++ more)).Decodes t.lines t.leftover) ∧
    (∀ bytes : List UInt8, (∀ n, bytes[n]? ≠ d.stream.bytes[n]? →
        t.machine.stream.position ≤ n ∧ ¬d.ReadsText n) →
      (d.withBytes bytes).Decodes t.lines t.leftover) := by
  obtain rfl := Machine.eq_transcribe_of_decode h
  have hsame : ∀ bytes : List UInt8, (∀ n, d.Reads n → bytes[n]? = d.stream.bytes[n]?) →
      (d.withBytes bytes).Decodes d.transcribe.lines d.transcribe.leftover := by
    intro bytes hbytes
    have hthere := Machine.transcribe_withBytes hok hbytes
    refine ⟨d.transcribe.withBytes bytes, ?_, hok, rfl, rfl⟩
    rw [← hthere]
    exact decode_eq_transcribe (by rw [hthere]; simp [Transcript.withBytes, hok])
  refine ⟨hsame, fun more => hsame _ fun n hn => ?_, fun bytes hbytes => hsame _ fun n hn => ?_⟩
  · exact List.getElem?_append_left (Machine.lt_length_of_reads hok hn)
  · by_contra hne
    obtain ⟨hbehind, hno⟩ := hbytes n hne
    exact hn.elim (fun hrecord => Nat.not_lt.2 hbehind ((Machine.readsRecord_iff hok).1 hrecord).2) hno

/-- A call of a sub method with a text that lies behind the sentinel. -/
theorem decodes_withBytes_calling :
    let bytes := ([.pushInt 0x40, .pushInt 1, .pushTrue, .pushText (-4), .callSub 2, .pushNull, .finish].map
      Instruction.toRecord).flatMap Record.bytes ++ [0x68, 0x69, 0]
    let d : Decoder := ⟨⟨some "ascii", some 0x10⟩, ⟨bytes, 0⟩, []⟩
    (∃ t, d.decode = .ok t ∧ t.failure = none) ∧
      ∀ more, (d.withBytes (bytes ++ more)).Decodes ["sub001(\"hi\");".toList] [.null] := by
  intro bytes d
  have hfold : Machine.fold (Machine.lookUp d.settings bytes) 0 (Record.chop (bytes.drop 0)) [] =
      ⟨[.sub 1 [['"', 'h', 'i', '"']]], .sentinel, 6, [.null]⟩ := by decide +kernel
  have hrun := Machine.transcribe_eq_fold d.settings bytes 0 []
  rw [hfold] at hrun
  have hok : d.transcribe.failure = none := congrArg Transcript.failure hrun
  have hdecode : d.decode = .ok d.transcribe := decode_eq_transcribe (by simp [hok])
  obtain ⟨-, hmore, -⟩ := decodes_withBytes hdecode hok
  rw [show d.transcribe = _ from hrun] at hmore
  exact ⟨⟨_, hdecode, hok⟩, hmore⟩

end Decoder
end Storyboard
