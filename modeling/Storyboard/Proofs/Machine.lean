/-
The script machine as a stack machine: what a record does to a stack, and what a run amounts to.

`Machine.step` takes one record, with texts looked up in a function, and `Machine.Steps` takes several.
`transcribe_eq_of_run` and `exists_run` say that a run of the decoder that a sentinel ends is exactly
that: records that stand one behind another, a sentinel after them, and their steps. `exists_trace` is about
all runs, those that a failure ends among them.
-/
import Storyboard.Decoder
import Storyboard.Proofs.Attempt
import Storyboard.Proofs.Stream

namespace Storyboard

/-! ## What is popped -/

namespace Stack

variable {s s' : Stack}

/-- What is popped as a kind was on top, and looks like that kind. -/
theorem popAs_eq_ok_iff {α : Type} {kind : Value.Kind} {view : Value → Option α} {a : α} :
    popAs kind view s = .ok a s' ↔ ∃ v, s = v :: s' ∧ view v = some a := by
  unfold popAs
  rw [Attempt.bind_eq_ok]
  constructor
  · intro h
    obtain ⟨v, s₁, hpop, h⟩ := h
    cases s with
    | nil => contradiction
    | cons x s =>
      injection hpop with hx hs
      subst hx hs
      cases hview : view x with
      | none =>
        rw [hview] at h
        contradiction
      | some b =>
        rw [hview] at h
        injection h with hb hs
        subst hb hs
        exact ⟨x, rfl, hview⟩
  · intro h
    obtain ⟨v, rfl, hview⟩ := h
    refine ⟨v, s', rfl, ?_⟩
    rw [hview]
    rfl

theorem popInt32_eq_ok_iff {v : Int} : popInt32 s = .ok v s' ↔ s = .int32 v :: s' := by
  refine popAs_eq_ok_iff.trans ⟨?_, fun h => ⟨_, h, rfl⟩⟩
  intro h
  obtain ⟨x, rfl, hx⟩ := h
  cases x with
  | int32 n => rw [Option.some.inj hx]
  | float32 | bool | null | uint16 | text => contradiction

theorem popUInt16_eq_ok_iff {n : Nat} : popUInt16 s = .ok n s' ↔ s = .uint16 n :: s' := by
  refine popAs_eq_ok_iff.trans ⟨?_, fun h => ⟨_, h, rfl⟩⟩
  intro h
  obtain ⟨x, rfl, hx⟩ := h
  cases x with
  | uint16 m => rw [Option.some.inj hx]
  | float32 | bool | null | int32 | text => contradiction

/-- A descriptor is true, the number of a sub method and the marker. -/
theorem popDescriptor_eq_ok_iff {number : Int} :
    popDescriptor s = .ok number s' ↔
      s = .bool true :: .int32 number :: .int32 descriptorMarker :: s' := by
  constructor
  · intro h
    unfold popDescriptor at h
    split at h
    · next n marker s =>
      by_cases hmarker : marker = descriptorMarker
      · rw [if_pos hmarker] at h
        injection h with hn hs
        rw [hn, hs, hmarker]
      · rw [if_neg hmarker] at h
        contradiction
    · contradiction
    · contradiction
  · rintro rfl
    rw [popDescriptor, if_pos rfl]

end Stack

namespace Machine

/-- The text that an operand refers to. -/
def textsOf (settings : Settings) (bytes : List UInt8) (operand : Int) : Except Error Text :=
  Attempt.outcome (Stream.readTextAt settings (operand + textOperandBias) ⟨bytes, 0⟩)

theorem textsOf_eq_ok_iff {settings : Settings} {bytes : List UInt8} {operand : Int} {t : Text} :
    textsOf settings bytes operand = .ok t ↔
      ∃ spelled, Stream.TextAt settings bytes (operand + textOperandBias) spelled t := by
  simp [textsOf, Attempt.outcome_eq_ok_iff, Stream.readTextAt_eq_ok_iff]

/-- Takes one record, which was read at `position`; the texts that operands refer to are `texts`. -/
def step (texts : Int → Except Error Text) (record : Record) (position : Int) :
    Stacking (Option Statement) :=
  match record.instruction? with
  | some (.pushText operand) => do
    Stack.push (.text (← Attempt.ofExcept (texts operand)))
    return none
  | _ => Stack.perform record position

/-- Looking at a text fails where it cannot be gone to, and else gives what is read there. -/
theorem outcome_readTextAt_eq (settings : Settings) (target : Int) (s : Stream) :
    Attempt.outcome (Stream.readTextAt settings target s) =
      if target < 0 then .error (.negativeOffset target)
      else if Stream.offsetLimit ≤ target then .error .offsetOverflow
      else Attempt.outcome (Stream.readText settings ⟨s.bytes, target.toNat⟩) :=
  Stream.outcome_elsewhere ..

/-- What looking at a text gives depends on the bytes of a stream only. -/
theorem outcome_readTextAt (settings : Settings) (target : Int) (s : Stream) :
    Attempt.outcome (Stream.readTextAt settings target s)
      = Attempt.outcome (Stream.readTextAt settings target ⟨s.bytes, 0⟩) := by
  rw [outcome_readTextAt_eq, outcome_readTextAt_eq]

theorem readTextAt_eq (settings : Settings) (target : Int) (s : Stream) :
    Stream.readTextAt settings target s =
      match Attempt.outcome (Stream.readTextAt settings target ⟨s.bytes, 0⟩) with
      | .ok t => .ok t s
      | .error e => .error e s := by
  have hfinal := Stream.final_readTextAt settings target s
  rw [← outcome_readTextAt]
  cases h : Stream.readTextAt settings target s with
  | ok t s' => rw [h, Attempt.final_ok] at hfinal; rw [hfinal]; rfl
  | error e s' => rw [h, Attempt.final_error] at hfinal; rw [hfinal]; rfl

/-- Taking a record is a step on the stack, whatever else the decoder holds. -/
theorem execute_eq (record : Record) (position : Int) (d : Decoder) :
    d.execute record position =
      Decoder.onStack (step (textsOf d.settings d.stream.bytes) record position) d := by
  unfold Decoder.execute step
  rcases record.instruction? with _ | i
  · rfl
  · cases i with
    | pushText operand =>
      show EStateM.bind _ _ d = Attempt.within Decoder.stack _ (EStateM.bind _ _) d
      unfold EStateM.bind Decoder.readOperand Decoder.onStream Attempt.within
      rw [readTextAt_eq]
      simp only [textsOf]
      cases Attempt.outcome (Stream.readTextAt d.settings (operand + textOperandBias)
        ⟨d.stream.bytes, 0⟩) <;> rfl
    | _ => rfl

/-! ## Steps -/

/-- `Takes texts i s st s'`: taking the instruction `i` leads from the stack `s` to the stack `s'`, and
completes the statement `st` if there is one. -/
inductive Takes (texts : Int → Except Error Text) : Instruction → Stack → Option Statement → Stack → Prop where
  | pushInt {v : Int} {s : Stack} : Takes texts (.pushInt v) s none (.int32 v :: s)
  | pushFloat {bits : Int} {x : Number.Single} {s : Stack} :
      Number.Binary.ofWord? bits = some x → Takes texts (.pushFloat bits) s none (.float32 x :: s)
  | pushText {operand : Int} {t : Text} {s : Stack} :
      texts operand = .ok t → Takes texts (.pushText operand) s none (.text t :: s)
  | pushTrue {s : Stack} : Takes texts .pushTrue s none (.bool true :: s)
  | pushNull {s : Stack} : Takes texts .pushNull s none (.null :: s)
  | pushCode {v : Int} {s : Stack} : Takes texts (.pushCode v) s none (.ofCode v :: s)
  | time {v : Int} {s : Stack} : Takes texts .call (.uint16 0 :: .int32 v :: s) (some (.time v)) s
  | runMacro {code : Nat} {s : Stack} :
      code ≠ 0 → Takes texts .call (.uint16 code :: s) (some (.runMacro code)) s
  | exit {v : Int} {s : Stack} : Takes texts .exit (.int32 v :: s) (some (.exit v)) s
  | callSub {count number : Int} {shown : List Text} {s s' : Stack} :
      Stack.popArguments (count - 1).toNat false [] s
        = .ok shown (.bool true :: .int32 number :: .int32 descriptorMarker :: s') →
      Takes texts (.callSub count) s (some (.sub number shown)) s'

/-- A step takes the instruction of its record. -/
theorem takes_of_step {texts : Int → Except Error Text} {record : Record} {position : Int} {s s' : Stack}
    {st : Option Statement} (h : step texts record position s = .ok st s') :
    ∃ i, record.instruction? = some i ∧ Takes texts i s st s' := by
  unfold step Stack.perform at h
  cases hi : record.instruction? with
  | none =>
    rw [hi] at h
    contradiction
  | some i =>
    rw [hi] at h
    refine ⟨i, rfl, ?_⟩
    cases i with
    | finish => contradiction
    | pushInt v =>
      cases h
      exact .pushInt
    | pushTrue =>
      cases h
      exact .pushTrue
    | pushNull =>
      cases h
      exact .pushNull
    | pushCode v =>
      cases h
      exact .pushCode
    | pushFloat bits =>
      dsimp only at h
      cases hx : Number.Binary.ofWord? bits with
      | none =>
        rw [hx] at h
        contradiction
      | some x =>
        rw [hx] at h
        cases h
        exact .pushFloat hx
    | pushText operand =>
      obtain ⟨t, s₁, hlookup, hpush⟩ := Attempt.bind_eq_ok.1 h
      obtain ⟨htext, rfl⟩ := Attempt.ofExcept_eq_ok_iff.1 hlookup
      cases hpush
      exact .pushText htext
    | call =>
      obtain ⟨code, s₁, hcode, h⟩ := Attempt.bind_eq_ok.1 h
      rw [Stack.popUInt16_eq_ok_iff.1 hcode]
      by_cases hzero : code = 0
      · rw [if_pos hzero] at h
        obtain ⟨v, s₂, hv, h⟩ := Attempt.bind_eq_ok.1 h
        cases h
        rw [hzero, Stack.popInt32_eq_ok_iff.1 hv]
        exact .time
      · rw [if_neg hzero] at h
        cases h
        exact .runMacro hzero
    | exit =>
      obtain ⟨v, s₁, hv, h⟩ := Attempt.bind_eq_ok.1 h
      cases h
      rw [Stack.popInt32_eq_ok_iff.1 hv]
      exact .exit
    | callSub count =>
      obtain ⟨shown, s₁, hpop, h⟩ := Attempt.bind_eq_ok.1 h
      obtain ⟨number, s₂, hdescriptor, h⟩ := Attempt.bind_eq_ok.1 h
      cases h
      rw [Stack.popDescriptor_eq_ok_iff.1 hdescriptor] at hpop
      exact .callSub hpop

/-- **What a step does**, wherever its record was read. -/
theorem step_eq_ok_iff {texts : Int → Except Error Text} {record : Record} {position : Int} {s s' : Stack}
    {st : Option Statement} :
    step texts record position s = .ok st s' ↔
      ∃ i, record.instruction? = some i ∧ Takes texts i s st s' := by
  refine ⟨takes_of_step, ?_⟩
  intro h
  obtain ⟨i, hi, htakes⟩ := h
  unfold step Stack.perform
  rw [hi]
  cases htakes with
  | pushInt | pushTrue | pushNull | pushCode | time | exit => rfl
  | pushFloat hx =>
    dsimp only
    rw [hx]
    rfl
  | pushText htext =>
    exact Attempt.bind_eq_ok.2 ⟨_, _, Attempt.ofExcept_eq_ok_iff.2 ⟨htext, rfl⟩, rfl⟩
  | runMacro hcode =>
    refine Attempt.bind_eq_ok.2 ⟨_, _, Stack.popUInt16_eq_ok_iff.2 rfl, ?_⟩
    rw [if_neg hcode]
    rfl
  | callSub hpop =>
    exact Attempt.bind_eq_ok.2 ⟨_, _, hpop,
      Attempt.bind_eq_ok.2 ⟨_, _, Stack.popDescriptor_eq_ok_iff.2 rfl, rfl⟩⟩

/-- A record that was taken: the stack it found, and the statement that it completed. -/
structure Event where
  record : Record
  stack : Stack
  statement : Option Statement

/-- The records of events. -/
def records (events : List Event) : List Record := events.map Event.record

/-- The statements that events completed. -/
def statements (events : List Event) : List Statement := events.filterMap Event.statement

@[simp] theorem length_records (events : List Event) : (records events).length = events.length :=
  List.length_map _

theorem statements_cons (event : Event) (events : List Event) :
    statements (event :: events) = event.statement.toList ++ statements events := by
  simp only [statements, List.filterMap_cons]
  cases event.statement <;> rfl

@[simp] theorem records_append (events events' : List Event) :
    records (events ++ events') = records events ++ records events' := List.map_append

@[simp] theorem statements_append (events events' : List Event) :
    statements (events ++ events') = statements events ++ statements events' := List.filterMap_append

/-- `Steps texts s events s'`: taking the records of the events one after another leads from the stack
`s` to the stack `s'`. -/
inductive Steps (texts : Int → Except Error Text) : Stack → List Event → Stack → Prop where
  | nil {s : Stack} : Steps texts s [] s
  | cons {s s' s'' : Stack} {record : Record} {position : Int} {statement : Option Statement}
      {events : List Event} :
      step texts record position s = .ok statement s' → Steps texts s' events s'' →
      Steps texts s (⟨record, s, statement⟩ :: events) s''

theorem Steps.append {texts : Int → Except Error Text} {s s' s'' : Stack} {events events' : List Event}
    (h : Steps texts s events s') (h' : Steps texts s' events' s'') :
    Steps texts s (events ++ events') s'' := by
  induction h with
  | nil => exact h'
  | cons hstep _ ih => exact .cons hstep (ih h')

/-- A run over bytes: the records of the events stand from `position` on, a sentinel stands behind
them, and their steps lead from the stack `s` to the stack `s'`. -/
structure Run (settings : Settings) (bytes : List UInt8) (position : Nat) (s : Stack)
    (events : List Event) (s' : Stack) : Prop where
  steps : Steps (textsOf settings bytes) s events s'
  stands : ∃ sentinel : Record, sentinel.isSentinel = true ∧
    Record.StandAt bytes position (records events ++ [sentinel])

/-- Where a step succeeds does not matter. -/
theorem step_position {texts : Int → Except Error Text} {record : Record} {position position' : Int}
    {s s' : Stack} {statement : Option Statement}
    (h : step texts record position s = .ok statement s') :
    step texts record position' s = .ok statement s' := by
  exact step_eq_ok_iff.2 (step_eq_ok_iff.1 h)

/-- A sentinel is no step. -/
theorem not_isSentinel_of_step {texts : Int → Except Error Text} {record : Record} {position : Int}
    {s s' : Stack} {statement : Option Statement}
    (h : step texts record position s = .ok statement s') : record.isSentinel = false := by
  obtain ⟨i, hi, htakes⟩ := step_eq_ok_iff.1 h
  cases hs : record.isSentinel with
  | false => rfl
  | true =>
    have hfinish : record.instruction? = some .finish := by
      simp only [Record.isSentinel, beq_iff_eq] at hs
      simp [Record.instruction?, hs]
    rw [Option.some.inj (hi.symm.trans hfinish)] at htakes
    cases htakes

/-! ## Runs of the decoder -/

variable {settings : Settings} {bytes : List UInt8} {position : Nat} {s s' : Stack}

/-- A decoder reads the record that stands at its position. -/
theorem onStream_read_eq_ok_iff {record : Record} {d : Decoder} :
    Decoder.onStream Record.read ⟨settings, ⟨bytes, position⟩, s⟩ = .ok record d ↔
      Record.StandAt bytes position [record] ∧ d = ⟨settings, ⟨bytes, position + recordSize⟩, s⟩ := by
  unfold Decoder.onStream Attempt.within
  dsimp only
  rw [Record.standAt_singleton_iff]
  cases hread : Record.read ⟨bytes, position⟩ with
  | ok r t =>
    obtain ⟨_, _, rfl⟩ := Record.read_eq_ok_iff.1 hread
    simp only [EStateM.Result.ok.injEq, and_true]
    exact ⟨fun h => ⟨h.1, h.2.symm⟩, fun h => ⟨h.1, h.2.symm⟩⟩
  | error e t => simp

/-- Taking a record succeeds with its step. -/
theorem execute_eq_ok_iff {record : Record} {origin : Int} {d : Decoder} {statement : Option Statement} :
    Decoder.execute record origin ⟨settings, ⟨bytes, position⟩, s⟩ = .ok statement d ↔
      ∃ s', step (textsOf settings bytes) record origin s = .ok statement s' ∧
        d = ⟨settings, ⟨bytes, position⟩, s'⟩ := by
  rw [execute_eq]
  unfold Decoder.onStack Attempt.within
  dsimp only
  cases step (textsOf settings bytes) record origin s with
  | ok st t =>
    simp only [EStateM.Result.ok.injEq]
    constructor
    · rintro ⟨rfl, rfl⟩
      exact ⟨t, ⟨rfl, rfl⟩, rfl⟩
    · rintro ⟨_, ⟨rfl, rfl⟩, rfl⟩
      exact ⟨rfl, rfl⟩
  | error e t => simp

/-- Where a record stands, decoding ends at it, or takes its step and goes on behind it. -/
theorem transcribe_of_standAt {record : Record} (h : Record.StandAt bytes position [record]) :
    Decoder.transcribe ⟨settings, ⟨bytes, position⟩, s⟩ =
      if record.isSentinel then ⟨[], none, ⟨settings, ⟨bytes, position + recordSize⟩, s⟩⟩
      else match step (textsOf settings bytes) record position s with
        | .error e s' => ⟨[], some e, ⟨settings, ⟨bytes, position + recordSize⟩, s'⟩⟩
        | .ok statement s' =>
          (Decoder.transcribe ⟨settings, ⟨bytes, position + recordSize⟩, s'⟩).prepend statement := by
  have hread : Decoder.onStream Record.read ⟨settings, ⟨bytes, position⟩, s⟩ =
      .ok record ⟨settings, ⟨bytes, position + recordSize⟩, s⟩ :=
    onStream_read_eq_ok_iff.2 ⟨h, rfl⟩
  rw [Decoder.transcribe]
  split
  · next heq => rw [hread] at heq; contradiction
  · next r d' heq =>
    rw [hread] at heq
    injection heq with hr hd
    subst hr hd
    have hexecute : Decoder.execute record position ⟨settings, ⟨bytes, position + recordSize⟩, s⟩ =
        match step (textsOf settings bytes) record position s with
        | .error e s' => .error e ⟨settings, ⟨bytes, position + recordSize⟩, s'⟩
        | .ok statement s' => .ok statement ⟨settings, ⟨bytes, position + recordSize⟩, s'⟩ := by
      rw [execute_eq]
      unfold Decoder.onStack Attempt.within
      cases step (textsOf settings bytes) record position s <;> rfl
    cases hstep : step (textsOf settings bytes) record position s with
    | error e s' =>
      rw [hstep] at hexecute
      split
      · rfl
      · split
        · next heq =>
          rw [hexecute] at heq
          injection heq with he hd
          rw [← he, ← hd]
        · next heq => rw [hexecute] at heq; contradiction
    | ok statement s' =>
      rw [hstep] at hexecute
      split
      · rfl
      · split
        · next heq => rw [hexecute] at heq; contradiction
        · next heq =>
          rw [hexecute] at heq
          injection heq with hst hd
          rw [← hst, ← hd]

theorem transcribe_sentinel {record : Record} (h : Record.StandAt bytes position [record])
    (hs : record.isSentinel = true) :
    Decoder.transcribe ⟨settings, ⟨bytes, position⟩, s⟩ =
      ⟨[], none, ⟨settings, ⟨bytes, position + recordSize⟩, s⟩⟩ := by
  rw [transcribe_of_standAt h, if_pos hs]

theorem transcribe_step {record : Record} (h : Record.StandAt bytes position [record])
    {statement : Option Statement}
    (hstep : step (textsOf settings bytes) record position s = .ok statement s') :
    Decoder.transcribe ⟨settings, ⟨bytes, position⟩, s⟩ =
      (Decoder.transcribe ⟨settings, ⟨bytes, position + recordSize⟩, s'⟩).prepend statement := by
  rw [transcribe_of_standAt h, if_neg (by simp [not_isSentinel_of_step hstep]), hstep]

/-- **A run is what the decoder does.** Where a run leads, decoding ends without a failure, with the
statements of the run, behind the sentinel and with the stack that the run leaves. -/
theorem transcribe_eq_of_run {events : List Event} (h : Run settings bytes position s events s') :
    Decoder.transcribe ⟨settings, ⟨bytes, position⟩, s⟩ =
      ⟨statements events, none,
        ⟨settings, ⟨bytes, position + recordSize * (events.length + 1)⟩, s'⟩⟩ := by
  obtain ⟨hsteps, sentinel, hsentinel, hstands⟩ := h
  generalize htexts : textsOf settings bytes = texts at hsteps
  induction hsteps generalizing position with
  | nil => exact transcribe_sentinel hstands hsentinel
  | cons hstep _ ih =>
    subst htexts
    obtain ⟨hhead, htail⟩ := Record.standAt_cons_iff.1 hstands
    rw [transcribe_step hhead (step_position hstep), ih htail]
    simp only [Transcript.prepend, statements_cons, List.length_cons, Transcript.mk.injEq,
      Decoder.mk.injEq, Stream.mk.injEq, true_and, and_true, recordSize]
    omega

/-- Decoding gives what a run amounts to. -/
theorem decode_eq_of_run {events : List Event} (h : Run settings bytes position s events s') :
    Decoder.decode ⟨settings, ⟨bytes, position⟩, s⟩ =
      .ok ⟨statements events, none,
        ⟨settings, ⟨bytes, position + recordSize * (events.length + 1)⟩, s'⟩⟩ := by
  unfold Decoder.decode
  rw [transcribe_eq_of_run h]

/-- **What the decoder does without a failure is a run.** -/
theorem exists_run (d : Decoder) (h : d.transcribe.failure = none) :
    ∃ events, Run d.settings d.stream.bytes d.stream.position d.stack events d.transcribe.leftover := by
  fun_induction Decoder.transcribe d with
  | case1 | case3 => contradiction
  | case2 d record d' hread hsentinel =>
    obtain ⟨hstands, rfl⟩ := onStream_read_eq_ok_iff.1 hread
    exact ⟨[], .nil, record, hsentinel, hstands⟩
  | case4 d record d' hread hsentinel statement d'' hrun ih =>
    obtain ⟨hstands, rfl⟩ := onStream_read_eq_ok_iff.1 hread
    obtain ⟨s', hstep, rfl⟩ := execute_eq_ok_iff.1 hrun
    obtain ⟨events, hsteps, sentinel, hs, hrest⟩ := ih h
    exact ⟨⟨record, d.stack, statement⟩ :: events, .cons hstep hsteps, sentinel, hs,
      Record.standAt_cons_iff.2 ⟨hstands, hrest⟩⟩

/-! ## Runs that end anyhow -/

/-- What decoding gives is what was transcribed. -/
theorem eq_transcribe_of_decode {d : Decoder} {t : Transcript} (h : d.decode = .ok t) : t = d.transcribe := by
  unfold Decoder.decode at h
  dsimp only at h
  split at h
  · split at h
    · exact (Except.ok.inj h).symm
    · contradiction
  · exact (Except.ok.inj h).symm

/-- What was done from a position and a stack on: the records of the events stand there, and their steps lead
to the stack `s'`. -/
structure Trace (settings : Settings) (bytes : List UInt8) (position : Nat) (s : Stack) (events : List Event)
    (s' : Stack) : Prop where
  steps : Steps (textsOf settings bytes) s events s'
  stands : Record.StandAt bytes position (records events)

/-- **Whatever ends a run, its statements are those of a trace.** -/
theorem exists_trace (d : Decoder) :
    ∃ events s', Trace d.settings d.stream.bytes d.stream.position d.stack events s' ∧
      d.transcribe.statements = statements events := by
  have hnone : ∀ d : Decoder, Trace d.settings d.stream.bytes d.stream.position d.stack [] d.stack :=
    fun d => ⟨.nil, Record.standAt_nil _ _⟩
  fun_induction Decoder.transcribe d with
  | case1 d | case2 d | case3 d => exact ⟨[], d.stack, hnone d, rfl⟩
  | case4 d record d' hread hsentinel statement d'' hrun ih =>
    obtain ⟨hstands, rfl⟩ := onStream_read_eq_ok_iff.1 hread
    obtain ⟨s', hstep, rfl⟩ := execute_eq_ok_iff.1 hrun
    obtain ⟨events, s'', ⟨hsteps, hrest⟩, hstatements⟩ := ih
    refine ⟨⟨record, d.stack, statement⟩ :: events, s'',
      ⟨.cons hstep hsteps, Record.standAt_cons_iff.2 ⟨hstands, hrest⟩⟩, ?_⟩
    rw [statements_cons, Transcript.prepend, hstatements]

end Machine
end Storyboard
