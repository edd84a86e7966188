/-
The decoder as the fold of a pure step over records.

`Record.chop` cuts bytes into records, `Machine.lookUp` finds a text in bytes without a reader, and `Machine.fold`
takes one record after another on a stack alone. `decode_eq_fold` says that decoding from a position, which reads
records and looks at texts with one and the same position, gives what the fold gives; each record is read a
whole number of records behind the start, whatever texts have been looked at by then (`Advances.stream_eq`).
-/
import Storyboard.Proofs.Reach
import Storyboard.Proofs.Relocation

namespace Storyboard

/-! ## Records from bytes -/

namespace Record

variable {code : List UInt8} {r : Record}

/-- Cuts bytes into records; fewer bytes than a record at the end are no record. -/
def chop : List UInt8 → List Record
  | a₀ :: a₁ :: a₂ :: a₃ :: b₀ :: b₁ :: b₂ :: b₃ :: c₀ :: c₁ :: c₂ :: c₃ :: code =>
    ⟨Word.ofBytes a₀ a₁ a₂ a₃, Word.ofBytes b₀ b₁ b₂ b₃, Word.ofBytes c₀ c₁ c₂ c₃⟩ :: chop code
  | _ => []

theorem chop_of_short (h : code.length < recordSize) : chop code = [] := by
  unfold chop
  split
  · simp only [List.length_cons, recordSize] at h
    omega
  · rfl

theorem chop_bytes_append (h : r.Fits) (code : List UInt8) : chop (r.bytes ++ code) = r :: chop code := by
  obtain ⟨ho, hv, hp⟩ := h
  simp only [bytes, Word.toBytes, List.cons_append, List.nil_append, chop, Word.ofBytes_toBytes,
    Word.wrap_of_fits ho, Word.wrap_of_fits hv, Word.wrap_of_fits hp]

/-- The record of an index is the one that stands there. -/
theorem getElem?_chop_eq_some_iff {k : Nat} :
    (chop code)[k]? = some r ↔ StandAt code (recordSize * k) [r] := by
  induction code using code_induction generalizing k with
  | short code h =>
    have hnone : ¬StandAt code (recordSize * k) [r] := by
      intro hstands
      have hlength := hstands.2.length_le
      rw [length_flatMap_bytes, List.length_drop, List.length_singleton] at hlength
      omega
    rw [chop_of_short h]
    simp [hnone]
  | record r' code hr' ih =>
    have hhead : StandAt (r'.bytes ++ code) 0 [r'] := ⟨by simpa using hr', by simp⟩
    rw [chop_bytes_append hr']
    cases k with
    | zero =>
      rw [List.getElem?_cons_zero, Nat.mul_zero, Option.some_inj]
      constructor
      · intro heq
        rwa [← heq]
      · intro hstands
        exact hhead.unique hstands
    | succ k =>
      have hdrop : (r'.bytes ++ code).drop (recordSize * (k + 1)) = code.drop (recordSize * k) := by
        rw [Nat.mul_succ, Nat.add_comm, ← List.drop_drop, List.drop_left' (length_bytes r')]
      rw [List.getElem?_cons_succ, ih, StandAt, StandAt, hdrop]

/-- Where a record's bytes come first it stands, and the bytes behind it come next. -/
theorem standAt_of_drop {bytes : List UInt8} {position : Nat} (hr : r.Fits)
    (h : bytes.drop position = r.bytes ++ code) :
    StandAt bytes position [r] ∧ bytes.drop (position + recordSize) = code := by
  refine ⟨⟨by simpa using hr, by rw [h]; simp⟩, ?_⟩
  rw [← List.drop_drop, h, List.drop_left' (length_bytes r)]

theorem standAt_drop_iff {bytes : List UInt8} {position n : Nat} {rs : List Record} :
    StandAt (bytes.drop position) n rs ↔ StandAt bytes (position + n) rs := by
  rw [StandAt, StandAt, List.drop_drop]

theorem length_chop (code : List UInt8) : (chop code).length = code.length / recordSize := by
  induction code using code_induction with
  | short code h => rw [chop_of_short h, Nat.div_eq_of_lt h, List.length_nil]
  | record r code hr ih =>
    rw [chop_bytes_append hr, List.length_cons, ih, List.length_append, length_bytes, Nat.add_div_left _ (by decide)]

end Record

/-! ## Texts in bytes -/

namespace Machine

variable {settings : Settings} {bytes : List UInt8} {position : Nat} {s s' : Stack}

/-- The text that an operand refers to: the bytes up to a zero, which must be among those that are looked at. -/
def lookUp (settings : Settings) (bytes : List UInt8) (operand : Int) : Except Error Text :=
  let target := operand + textOperandBias
  if target < 0 then .error (.negativeOffset target)
  else match settings.scanLimit with
    | none => .error .settingMissing
    | some limit =>
      let window := (bytes.drop target.toNat).take limit.toNat
      match window.findIdx? (· = 0) with
      | none => .error (.unterminatedText target.toNat limit)
      | some length => settings.decodeText (window.take length)

/-- Reading a text is looking up its bytes. -/
theorem outcome_readTextWith (decoders : Settings.Decoders) (settings : Settings) (bytes : List UInt8) (target : Nat) :
    Attempt.outcome (Stream.readTextWith decoders settings ⟨bytes, target⟩) =
      match settings.scanLimit with
      | none => .error .settingMissing
      | some limit =>
        match ((bytes.drop target).take limit.toNat).findIdx? (· = 0) with
        | none => .error (.unterminatedText target limit)
        | some length => settings.decodeTextWith decoders (((bytes.drop target).take limit.toNat).take length) := by
  unfold Stream.readTextWith
  cases settings.scanLimit with
  | none => rfl
  | some limit =>
    dsimp only [Stream.rest]
    generalize (bytes.drop target).take limit.toNat = window
    have hspelled : window.takeWhile (· ≠ 0) = window.take (window.findIdx (· = 0)) := by
      simp [List.takeWhile_eq_take_findIdx_not]
    have hlength : (window.takeWhile (· ≠ 0)).length = window.findIdx (· = 0) := by
      rw [hspelled, List.length_take, Nat.min_eq_left List.findIdx_le_length]
    cases hzero : window.findIdx? (· = 0) with
    | none =>
      have hwhole : window.findIdx (· = 0) = window.length :=
        List.findIdx_eq_length.2 (List.findIdx?_eq_none_iff.1 hzero)
      rw [if_pos (hlength.trans hwhole)]
      rfl
    | some length =>
      obtain ⟨hlt, hindex⟩ := List.findIdx?_eq_some_iff_findIdx_eq.1 hzero
      rw [if_neg (by omega), hspelled, hindex]
      dsimp only
      cases settings.decodeTextWith decoders (window.take length) <;> rfl

/-- The operand of a record is never too far away to be looked up. -/
theorem textsOf_eq_lookUp {operand : Int} (h : Word.Fits operand) :
    textsOf settings bytes operand = lookUp settings bytes operand := by
  have hnear : ¬Stream.offsetLimit ≤ operand + textOperandBias :=
    Stream.not_far h (by simp only [textOperandBias]; omega)
  rw [textsOf, outcome_readTextAt_eq, if_neg hnear, Stream.readText, outcome_readTextWith]
  rfl

theorem step_textsOf_eq {record : Record} (h : record.Fits) (position : Int) :
    step (textsOf settings bytes) record position = step (lookUp settings bytes) record position := by
  unfold step
  cases hi : record.instruction? with
  | none => rfl
  | some i =>
    cases i with
    | pushText operand =>
      have hoperand : Word.Fits operand := Record.fits_operand h hi
      dsimp only
      rw [textsOf_eq_lookUp hoperand]
    | _ => rfl

/-! ## The fold -/

/-- How taking records one after another ends. -/
inductive Ending where
  /-- At a sentinel. -/
  | sentinel
  /-- At a record whose step fails. -/
  | fault (e : Error)
  /-- Where no record is left. -/
  | cutOff
deriving DecidableEq

/-- What taking records one after another gives: the statements, how it ended and behind how many records,
and the stack as it was then. -/
structure Outcome where
  statements : List Statement := []
  ending : Ending
  taken : Nat := 0
  stack : Stack
deriving DecidableEq

/-- The outcome when one more record is taken in front. -/
def Outcome.behind (o : Outcome) (statement : Option Statement) : Outcome :=
  { o with statements := statement.toList ++ o.statements, taken := o.taken + 1 }

/-- Takes records that stand from `position` on, up to a sentinel or a step that fails. -/
def fold (texts : Int → Except Error Text) : (position : Nat) → List Record → Stack → Outcome
  | _, [], s => { ending := .cutOff, stack := s }
  | position, record :: rs, s =>
    if record.isSentinel then { ending := .sentinel, stack := s }
    else match step texts record position s with
      | .error e s' => { ending := .fault e, stack := s' }
      | .ok statement s' => (fold texts (position + recordSize) rs s').behind statement

/-- Only when all records are taken there is none left. -/
theorem taken_fold_of_cutOff (texts : Int → Except Error Text) (position : Nat) (rs : List Record) (s : Stack)
    (h : (fold texts position rs s).ending = .cutOff) : (fold texts position rs s).taken = rs.length := by
  induction rs generalizing position s with
  | nil => rfl
  | cons record rs ih =>
    unfold fold at h ⊢
    split at h
    · contradiction
    · next hsentinel =>
      rw [if_neg hsentinel]
      split at h
      · contradiction
      · next s' hstep =>
        exact congrArg (· + 1) (ih (position + recordSize) s' h)

/-- The run of a decoder that ends like an outcome, where its records stand from `position` on. The decoder has
read the record that ends the run, or what is there of one, in words. -/
def Outcome.transcript (o : Outcome) (settings : Settings) (bytes : List UInt8) (position : Nat) : Transcript :=
  let stop := position + recordSize * o.taken
  let left := bytes.length - stop
  match o.ending with
  | .sentinel => ⟨o.statements, none, ⟨settings, ⟨bytes, stop + recordSize⟩, o.stack⟩⟩
  | .fault e => ⟨o.statements, some e, ⟨settings, ⟨bytes, stop + recordSize⟩, o.stack⟩⟩
  | .cutOff =>
    ⟨o.statements, some (.endOfStream (stop + 4 * (left / 4)) 4 (left % 4)),
      ⟨settings, ⟨bytes, stop + left⟩, o.stack⟩⟩

theorem transcript_behind (o : Outcome) (statement : Option Statement) :
    (o.behind statement).transcript settings bytes position =
      (o.transcript settings bytes (position + recordSize)).prepend statement := by
  have hstop : position + recordSize * (o.taken + 1) = position + recordSize + recordSize * o.taken := by
    rw [Nat.mul_succ]
    omega
  unfold Outcome.transcript Outcome.behind
  dsimp only
  rw [hstop]
  cases o.ending <;> rfl

/-- Values that are left behind a sentinel are reported. -/
theorem notices_transcript (o : Outcome) (settings : Settings) (bytes : List UInt8) (position : Nat) :
    (o.transcript settings bytes position).notices =
      if o.ending = .sentinel ∧ o.stack ≠ [] then [.valuesLeft o.stack.length] else [] := by
  unfold Outcome.transcript
  cases o.ending with
  | sentinel => simp [Transcript.notices, Transcript.leftover]
  | fault | cutOff => simp [Transcript.notices]

/-- Where less than a record is left, nothing is taken. -/
theorem transcribe_short (h : (bytes.drop position).length < recordSize) :
    Decoder.transcribe ⟨settings, ⟨bytes, position⟩, s⟩ =
      ({ ending := .cutOff, stack := s } : Outcome).transcript settings bytes position := by
  have hread : Decoder.onStream Record.read ⟨settings, ⟨bytes, position⟩, s⟩ =
      .error (.endOfStream (position + 4 * ((bytes.length - position) / 4)) 4 ((bytes.length - position) % 4))
        ⟨settings, ⟨bytes, position + (bytes.length - position)⟩, s⟩ := by
    unfold Decoder.onStream Attempt.within Record.read
    dsimp only [Stream.rest]
    split
    · next hrecord =>
      split at hrecord
      · next hrest =>
        rw [hrest] at h
        simp only [List.length_cons, recordSize] at h
        omega
      · contradiction
    · next hshort =>
      split at hshort
      · contradiction
      · injection hshort with he ht
        rw [← he, ← ht, List.length_drop]
        congr 2
        omega
  rw [Decoder.transcribe]
  split
  · next heq =>
    rw [hread] at heq
    injection heq with he hd
    rw [← he, ← hd]
    simp only [Outcome.transcript, Nat.mul_zero, Nat.add_zero]
  · next heq =>
    rw [hread] at heq
    contradiction

/-- **A run is the fold of its steps**, from any position and on any stack. -/
theorem transcribe_eq_fold (settings : Settings) (bytes : List UInt8) (position : Nat) (s : Stack) :
    Decoder.transcribe ⟨settings, ⟨bytes, position⟩, s⟩ =
      (fold (lookUp settings bytes) position (Record.chop (bytes.drop position)) s).transcript
        settings bytes position := by
  generalize hcode : bytes.drop position = code
  induction code using code_induction generalizing position s with
  | short code h =>
    rw [Record.chop_of_short h]
    exact transcribe_short (by rwa [hcode])
  | record r code hr ih =>
    obtain ⟨hstands, hnext⟩ := Record.standAt_of_drop hr hcode
    rw [transcribe_of_standAt hstands, step_textsOf_eq hr, Record.chop_bytes_append hr, fold]
    cases hsentinel : r.isSentinel with
    | true => rfl
    | false =>
      rw [if_neg Bool.false_ne_true, if_neg Bool.false_ne_true]
      cases step (lookUp settings bytes) r position s with
      | error e s' => rfl
      | ok statement s' =>
        dsimp only
        rw [transcript_behind, ih (position + recordSize) s' hnext]

/-! ## Positions -/

/-- `Advances k d d'`: the decoder `d` takes `k` records, of which none is a sentinel or fails, and is `d'` then. -/
inductive Advances : Nat → Decoder → Decoder → Prop where
  | zero {d : Decoder} : Advances 0 d d
  | succ {k : Nat} {d d₁ d₂ d' : Decoder} {record : Record} {statement : Option Statement} :
      Decoder.onStream Record.read d = .ok record d₁ → record.isSentinel = false →
      Decoder.execute record d.stream.position d₁ = .ok statement d₂ → Advances k d₂ d' → Advances (k + 1) d d'

/-- **Each record is read right behind the one before it**, whatever texts have been looked at. -/
theorem Advances.stream_eq {k : Nat} {d d' : Decoder} (h : Advances k d d') :
    d'.stream = ⟨d.stream.bytes, d.stream.position + recordSize * k⟩ := by
  induction h with
  | zero => rfl
  | succ hread _ hexecute _ ih =>
    obtain ⟨-, rfl⟩ := onStream_read_eq_ok_iff.1 hread
    obtain ⟨s', -, rfl⟩ := execute_eq_ok_iff.1 hexecute
    rw [ih, Nat.mul_succ, Nat.add_assoc, Nat.add_comm recordSize]

/-- A decoder takes as many records as the fold. -/
theorem exists_advances {k : Nat}
    (h : k ≤ (fold (lookUp settings bytes) position (Record.chop (bytes.drop position)) s).taken) :
    ∃ d', Advances k ⟨settings, ⟨bytes, position⟩, s⟩ d' := by
  generalize hcode : bytes.drop position = code at h
  induction code using code_induction generalizing k position s with
  | short code hshort =>
    rw [Record.chop_of_short hshort] at h
    obtain rfl := Nat.le_zero.1 h
    exact ⟨_, .zero⟩
  | record r code hr ih =>
    obtain ⟨hstands, hnext⟩ := Record.standAt_of_drop hr hcode
    cases k with
    | zero => exact ⟨_, .zero⟩
    | succ k =>
      rw [Record.chop_bytes_append hr, fold] at h
      cases hsentinel : r.isSentinel with
      | true =>
        rw [if_pos hsentinel] at h
        contradiction
      | false =>
        rw [if_neg (by simp [hsentinel])] at h
        cases hstep : step (lookUp settings bytes) r position s with
        | error e s' =>
          rw [hstep] at h
          contradiction
        | ok statement s' =>
          rw [hstep] at h
          obtain ⟨d', hadvances⟩ := ih hnext (Nat.le_of_succ_le_succ h)
          rw [← step_textsOf_eq hr] at hstep
          exact ⟨d', .succ (onStream_read_eq_ok_iff.2 ⟨hstands, rfl⟩) hsentinel
            (execute_eq_ok_iff.2 ⟨s', hstep, rfl⟩) hadvances⟩

/-- **Decoding is the fold of a pure step** over the records that stand one behind another from the start on: it gives
a result, and that is how the fold ends. A notice is given when values are left behind a sentinel. The record of an
index is read that many records behind the start, and the decoder stands there when it has taken those in front of
it. -/
theorem decode_eq_fold (hsettings : settings.Supported) (bytes : List UInt8) (position : Nat) :
    let d : Decoder := ⟨settings, ⟨bytes, position⟩, []⟩
    let records := Record.chop (bytes.drop position)
    let run := fold (lookUp settings bytes) position records []
    let t := run.transcript settings bytes position
    d.decode = .ok t ∧
      t.notices = (if run.ending = .sentinel ∧ run.stack ≠ [] then [.valuesLeft run.stack.length] else []) ∧
      (∀ k r, records[k]? = some r ↔ Record.StandAt bytes (position + recordSize * k) [r]) ∧
      (∀ k ≤ run.taken, ∃ d', Advances k d d' ∧ d'.stream = ⟨bytes, position + recordSize * k⟩) ∧
      (run.ending = .cutOff → bytes.length - (position + recordSize * run.taken) < recordSize) := by
  intro d records run t
  have hrun : d.transcribe = t := transcribe_eq_fold settings bytes position []
  refine ⟨?_, ?_, ?_, ?_, ?_⟩
  · rw [← hrun]
    exact Decoder.decode_eq_transcribe (d.endsDecoding_of_failure hsettings)
  · exact notices_transcript run settings bytes position
  · intro k r
    exact Record.getElem?_chop_eq_some_iff.trans (by rw [Record.standAt_drop_iff])
  · intro k hk
    obtain ⟨d', hd'⟩ := exists_advances hk
    exact ⟨d', hd', hd'.stream_eq⟩
  · intro hcutOff
    have htaken : run.taken = records.length := taken_fold_of_cutOff _ _ _ _ hcutOff
    have hlength : records.length = (bytes.length - position) / recordSize := by
      rw [Record.length_chop, List.length_drop]
    rw [htaken, hlength]
    simp only [recordSize]
    omega

/-- A sub method is called with a text that lies behind the sentinel, and a null is left on the stack. -/
theorem decode_eq_fold_calling :
    let settings : Settings := ⟨some "ascii", some 0x10⟩
    let instructions : List Instruction :=
      [.pushInt 0x40, .pushInt 1, .pushTrue, .pushText (-4), .callSub 2, .pushNull, .finish]
    let bytes := (instructions.map Instruction.toRecord).flatMap Record.bytes ++ [0x68, 0x69, 0]
    settings.Supported ∧ ∃ t, Decoder.decode ⟨settings, ⟨bytes, 0⟩, []⟩ = .ok t ∧
      t.lines = ["sub001(\"hi\");".toList] ∧ t.failure = none ∧ t.leftover = [.null] ∧
      t.notices = [.valuesLeft 1] ∧ t.machine.stream.position = bytes.length - 3 := by
  intro settings instructions bytes
  have hsettings : settings.Supported := ⟨⟨"ascii", .ascii, rfl, by decide +kernel⟩, rfl⟩
  have hrun : fold (lookUp settings bytes) 0 (Record.chop (bytes.drop 0)) [] =
      ⟨[.sub 1 [['"', 'h', 'i', '"']]], .sentinel, 6, [.null]⟩ := by decide +kernel
  obtain ⟨hdecode, hnotices, -⟩ := decode_eq_fold hsettings bytes 0
  rw [hrun] at hdecode hnotices
  exact ⟨hsettings, _, hdecode, rfl, rfl, rfl, hnotices, rfl⟩

end Machine
end Storyboard
