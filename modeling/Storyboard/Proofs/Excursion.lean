/-
What is looked at elsewhere in a stream, and how that ends.

A text that is looked at elsewhere is spelled by the bytes in front of the first zero (`Stream.EndsAt`), if that is near
enough. `Stream.TextOutcome` has one constructor for each way in which looking at a text ends, and
`Stream.outcome_readTextAt_iff` says that it always ends in one of them, as that one says, and that the stream is as it
was. This holds for any decoders, so for any encodings.
-/
import Storyboard.Proofs.Refinement

namespace Storyboard

namespace Settings

/-- Why bytes are not decoded: the decoder of the encoding refuses them, there is none, or the name is no name. -/
inductive CodecFault (decoders : Decoders) (name : String) (bytes : List UInt8) : Error → Prop where
  | refused {decode : List UInt8 → Except Error Text} {e : Error} :
      decoders name = some decode → decode bytes = .error e → CodecFault decoders name bytes e
  | unknownEncoding : decoders name = none → CodecFault decoders name bytes (.unknownEncoding name)
  | zeroInName : '\x00' ∈ name.toList → CodecFault decoders name bytes .zeroInName

/-- **Decoding fails with a fault of the codec**, and with nothing else, whatever decoders there are. -/
theorem failsOnly_codecFault (decoders : Decoders) (name : String) (limit : Option Int) (bytes : List UInt8) :
    FailsOnly (CodecFault decoders name bytes) (decodeTextWith decoders ⟨some name, limit⟩ bytes) := by
  have hname : FailsOnly (CodecFault decoders name bytes) (encodingName ⟨some name, limit⟩) := by
    unfold encodingName
    dsimp only
    split
    · next hzero => exact .error (.zeroInName hzero)
    · exact .ok _
  unfold decodeTextWith
  refine hname.bind fun name' hname' => ?_
  have hsame : name' = name := by
    unfold encodingName at hname'
    dsimp only at hname'
    split at hname'
    · contradiction
    · exact (Except.ok.inj hname').symm
  rw [hsame]
  split
  · exact .ok _
  · cases hdecoder : decoders name with
    | none => exact .error (.unknownEncoding hdecoder)
    | some decode => exact fun e he => .refused hdecoder he

end Settings

namespace Stream

variable {decoders : Settings.Decoders} {bytes : List UInt8} {limit target : Int} {start length : Nat} {name : String}

/-! ## Where a text ends -/

/-- The first zero from `start` on stands behind `length` bytes, and is among the `limit` bytes that are looked at. -/
structure EndsAt (bytes : List UInt8) (limit : Int) (start length : Nat) : Prop where
  zero : bytes[start + length]? = some 0
  first : ∀ n < length, bytes[start + n]? ≠ some 0
  near : (length : Int) < limit

/-- A text ends where the first zero is found among the bytes that are looked at. -/
theorem findIdx?_eq_some_iff_endsAt :
    ((bytes.drop start).take limit.toNat).findIdx? (· = 0) = some length ↔ EndsAt bytes limit start length := by
  have hbyte : ∀ {n : Nat}, n < limit.toNat → ((bytes.drop start).take limit.toNat)[n]? = bytes[start + n]? := by
    intro n hn
    rw [List.getElem?_take_of_lt hn, List.getElem?_drop]
  rw [List.findIdx?_eq_some_iff_getElem]
  constructor
  · intro h
    obtain ⟨hlength, hzero, hfirst⟩ := h
    have hnear : length < limit.toNat := by
      rw [List.length_take] at hlength
      omega
    refine ⟨?_, fun n hn hn0 => ?_, by omega⟩
    · rw [← hbyte hnear, List.getElem?_eq_getElem hlength]
      exact congrArg some (of_decide_eq_true hzero)
    · rw [← hbyte (hn.trans hnear), List.getElem?_eq_getElem (hn.trans hlength)] at hn0
      exact hfirst n hn (decide_eq_true (Option.some.inj hn0))
  · intro h
    obtain ⟨hzero, hfirst, hnear⟩ := h
    have hwithin : length < limit.toNat := by omega
    rw [← hbyte hwithin] at hzero
    obtain ⟨hlength, hzero⟩ := List.getElem?_eq_some_iff.1 hzero
    refine ⟨hlength, decide_eq_true hzero, fun n hn hn0 => hfirst n hn ?_⟩
    rw [← hbyte (hn.trans hwithin), List.getElem?_eq_getElem (hn.trans hlength)]
    exact congrArg some (of_decide_eq_true hn0)

/-! ## How looking at a text ends -/

/-- `TextOutcome decoders name limit bytes target outcome`: looking at a text at `target` ends in `outcome`. -/
inductive TextOutcome (decoders : Settings.Decoders) (name : String) (limit : Int) (bytes : List UInt8) (target : Int) :
    Except Error Text → Prop where
  /-- The bytes in front of the first zero are decoded. -/
  | text {length : Nat} {t : Text} :
      0 ≤ target → target < offsetLimit → EndsAt bytes limit target.toNat length →
      Settings.decodeTextWith decoders ⟨some name, some limit⟩ ((bytes.drop target.toNat).take length) = .ok t →
      TextOutcome decoders name limit bytes target (.ok t)
  /-- The codec does not take them. -/
  | codecFault {length : Nat} {e : Error} :
      0 ≤ target → target < offsetLimit → EndsAt bytes limit target.toNat length →
      Settings.decodeTextWith decoders ⟨some name, some limit⟩ ((bytes.drop target.toNat).take length) = .error e →
      Settings.CodecFault decoders name ((bytes.drop target.toNat).take length) e →
      TextOutcome decoders name limit bytes target (.error e)
  /-- There is no zero among the bytes that are looked at. -/
  | unterminated :
      0 ≤ target → target < offsetLimit → (∀ length, ¬EndsAt bytes limit target.toNat length) →
      TextOutcome decoders name limit bytes target (.error (.unterminatedText target.toNat limit))
  | negative : target < 0 → TextOutcome decoders name limit bytes target (.error (.negativeOffset target))
  /-- No stream has such a position. -/
  | outOfReach : offsetLimit ≤ target → TextOutcome decoders name limit bytes target (.error .offsetOverflow)

/-- Looking at a text fails where it cannot be gone to, and else finds a zero and decodes what is in front of it. -/
theorem outcome_readTextAtWith (decoders : Settings.Decoders) (name : String) (limit target : Int) (s : Stream) :
    Attempt.outcome (readTextAtWith decoders ⟨some name, some limit⟩ target s) =
      if target < 0 then .error (.negativeOffset target)
      else if offsetLimit ≤ target then .error .offsetOverflow
      else match ((s.bytes.drop target.toNat).take limit.toNat).findIdx? (· = 0) with
      | none => .error (.unterminatedText target.toNat limit)
      | some length =>
        Settings.decodeTextWith decoders ⟨some name, some limit⟩
          (((s.bytes.drop target.toNat).take limit.toNat).take length) := by
  unfold readTextAtWith
  rw [outcome_elsewhere]
  exact if_congr Iff.rfl rfl (if_congr Iff.rfl rfl (Machine.outcome_readTextWith ..))

/-- Looking at a text ends in one of these ways. -/
theorem textOutcome_readTextAtWith (decoders : Settings.Decoders) (name : String) (limit target : Int) (s : Stream) :
    TextOutcome decoders name limit s.bytes target
      (Attempt.outcome (readTextAtWith decoders ⟨some name, some limit⟩ target s)) := by
  rw [outcome_readTextAtWith]
  by_cases h0 : target < 0
  · rw [if_pos h0]
    exact .negative h0
  by_cases hlt : offsetLimit ≤ target
  · rw [if_neg h0, if_pos hlt]
    exact .outOfReach hlt
  rw [if_neg h0, if_neg hlt]
  rw [Int.not_lt] at h0
  rw [Int.not_le] at hlt
  cases hzero : ((s.bytes.drop target.toNat).take limit.toNat).findIdx? (· = 0) with
  | none =>
    refine .unterminated h0 hlt fun length h => ?_
    rw [findIdx?_eq_some_iff_endsAt.2 h] at hzero
    contradiction
  | some length =>
    have hends := findIdx?_eq_some_iff_endsAt.1 hzero
    have hspelled : ((s.bytes.drop target.toNat).take limit.toNat).take length
        = (s.bytes.drop target.toNat).take length := by
      rw [List.take_take, Nat.min_eq_left]
      have := hends.near
      omega
    dsimp only
    rw [hspelled]
    cases hdecode :
      Settings.decodeTextWith decoders ⟨some name, some limit⟩ ((s.bytes.drop target.toNat).take length) with
    | ok t => exact .text h0 hlt hends hdecode
    | error e => exact .codecFault h0 hlt hends hdecode (Settings.failsOnly_codecFault _ _ _ _ e hdecode)

/-- A text has one end. -/
theorem EndsAt.unique {length' : Nat} (h : EndsAt bytes limit start length) (h' : EndsAt bytes limit start length') :
    length = length' :=
  Option.some.inj ((findIdx?_eq_some_iff_endsAt.2 h).symm.trans (findIdx?_eq_some_iff_endsAt.2 h'))

/-- Looking at a text ends in one way only. -/
theorem TextOutcome.unique {outcome outcome' : Except Error Text}
    (h : TextOutcome decoders name limit bytes target outcome)
    (h' : TextOutcome decoders name limit bytes target outcome') : outcome = outcome' := by
  have hreach : (0 : Int) < offsetLimit := by decide
  cases h with
  | negative h0 => cases h' <;> first | rfl | omega
  | outOfReach hlt => cases h' <;> first | rfl | omega
  | unterminated h0 hlt hnone =>
    cases h' with
    | unterminated => rfl
    | text _ _ hends | codecFault _ _ hends => exact absurd hends (hnone _)
    | negative | outOfReach => omega
  | text h0 hlt hends hdecode | codecFault h0 hlt hends hdecode =>
    cases h' with
    | text _ _ hends' hdecode' | codecFault _ _ hends' hdecode' =>
      rw [hends.unique hends'] at hdecode
      exact hdecode.symm.trans hdecode'
    | unterminated _ _ hnone => exact absurd hends (hnone _)
    | negative | outOfReach => omega

/-- **Looking at a text is exact and leaves the stream as it was.** Whatever decoders there are, at any position of a
stream, for any place, limit and name of an encoding, it ends in the text that is decoded from the bytes in front of the
first zero, with what the codec has against these bytes, without a zero among the bytes that are looked at, or with a
place that cannot be gone to. Behind each of these, and behind looking at a word however that ends, there are the same
bytes and the same position. Looking at a text in one of the encodings that are modelled is one case. -/
theorem outcome_readTextAt_iff (name : String) (limit target : Int) (s : Stream) :
    (∀ decoders,
      (∀ outcome, Attempt.outcome (readTextAtWith decoders ⟨some name, some limit⟩ target s) = outcome ↔
        TextOutcome decoders name limit s.bytes target outcome) ∧
      Attempt.final (readTextAtWith decoders ⟨some name, some limit⟩ target s) = s) ∧
    readTextAt ⟨some name, some limit⟩ target = readTextAtWith Settings.decoders ⟨some name, some limit⟩ target ∧
    ∀ place, Attempt.final (readWordAt place s) = s := by
  refine ⟨fun decoders => ⟨fun outcome => ⟨fun h => ?_, fun h => ?_⟩, final_readTextAtWith _ _ target s⟩, rfl,
    fun place => final_readWordAt place s⟩
  · rw [← h]
    exact textOutcome_readTextAtWith decoders name limit target s
  · exact (textOutcome_readTextAtWith decoders name limit target s).unique h

/-- Where no stream has a position, it is not the missing zero that is told. -/
theorem not_unterminated_of_far : ¬∀ (name : String) (limit target : Int) (s : Stream), 0 ≤ target →
    (∀ length, ¬EndsAt s.bytes limit target.toNat length) →
    Attempt.outcome (readTextAt ⟨some name, some limit⟩ target s) = .error (.unterminatedText target.toNat limit) := by
  intro claim
  have hfar : ∀ length, ¬EndsAt [0x61, 0] 16 offsetLimit.toNat length := by
    intro length h
    have hzero := h.zero
    rw [List.getElem?_eq_none (Nat.le_add_right_of_le (by decide))] at hzero
    contradiction
  have hoverflow : Attempt.outcome (readTextAt ⟨some "ascii", some 16⟩ offsetLimit ⟨[0x61, 0], 0⟩)
      = .error .offsetOverflow := rfl
  have hclaim := claim "ascii" 16 offsetLimit ⟨[0x61, 0], 0⟩ (by decide) hfar
  rw [hoverflow] at hclaim
  contradiction

end Stream
end Storyboard
