/-
Assembling the lines that decoding gave.

`Event.popped` are the arguments that a call of a sub method consumed. They are shown as text and read again
(`forall₂_same_iff`): all of them come back exactly when the texts among them are plain, that is, without a
mark and without the ending of a text inside. `assemble_decode` says so about every line of every script.
-/
import Mathlib.Data.List.Forall2
import Storyboard.Proofs.Arguments
import Storyboard.Proofs.Numeral
import Storyboard.Proofs.RoundTrip

namespace Storyboard

namespace Machine

/-! ## Arguments -/

/-- A value that was consumed as an argument, and whether a null above it marked it. -/
structure Argument where
  value : Value
  marked : Bool
deriving DecidableEq

/-- The arguments among the values of a stack, down to the last one that is needed, in the order they were
pushed. -/
def consumed : (needed : Nat) → (marked : Bool) → (found : List Argument) → Stack → List Argument
  | 0, _, found, _ => found
  | _ + 1, _, found, [] => found
  | needed + 1, marked, found, v :: s =>
    if v = .null then consumed (needed + 1) true found s else consumed needed false (⟨v, marked⟩ :: found) s

/-- The arguments that an event popped. -/
def Event.popped (e : Event) : List Argument :=
  match e.record.instruction? with
  | some (.callSub count) => consumed (count - 1).toNat false [] e.stack
  | _ => []

/-- The events that completed a statement. -/
def completed (events : List Event) : List Event := events.filter fun e => e.statement.isSome

/-- The argument is shown as the text `t`. -/
def Argument.Shows (a : Argument) (t : Text) : Prop :=
  ∃ content, a.value.argument = .ok content ∧ t = content ++ Literal.markText a.marked

/-- Popping shows what it consumes. -/
theorem shows_of_popArguments {needed : Nat} {marked : Bool} {args : List Argument} {found shown : List Text}
    {s s' : Stack} (hfound : List.Forall₂ Argument.Shows args found)
    (h : Stack.popArguments needed marked found s = .ok shown s') :
    List.Forall₂ Argument.Shows (consumed needed marked args s) shown := by
  fun_induction Stack.popArguments needed marked found s generalizing args with
  | case1 marked found s =>
    injection h with hshown
    rw [consumed, ← hshown]
    exact hfound
  | case2 | case4 => contradiction
  | case3 needed marked found s ih =>
    rw [consumed, if_pos rfl]
    exact ih hfound h
  | case5 needed marked found v s hv content hcontent ih =>
    have hshows : (Argument.mk v marked).Shows (if marked = true then content ++ [Literal.mark] else content) :=
      ⟨content, hcontent, by cases marked <;> simp⟩
    rw [consumed, if_neg hv]
    exact ih (.cons hshows hfound) h

/-- **A call of a sub method shows the arguments that it popped**, and nothing else completes such a line. -/
theorem shows_of_step {texts : Int → Except Error Text} {record : Record} {position number : Int}
    {s s' : Stack} {shown : List Text}
    (h : step texts record position s = .ok (some (.sub number shown)) s') :
    List.Forall₂ Argument.Shows (Event.popped ⟨record, s, some (.sub number shown)⟩) shown := by
  obtain ⟨i, hi, htakes⟩ := takes_of_step h
  unfold Event.popped
  dsimp only
  rw [hi]
  cases htakes with
  | callSub hpop => exact shows_of_popArguments .nil hpop

/-! ## Arguments that are read again -/

/-- The argument is what the literal pushes: the same value, or fractions with the same places shown, and a
null above both or neither. -/
def Argument.Same (a : Argument) (l : Literal) : Prop :=
  l.isMarked = a.marked ∧
    (l.value = a.value ∨ ∃ x y : Number.Single, a.value = .float32 x ∧ l.value = .float32 y ∧
      y.fixed fractionPlaces = x.fixed fractionPlaces)

/-- If the argument is a text, it is not marked and has no ending of a text inside. -/
def Argument.Plain (a : Argument) : Prop :=
  ∀ t, a.value = .text t → a.marked = false ∧ ¬Statement.textEnding <:+: t

/-- What is shown are whole numbers, fractions and texts. -/
theorem argument_eq_ok {v : Value} {content : Text} (h : v.argument = .ok content) :
    (∃ n, v = .int32 n ∧ content = Number.integer n) ∨
      (∃ x, v = .float32 x ∧ x.isFinite = true ∧ content = x.fixed fractionPlaces) ∨
      ∃ t, v = .text t ∧ content = '"' :: t ++ ['"'] := by
  cases v with
  | int32 n => exact .inl ⟨n, rfl, (Except.ok.inj h).symm⟩
  | float32 x =>
    by_cases hx : x.isFinite = true
    · simp only [Value.argument, hx, if_true] at h
      exact .inr (.inl ⟨x, rfl, hx, (Except.ok.inj h).symm⟩)
    · simp only [Value.argument, hx] at h
      cases h
  | text t => exact .inr (.inr ⟨t, rfl, (Except.ok.inj h).symm⟩)
  | bool b | null | uint16 n => cases h

theorem Argument.Shows.ne_nil {a : Argument} {t : Text} (h : a.Shows t) : t ≠ [] := by
  obtain ⟨content, hcontent, rfl⟩ := h
  have hne : content ≠ [] := by
    rcases argument_eq_ok hcontent with ⟨n, -, rfl⟩ | ⟨x, -, -, rfl⟩ | ⟨t, -, rfl⟩
    · exact Literal.signed_ne_nil (Number.digits_decimal _).1
    · exact Literal.signed_ne_nil (List.append_ne_nil_of_left_ne_nil (Number.digits_decimal _).1 _)
    · simp
  exact List.append_ne_nil_of_left_ne_nil hne _

theorem nil_notMem_of_shows {args : List Argument} {shown : List Text}
    (h : List.Forall₂ Argument.Shows args shown) : [] ∉ shown := by
  induction h with
  | nil => exact List.not_mem_nil
  | cons ha _ ih => exact List.not_mem_cons_of_ne_of_not_mem (Ne.symm ha.ne_nil) ih

/-- A plain argument ends where it should. -/
theorem Argument.Shows.cuttable {a : Argument} {t : Text} (h : a.Shows t) (hplain : a.Plain) :
    Statement.Cuttable t := by
  obtain ⟨content, hcontent, rfl⟩ := h
  have hmark : ∀ c, c ≠ Literal.mark → c ∉ content → c ∉ content ++ Literal.markText a.marked :=
    fun c hc hmem => List.not_mem_append hmem (Literal.notMem_markText hc _)
  rcases argument_eq_ok hcontent with ⟨n, -, rfl⟩ | ⟨x, -, -, rfl⟩ | ⟨t, ht, rfl⟩
  · exact Statement.cuttable_of_notMem (hmark _ (by decide) (Literal.notMem_integer (by decide) rfl n))
      (hmark _ (by decide) (Literal.notMem_integer (by decide) rfl n))
  · exact Statement.cuttable_of_notMem
      (hmark _ (by decide) (Literal.notMem_fixed (by decide) (by decide) rfl _ x))
      (hmark _ (by decide) (Literal.notMem_fixed (by decide) (by decide) rfl _ x))
  · obtain ⟨hunmarked, hending⟩ := hplain t ht
    rw [hunmarked]
    simpa using Statement.cuttable_quoted hending

/-- **A plain argument is read as what was shown.** -/
theorem Argument.Shows.same {a : Argument} {t : Text} {l : Literal} (h : a.Shows t) (hplain : a.Plain)
    (hl : Literal.classify t = .ok l) : a.Same l := by
  obtain ⟨content, hcontent, rfl⟩ := h
  rcases argument_eq_ok hcontent with ⟨n, hn, rfl⟩ | ⟨x, hx, hfinite, rfl⟩ | ⟨t, ht, rfl⟩
  · rw [Literal.classify_shown_integer hl]
    exact ⟨rfl, .inl hn.symm⟩
  · obtain ⟨y, hread, -, -, hy⟩ := Literal.classify_shown_fraction hfinite
    obtain rfl := Except.ok.inj ((hread a.marked).symm.trans hl)
    exact ⟨rfl, .inr ⟨x, _, hx, rfl, hy⟩⟩
  · obtain ⟨hunmarked, -⟩ := hplain t ht
    rw [hunmarked, Literal.markText, if_neg (by decide), List.append_nil, Literal.classify_quoted] at hl
    rw [← Except.ok.inj hl]
    exact ⟨hunmarked.symm, .inl ht.symm⟩

/-- **A text that is not plain is not read as what was shown**, whatever follows it. -/
theorem Argument.Shows.not_same {a : Argument} {t : Text} {ts : List Text} {l : Literal} {ls : List Literal}
    (h : a.Shows t) (hplain : ¬a.Plain)
    (hread : (Statement.splitArguments (Statement.joinArguments (t :: ts))).mapM Literal.classify
      = .ok (l :: ls)) : ¬a.Same l := by
  rintro ⟨hmarked, hvalue⟩
  refine hplain fun content hcontent => ?_
  -- Only a text literal pushes a text, and it is not marked.
  have hl : l = .text content := by
    have htext : l.value = .text content := by
      rcases hvalue with hvalue | ⟨x, _, hx, _⟩
      · rw [hvalue, hcontent]
      · rw [hcontent] at hx
        cases hx
    cases l with
    | text t' =>
      injection htext with h
      rw [h]
    | int v marked | float x marked => cases htext
  subst hl
  have hunmarked : a.marked = false := hmarked.symm
  refine ⟨hunmarked, fun hending => ?_⟩
  obtain ⟨shown, hshown, rfl⟩ := h
  rw [hcontent] at hshown
  obtain rfl := Except.ok.inj hshown
  rw [List.append_assoc] at hread
  obtain ⟨cut, more, hsplit, hne⟩ := Statement.splitArguments_of_infix hending
  rw [hsplit] at hread
  obtain ⟨l, ls', hl, -, heq⟩ := mapM_cons_eq_ok_iff.1 hread
  rw [Literal.classify_quoted] at hl
  obtain rfl := Except.ok.inj hl
  injection heq with heq
  injection heq with heq
  exact hne heq.symm

/-- **The arguments are read as what was shown exactly when all of them are plain.** -/
theorem forall₂_same_iff {args : List Argument} {shown : List Text} {ls : List Literal}
    (h : List.Forall₂ Argument.Shows args shown)
    (hread : (Statement.splitArguments (Statement.joinArguments shown)).mapM Literal.classify = .ok ls) :
    List.Forall₂ Argument.Same args ls ↔ ∀ a ∈ args, a.Plain := by
  induction h generalizing ls with
  | nil =>
    obtain rfl : ls = [] := (Except.ok.inj hread).symm
    simp
  | @cons a t args shown ha hargs ih =>
    by_cases hplain : a.Plain
    · rw [Statement.splitArguments_cons (ha.cuttable hplain) ha.ne_nil (nil_notMem_of_shows hargs)] at hread
      obtain ⟨l, ls, hl, hls, rfl⟩ := mapM_cons_eq_ok_iff.1 hread
      rw [List.forall₂_cons, List.forall_mem_cons, ih hls]
      exact and_congr_left' (iff_of_true (ha.same hplain hl) hplain)
    · refine iff_of_false (fun hsame => ?_) fun hall => hplain (hall a List.mem_cons_self)
      cases hsame with
      | cons hsame _ => exact ha.not_same hplain hread hsame

end Machine

/-! ## Lines that are read again -/

namespace Statement

open Number Text

/-- How a call of a sub method is rendered. -/
theorem render_sub (number : Int) (shown : List Text) :
    render (sub number shown)
      = subOpening ++ (paddedInteger 3 number ++ ('(' :: (joinArguments shown ++ callEnding))) := by
  simp [render]

/-- A rendered statement ends with a semicolon. -/
theorem getLast?_render (s : Statement) : s.render.getLast? = some ';' := by
  cases s with
  | sub | runMacro | time | exit =>
    rw [render, List.getLast?_append]
    rfl

theorem withoutFinalNewline_render (s : Statement) : withoutFinalNewline s.render = s.render := by
  unfold withoutFinalNewline
  rw [if_neg (by rw [getLast?_render]; decide)]

/-- The number and the argument list of a rendered call are found, unless there is a minus sign in front of the
number or a newline in the list. -/
theorem sub?_render (number : Int) (shown : List Text) :
    sub? (render (sub number shown))
      = if 0 ≤ number ∧ '\n' ∉ joinArguments shown then
          some (zeroPadded 3 (decimal number.natAbs), joinArguments shown)
        else none := by
  unfold sub?
  rw [render_sub, after?_append]
  simp only [Option.bind_eq_bind, Option.bind_some]
  by_cases hneg : number < 0
  · have hsign : paddedInteger 3 number = '-' :: zeroPadded 2 (decimal number.natAbs) := by
      simp [paddedInteger, signed, hneg]
    rw [if_neg (by omega), hsign]
    rfl
  · have hdigits : Digits (zeroPadded 3 (decimal number.natAbs)) := digits_zeroPadded (digits_decimal _)
    have hplain : paddedInteger 3 number = zeroPadded 3 (decimal number.natAbs) := by
      simp [paddedInteger, signed, hneg]
    have hdigit : ∀ c ∈ zeroPadded 3 (decimal number.natAbs), isDigit c = true :=
      fun c hc => isDigit_of_isDigit (hdigits.2 c hc)
    have hstop : ∀ c ∈ ('(' :: (joinArguments shown ++ callEnding)).head?, isDigit c = false := by
      intro c hc
      obtain rfl : '(' = c := Option.some.inj hc
      decide
    have hopened : after? ['('] ('(' :: (joinArguments shown ++ callEnding)) = some (joinArguments shown ++ callEnding) :=
      rfl
    have hwidth : 3 ≤ (zeroPadded 3 (decimal number.natAbs)).length := by
      simp only [zeroPadded, List.length_append, List.length_replicate]
      omega
    rw [hplain, dropWhile_append_of_stop hdigit hstop, takeWhile_append_of_stop hdigit hstop, hopened]
    simp only [Option.bind_some, before?_append, hwidth, true_and, Int.not_lt.1 hneg]

/-- The number of a sub method is read from its digits. -/
theorem readDigits_zeroPadded {number : Int} {n : Nat} (h : 0 ≤ number ∧ number ≤ subLimit) :
    Literal.readDigits (zeroPadded 3 (decimal number.natAbs)) = .ok n ↔ (n : Int) = number := by
  have hlength : (decimal number.natAbs).length ≤ 10 := by
    refine (Nat.length_toDigits_le_iff (by decide) (by decide)).2 ?_
    simp only [subLimit] at h
    omega
  have hwidth : (zeroPadded 3 (decimal number.natAbs)).length ≤ digitLimit := by
    simp only [zeroPadded, List.length_append, List.length_replicate, digitLimit]
    omega
  rw [Literal.readDigits_eq_ok_iff, natural_zeroPadded (digits_decimal _), natural_decimal, and_iff_right hwidth]
  omega

/-- **When a rendered call of a sub method is read, and as what.** -/
theorem parse_render_sub_iff {line number : Int} {shown : List Text} {s : Statement} :
    parse line (render (sub number shown)) = .ok s ↔
      (0 ≤ number ∧ number ≤ subLimit) ∧ '\n' ∉ joinArguments shown ∧
        s = sub number (splitArguments (joinArguments shown)) := by
  unfold parse
  dsimp only
  rw [withoutFinalNewline_render, sub?_render]
  by_cases hreadable : 0 ≤ number ∧ '\n' ∉ joinArguments shown
  · rw [if_pos hreadable]
    constructor
    · intro hparse
      obtain ⟨n, hn, h⟩ := except_bind_eq_ok_iff.1 hparse
      have hvalue := (Literal.readDigits_eq_ok_iff.1 hn).2
      rw [natural_zeroPadded (digits_decimal _), natural_decimal] at hvalue
      split at h
      · contradiction
      · obtain rfl : (n : Int) = number := by omega
        exact ⟨⟨hreadable.1, by omega⟩, hreadable.2, (Except.ok.inj h).symm⟩
    · intro h
      obtain ⟨hnumber, -, rfl⟩ := h
      obtain ⟨n, rfl⟩ := Int.eq_ofNat_of_zero_le hnumber.1
      refine except_bind_eq_ok_iff.2 ⟨n, (readDigits_zeroPadded hnumber).2 rfl, ?_⟩
      rw [if_neg (by omega)]
      rfl
  · -- No other line starts like it.
    have hmacro : macroCode? (render (sub number shown)) = none := by rw [render_sub]; rfl
    have htime : time? (render (sub number shown)) = none := by rw [render_sub]; rfl
    have hexit : exit? (render (sub number shown)) = none := by rw [render_sub]; rfl
    rw [if_neg hreadable, hmacro, htime, hexit]
    constructor
    · intro h
      contradiction
    · intro h
      exact absurd ⟨h.1.1, h.2.1⟩ hreadable

end Statement

namespace Machine

/-! ## Scripts that are assembled again -/

/-- What the event popped is, one by one, what the arguments of the statement push. -/
def Event.KeptBy (e : Event) (s : Statement) : Prop := List.Forall₂ Argument.Same e.popped s.arguments

/-- If the event called a sub method, the statement calls the same one, and with the same arguments exactly
when those that the event popped are plain. -/
def Event.ReadAs (e : Event) (s : Statement) : Prop :=
  ∀ number shown, e.statement = some (.sub number shown) →
    (∃ texts, s = .sub number texts) ∧ (e.KeptBy s ↔ ∀ a ∈ e.popped, a.Plain)

theorem completed_cons_none {e : Event} (h : e.statement = none) (events : List Event) :
    completed (e :: events) = completed events := by
  simp [completed, h]

theorem completed_cons_some {e : Event} {st : Statement} (h : e.statement = some st) (events : List Event) :
    completed (e :: events) = e :: completed events := by
  simp [completed, h]

/-- One line of a trace. -/
theorem readAs_of_step {texts : Int → Except Error Text} {record : Record} {position line : Int}
    {s s' : Stack} {st read : Statement} {ls : List Literal}
    (hstep : step texts record position s = .ok (some st) s')
    (hparse : Statement.parse line st.render = .ok read) (hliterals : read.literals = .ok ls) :
    Event.ReadAs ⟨record, s, some st⟩ read := by
  rintro number shown hst
  obtain rfl := Option.some.inj hst
  obtain ⟨-, -, rfl⟩ := Statement.parse_render_sub_iff.1 hparse
  obtain ⟨-, rfl⟩ := Statement.literals_eq_ok_iff.1 hliterals
  exact ⟨⟨_, rfl⟩, forall₂_same_iff (shows_of_step hstep) hliterals⟩

/-- The lines of a trace, one by one. -/
theorem readAs_of_steps {texts : Int → Except Error Text} {s s' : Stack} {events : List Event}
    (hsteps : Steps texts s events s') {line : Int} {ss : List Statement}
    (hparse : Statement.parseFrom line ((statements events).map Statement.render) = .ok ss)
    (hliterals : ∀ st ∈ ss, ∃ ls, st.literals = .ok ls) :
    List.Forall₂ Event.ReadAs (completed events) ss := by
  induction hsteps generalizing line ss with
  | nil =>
    obtain rfl : ss = [] := (Except.ok.inj hparse).symm
    exact .nil
  | @cons s s' s'' record position statement events hstep _ ih =>
    cases statement with
    | none =>
      rw [completed_cons_none rfl]
      exact ih hparse hliterals
    | some st =>
      obtain ⟨read, hread, hparse⟩ := except_bind_eq_ok_iff.1 hparse
      obtain ⟨rest, hrest, hparse⟩ := except_bind_eq_ok_iff.1 hparse
      obtain rfl := Except.ok.inj hparse
      obtain ⟨⟨ls, hls⟩, hliterals⟩ := List.forall_mem_cons.1 hliterals
      rw [completed_cons_some rfl]
      exact .cons (readAs_of_step hstep hread hls) (ih hrest hliterals)

end Machine

namespace Assembly

open Machine

/-- **What a decoded script becomes when it is assembled again.** Where decoding gives lines and these can be
assembled, what is assembled are statements, one for each statement that the machine completed. A call of a
sub method stays a call of the same one, and gets the arguments that the machine popped for it exactly when
the texts among them are not marked and have no ending of a text inside. -/
theorem assemble_decode {d : Decoder} {t : Transcript} {settings : Settings} {start : Int} {out : List UInt8}
    (hdecode : d.decode = .ok t) (hassemble : assemble settings start t.lines = .ok out) :
    ∃ events s' ss, Trace d.settings d.stream.bytes d.stream.position d.stack events s' ∧
      statements events = t.statements ∧ Statement.parseLines t.lines = .ok ss ∧
      out = codeOf (Statement.listing settings (placeOf start ss) ss)
        ++ ss.flatMap (Statement.pool settings) ∧
      List.Forall₂ Event.ReadAs (completed events) ss := by
  have ht : t = d.transcribe := eq_transcribe_of_decode hdecode
  obtain ⟨events, s', htrace, hstatements⟩ := exists_trace d
  obtain ⟨ss, hparse, hstorable, -, hout⟩ := assemble_eq_ok_iff.1 hassemble
  refine ⟨events, s', ss, htrace, by rw [ht, hstatements], hparse, hout, ?_⟩
  rw [ht, Transcript.lines, hstatements] at hparse
  exact readAs_of_steps htrace.steps hparse fun st hst => (hstorable st hst).1

/-- A text that holds quotes and commas, but no quote in front of a comma and a blank, stays one argument, and
so does a marked number behind it. -/
theorem assemble_decode_quotes : ∃ (d : Decoder) (t : Transcript) (out : List UInt8),
    d.decode = .ok t ∧ assemble d.settings 0 t.lines = .ok out ∧
      t.lines = ["sub007(\"a,\"b\", -3f);".toList, "exit(0);".toList] ∧
      ∃ events s' ss, Trace d.settings d.stream.bytes d.stream.position d.stack events s' ∧
        statements events = t.statements ∧ Statement.parseLines t.lines = .ok ss ∧
        out = codeOf (Statement.listing d.settings (placeOf 0 ss) ss) ++ ss.flatMap (Statement.pool d.settings) ∧
        List.Forall₂ Event.ReadAs (completed events) ss := by
  let settings : Settings := ⟨some "ascii", some 16⟩
  let is : List Instruction := [.pushInt descriptorMarker, .pushInt 7, .pushTrue, .pushText 0x20,
    .pushInt (-3), .pushNull, .callSub 3, .pushInt 0, .exit]
  let bytes : List UInt8 := codeOf (is ++ [.finish]) ++ [0x61, 0x2C, 0x22, 0x62, 0]
  let lines : List Text := ["sub007(\"a,\"b\", -3f);".toList, "exit(0);".toList]
  have htext : textsOf settings bytes 0x20 = .ok ['a', ',', '"', 'b'] := by decide +kernel
  have hperforms : Performs (textsOf settings bytes) [] is
      [.sub 7 ["\"a,\"b\"".toList, "-3f".toList], .exit 0] [] :=
    .cons (step_pushInt _) (.cons (step_pushInt _) (.cons step_pushTrue (.cons (step_pushText htext)
      (.cons (step_pushInt _) (.cons step_pushNull (.cons (step_callSub rfl rfl rfl)
        (.cons (step_pushInt _) (.cons (step_exit _) .nil))))))))
  have hdecode := decode_eq_of_performs hperforms (by rfl : Instruction.finish.toRecord.isSentinel = true)
    (⟨by decide, by decide +kernel⟩ : Record.StandAt bytes 0 _)
  obtain ⟨out, hassemble⟩ : ∃ out, assemble settings 0 lines = .ok out := exists_eq_ok (by decide +kernel)
  exact ⟨_, _, out, hdecode, hassemble, rfl, assemble_decode hdecode hassemble⟩

/-- Not all arguments stay what they were: a text that holds the ending of a text comes back as two texts. -/
theorem not_keptBy_of_decode : ¬∀ (settings : Settings) (bytes : List UInt8) (position : Nat) (t : Transcript)
    (start : Int) (out : List UInt8) (events : List Event) (s' : Stack) (ss : List Statement),
    Decoder.decode ⟨settings, ⟨bytes, position⟩, []⟩ = .ok t → assemble settings start t.lines = .ok out →
    Trace settings bytes position [] events s' → statements events = t.statements →
    Statement.parseLines t.lines = .ok ss →
    List.Forall₂ (fun e s => ∀ number shown, e.statement = some (.sub number shown) → e.KeptBy s)
      (completed events) ss := by
  intro claim
  let settings : Settings := ⟨some "ascii", some 16⟩
  let is : List Instruction := [.pushInt descriptorMarker, .pushInt 7, .pushTrue, .pushText 8, .callSub 2,
    .pushInt 0, .exit]
  let bytes : List UInt8 := codeOf (is ++ [.finish]) ++ [0x61, 0x22, 0x2C, 0x20, 0x22, 0x62, 0]
  let lines : List Text := ["sub007(\"a\", \"b\");".toList, "exit(0);".toList]
  have htext : textsOf settings bytes 8 = .ok ['a', '"', ',', ' ', '"', 'b'] := by decide +kernel
  obtain ⟨events, hsteps, hrecords, hstatements, hpopped⟩ : ∃ events, Steps (textsOf settings bytes) [] events [] ∧
      records events = is.map Instruction.toRecord ∧
      statements events = [.sub 7 ["\"a\", \"b\"".toList], .exit 0] ∧
      (completed events).map (fun e => (e.statement, e.popped))
        = [(some (.sub 7 ["\"a\", \"b\"".toList]), [⟨.text ['a', '"', ',', ' ', '"', 'b'], false⟩]),
          (some (.exit 0), [])] :=
    ⟨_, .cons (step_pushInt _) (.cons (step_pushInt _) (.cons step_pushTrue (.cons (step_pushText htext)
      (.cons (step_callSub rfl rfl rfl) (.cons (step_pushInt _) (.cons (step_exit _) .nil)))))), rfl, rfl, rfl⟩
  have hstands : Record.StandAt bytes 0 (records events ++ [Instruction.finish.toRecord]) := by
    rw [hrecords]
    exact ⟨by decide, by decide +kernel⟩
  have hdecode := decode_eq_of_performs ⟨events, hsteps, hrecords, hstatements⟩
    (by rfl : Instruction.finish.toRecord.isSentinel = true) (hrecords ▸ hstands)
  obtain ⟨out, hassemble⟩ : ∃ out, assemble settings 0 lines = .ok out := exists_eq_ok (by decide +kernel)
  have hparse : Statement.parseLines lines = .ok [.sub 7 ["\"a\"".toList, "\"b\"".toList], .exit 0] := by
    decide +kernel
  have hkept := claim settings bytes 0 _ 0 out events [] _ hdecode hassemble
    ⟨hsteps, (Record.standAt_append_iff.1 hstands).1⟩ hstatements hparse
  obtain ⟨e, es, hevents, he, -⟩ := List.map_eq_cons_iff.1 hpopped
  obtain ⟨hstatement, hargs⟩ := Prod.mk.inj he
  rw [hevents] at hkept
  cases hkept with
  | cons hkept _ =>
    have hlength := (hkept 7 _ hstatement).length_eq
    rw [hargs] at hlength
    have harguments : (Statement.sub 7 ["\"a\"".toList, "\"b\"".toList]).arguments.length = 2 := by decide +kernel
    rw [harguments] at hlength
    cases hlength

end Assembly
end Storyboard
