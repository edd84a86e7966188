/-
Decoding undoes assembling.

`Literal.canonical` and `Statement.canonical` write what the machine shows for a literal and for a
statement. `Machine.Performs` runs the instructions of a listing: a literal leaves its value on the stack,
with a null above it when it is marked (`performs_pushes`), a statement leaves the stack as it was and is
shown in its canonical form (`performs_statement`), and so do the statements up to the first exit
(`decode_assemble`).
-/
import Storyboard.Proofs.Encoding
import Storyboard.Proofs.Listing
import Storyboard.Proofs.Machine
import Storyboard.Proofs.Reading

namespace Storyboard

/-! ## Canonical forms -/

namespace Literal

/-- The value that a literal pushes. -/
def value : Literal → Value
  | int v _ => .int32 v
  | float x _ => .float32 (x.convert .single)
  | text t => .text t

/-- What a literal leaves on the stack, the top first: a mark is a null above the value. -/
def pushed (l : Literal) : Stack := if l.isMarked then [.null, l.value] else [l.value]

/-- How a literal is shown: whole numbers in decimal, fractions with four places as four bytes hold them,
texts in quotes as they are, and the mark behind. -/
def canonical : Literal → Text
  | int v marked => Number.integer v ++ if marked then [mark] else []
  | float x marked =>
    (x.convert .single : Number.Single).fixed fractionPlaces ++ if marked then [mark] else []
  | text t => '"' :: t ++ ['"']

/-- The literal comes back from the stack: a fraction is finite; a text has no U+0000, takes fewer bytes
than are looked at, and its bytes spell it. -/
def Readable (settings : Settings) : Literal → Prop
  | int _ _ => True
  | float x _ => x.isFinite = true
  | text t =>
    '\x00' ∉ t ∧
      (∃ limit ∈ settings.scanLimit, ((settings.spelling t).length : Int) < limit) ∧
      settings.decodeText (settings.spelling t) = .ok t

instance (settings : Settings) : (l : Literal) → Decidable (l.Readable settings)
  | int _ _ => inferInstanceAs (Decidable True)
  | float x _ => inferInstanceAs (Decidable (x.isFinite = true))
  | text _ => inferInstanceAs (Decidable (_ ∧ (∃ _ ∈ settings.scanLimit, _) ∧ _))

/-- A fraction is finite. -/
def Finite : Literal → Prop
  | float x _ => x.isFinite = true
  | _ => True

instance : (l : Literal) → Decidable l.Finite
  | float x _ => inferInstanceAs (Decidable (x.isFinite = true))
  | int _ _ => inferInstanceAs (Decidable True)
  | text _ => inferInstanceAs (Decidable True)

theorem Readable.finite {settings : Settings} {l : Literal} (h : l.Readable settings) : l.Finite := by
  cases l with
  | float x marked => exact h
  | int | text => exact trivial

end Literal

namespace Statement

/-- The statement as the machine shows it. -/
def canonical : Statement → Statement
  | sub number texts => sub number ((sub number texts).arguments.map Literal.canonical)
  | s => s

/-- The statement goes on, and comes back from the machine: a macro has a code other than zero, and the
arguments come back. -/
def Readable (settings : Settings) : Statement → Prop
  | sub number texts => ∀ l ∈ (sub number texts).arguments, l.Readable settings
  | runMacro code => code ≠ 0
  | time _ => True
  | exit _ => False

instance (settings : Settings) : (s : Statement) → Decidable (s.Readable settings)
  | sub number texts => inferInstanceAs (Decidable (∀ l ∈ (sub number texts).arguments, _))
  | runMacro code => inferInstanceAs (Decidable (code ≠ 0))
  | time _ => inferInstanceAs (Decidable True)
  | exit _ => inferInstanceAs (Decidable False)

/-- The codes that lines can name. -/
def HasCode : Statement → Prop
  | runMacro code => code < 0x10000
  | _ => True

/-- A macro has a code other than zero, which the machine takes for the call of a time. -/
def NonzeroCode : Statement → Prop
  | runMacro code => code ≠ 0
  | _ => True

/-- The instructions of a statement that are taken: those of an exit end with a sentinel, which is not. -/
def taken (settings : Settings) (place : Int) (s : Statement) : List Instruction :=
  match s with
  | exit _ => (s.instructions settings place).dropLast
  | _ => s.instructions settings place

theorem Readable.nonzeroCode {settings : Settings} {s : Statement} (h : s.Readable settings) : s.NonzeroCode := by
  cases s with
  | runMacro code => exact h
  | sub | time | exit => exact trivial

/-- A statement that goes on is taken as a whole. -/
theorem Readable.taken_eq {settings : Settings} {s : Statement} (h : s.Readable settings) (place : Int) :
    s.taken settings place = s.instructions settings place := by
  cases s with
  | exit v => exact h.elim
  | sub | runMacro | time => rfl

theorem Readable.arguments {settings : Settings} {s : Statement} (h : s.Readable settings) :
    ∀ l ∈ s.arguments, l.Readable settings := by
  cases s with
  | sub number texts => exact h
  | exit v => exact h.elim
  | runMacro code | time v => exact fun l hl => absurd hl List.not_mem_nil

end Statement

namespace Machine

/-! ## Instructions -/

/-- Taking instructions one after another leads from the stack `s` to the stack `s'` and completes the
statements `ss`. -/
def Performs (texts : Int → Except Error Text) (s : Stack) (is : List Instruction) (ss : List Statement)
    (s' : Stack) : Prop :=
  ∃ events, Steps texts s events s' ∧ records events = is.map Instruction.toRecord ∧
    statements events = ss

variable {texts : Int → Except Error Text} {s s' s'' : Stack}

theorem Performs.nil : Performs texts s [] [] s := ⟨[], .nil, rfl, rfl⟩

theorem Performs.append {is is' : List Instruction} {ss ss' : List Statement}
    (h : Performs texts s is ss s') (h' : Performs texts s' is' ss' s'') :
    Performs texts s (is ++ is') (ss ++ ss') s'' := by
  obtain ⟨events, hsteps, hrecords, hstatements⟩ := h
  obtain ⟨events', hsteps', hrecords', hstatements'⟩ := h'
  refine ⟨events ++ events', hsteps.append hsteps', ?_, ?_⟩
  · rw [records_append, hrecords, hrecords', List.map_append]
  · rw [statements_append, hstatements, hstatements']

/-- Taking one instruction, then others. -/
theorem Performs.cons {i : Instruction} {is : List Instruction} {st : Option Statement}
    {ss : List Statement} (h : step texts i.toRecord 0 s = .ok st s') (h' : Performs texts s' is ss s'') :
    Performs texts s (i :: is) (st.toList ++ ss) s'' := by
  obtain ⟨events, hsteps, hrecords, hstatements⟩ := h'
  refine ⟨_, .cons h hsteps, ?_, ?_⟩
  · show i.toRecord :: records events = _
    rw [hrecords, List.map_cons]
  · rw [statements_cons, hstatements]

theorem step_pushInt (v : Int) : step texts (Instruction.pushInt v).toRecord 0 s = .ok none (.int32 v :: s) :=
  rfl

theorem step_pushFloat {record : Record} {bits : Int} {x : Number.Single}
    (hr : record.instruction? = some (.pushFloat bits)) (hx : Number.Binary.ofWord? bits = some x) :
    step texts record 0 s = .ok none (.float32 x :: s) :=
  step_eq_ok_iff.2 ⟨_, hr, .pushFloat hx⟩

theorem step_pushText {operand : Int} {t : Text} (h : texts operand = .ok t) :
    step texts (Instruction.pushText operand).toRecord 0 s = .ok none (.text t :: s) :=
  step_eq_ok_iff.2 ⟨_, Record.instruction?_toRecord _, .pushText h⟩

theorem step_pushNull : step texts Instruction.pushNull.toRecord 0 s = .ok none (.null :: s) := rfl

theorem step_pushTrue : step texts Instruction.pushTrue.toRecord 0 s = .ok none (.bool true :: s) := rfl

theorem step_pushCode {code : Nat} (h : code < 0x10000) :
    step texts (Instruction.pushCode code).toRecord 0 s = .ok none (.uint16 code :: s) := by
  have hcode : Value.ofCode code = .uint16 code := by
    simp only [Value.ofCode, Value.uint16.injEq]
    omega
  rw [← hcode]
  rfl

theorem step_callMacro {code : Nat} (h : code ≠ 0) :
    step texts Instruction.call.toRecord 0 (.uint16 code :: s) = .ok (some (.runMacro code)) s := by
  obtain ⟨n, rfl⟩ := Nat.exists_eq_succ_of_ne_zero h
  rfl

theorem step_callTime (v : Int) :
    step texts Instruction.call.toRecord 0 (.uint16 0 :: .int32 v :: s) = .ok (some (.time v)) s := rfl

theorem step_exit (v : Int) :
    step texts Instruction.exit.toRecord 0 (.int32 v :: s) = .ok (some (.exit v)) s := rfl

/-! ## Literals -/

/-- What the literals of a list leave on the stack, the last one's on top. -/
def pushAll : List Literal → Stack → Stack
  | [], s => s
  | l :: ls, s => pushAll ls (l.pushed ++ s)

/-- Marks push nulls. -/
theorem performs_mark (marked : Bool) :
    Performs texts s (Assembly.ofMark marked) [] ((if marked then [.null] else []) ++ s) := by
  cases marked with
  | false => exact .nil
  | true => exact .cons step_pushNull .nil

/-- A literal pushes its value and its mark. -/
theorem performs_literal {place : Int} {l : Literal} (htext : ∀ t, l = .text t → texts place = .ok t) :
    Performs texts s (l.instructions place) [] (l.pushed ++ s) := by
  cases l with
  | int v marked =>
    have h : Performs texts s (.pushInt v :: Assembly.ofMark marked) []
        ((if marked then [.null] else []) ++ .int32 v :: s) :=
      .cons (step_pushInt v) (performs_mark marked)
    cases marked <;> exact h
  | float x marked =>
    have hstep : step texts (Instruction.pushFloat (Literal.floatBits x)).toRecord 0 s
        = .ok none (.float32 (x.convert .single) :: s) :=
      step_pushFloat (Record.instruction?_toRecord _) (Number.Binary.ofWord?_toWord _)
    have h := Performs.cons hstep (performs_mark marked)
    cases marked <;> exact h
  | text t => exact .cons (step_pushText (htext t rfl)) .nil

/-- The texts of literals are found where their operands refer, that of the first one at `place`. -/
def Finds (texts : Int → Except Error Text) (settings : Settings) : (place : Int) → List Literal → Prop
  | _, [] => True
  | place, l :: ls =>
    (∀ t, l = .text t → texts place = .ok t) ∧ Finds texts settings (place + (l.pool settings).length) ls

/-- **Literals leave their values on the stack** where their texts are found. -/
theorem performs_pushes {settings : Settings} {place : Int} {ls : List Literal}
    (hfinds : Finds texts settings place ls) :
    Performs texts s (Literal.pushes settings place ls) [] (pushAll ls s) := by
  induction ls generalizing place s with
  | nil => exact .nil
  | cons l ls ih =>
    obtain ⟨htext, hothers⟩ := hfinds
    exact (performs_literal htext).append (ih hothers)

/-- Texts are found where the pool lies from `place` on. -/
theorem finds_of_pool {settings : Settings} {bytes : List UInt8} {place : Int} {ls : List Literal}
    (hplace : 0 ≤ place + textOperandBias) (hread : ∀ l ∈ ls, l.Readable settings)
    (hfits : ∀ i ∈ Literal.pushes settings place ls, i.toRecord.Fits)
    (hlies : ls.flatMap (Literal.pool settings) <+: bytes.drop (place + textOperandBias).toNat) :
    Finds (textsOf settings bytes) settings place ls := by
  induction ls generalizing place with
  | nil => exact trivial
  | cons l ls ih =>
    obtain ⟨hl, hls⟩ := List.forall_mem_cons.1 hread
    obtain ⟨hfl, hfls⟩ := List.forall_mem_append.1 hfits
    rw [List.flatMap_cons] at hlies
    obtain ⟨hhere, hthere⟩ := append_prefix_iff.1 hlies
    have htext : ∀ t, l = .text t → textsOf settings bytes place = .ok t := by
      rintro t rfl
      obtain ⟨hzero, hlimit, hdecode⟩ := hl
      have hword : Word.Fits place := (hfl _ List.mem_cons_self).2.2
      refine textsOf_eq_ok_iff.2 ⟨settings.spelling t, hplace, ?_, hhere,
        Settings.zero_notMem_of_decodeText hdecode hzero, hlimit, hdecode⟩
      simp only [Word.Fits] at hword
      simp only [Stream.offsetLimit, textOperandBias]
      omega
    have hnext : (place + (l.pool settings).length + textOperandBias).toNat
        = (place + textOperandBias).toNat + (l.pool settings).length := by omega
    refine ⟨htext, ih (by omega) hls hfls ?_⟩
    rw [hnext, ← List.drop_drop]
    exact hthere

/-- A shown argument. -/
theorem argument_value {settings : Settings} {l : Literal} (hl : l.Finite)
    (hstorable : l.Storable settings) :
    ∃ t, l.value.argument = .ok t ∧ (if l.isMarked then t ++ [Literal.mark] else t) = l.canonical := by
  cases l with
  | int v marked => exact ⟨_, rfl, by cases marked <;> simp [Literal.isMarked, Literal.canonical]⟩
  | float x marked =>
    have hfinite := Number.Binary.isFinite_convert_of_narrow hl hstorable
    refine ⟨(x.convert .single : Number.Single).fixed fractionPlaces, ?_, ?_⟩
    · simp only [Literal.value, Value.argument, hfinite, if_true]
    · cases marked <;> simp [Literal.isMarked, Literal.canonical]
  | text t => exact ⟨_, rfl, rfl⟩

/-- **Popping finds the literals again**, in their canonical form and in order. -/
theorem popArguments_pushAll {settings : Settings} {ls : List Literal} {n : Nat}
    (hfinite : ∀ l ∈ ls, l.Finite) (hstorable : ∀ l ∈ ls, l.Storable settings)
    (found : List Text) :
    Stack.popArguments (ls.length + n) false found (pushAll ls s)
      = Stack.popArguments n false (ls.map Literal.canonical ++ found) s := by
  induction ls generalizing n s with
  | nil => simp [pushAll]
  | cons l ls ih =>
    obtain ⟨hl, hls⟩ := List.forall_mem_cons.1 hfinite
    obtain ⟨hsl, hsls⟩ := List.forall_mem_cons.1 hstorable
    have hlength : (l :: ls).length + n = ls.length + (n + 1) := by
      rw [List.length_cons]
      omega
    obtain ⟨t, ht, hmark⟩ := argument_value hl hsl
    have hnull : l.value ≠ .null := by cases l <;> simp [Literal.value]
    rw [hlength, pushAll, ih hls hsls, List.map_cons, List.cons_append, ← hmark]
    unfold Literal.pushed
    cases l.isMarked with
    | false =>
      simp only [Bool.false_eq_true, if_false, List.cons_append, List.nil_append]
      rw [Stack.popArguments, if_neg hnull, ht]
      simp
    | true =>
      simp only [if_true, List.cons_append, List.nil_append]
      rw [Stack.popArguments, if_pos rfl, Stack.popArguments, if_neg hnull, ht]
      simp

/-! ## Statements -/

theorem step_callSub {record : Record} {count number : Int} {arguments : List Text}
    (hr : record.instruction? = some (.callSub count))
    (harguments : Stack.popArguments (count - 1).toNat false [] s = .ok arguments s')
    (hdescriptor : Stack.popDescriptor s' = .ok number s'') :
    step texts record 0 s = .ok (some (.sub number arguments)) s'' := by
  rw [Stack.popDescriptor_eq_ok_iff.1 hdescriptor] at harguments
  exact step_eq_ok_iff.2 ⟨_, hr, .callSub harguments⟩

/-- What a statement becomes completes it with the last instruction, and no statement before. -/
theorem exists_performs_statement {settings : Settings} {place : Int} {st : Statement}
    (hfinds : Finds texts settings place st.arguments) (hfinite : ∀ l ∈ st.arguments, l.Finite)
    (hstorable : st.Storable settings) (hcode : st.HasCode) (hnonzero : st.NonzeroCode) :
    ∃ is i s', st.taken settings place = is ++ [i] ∧ Performs texts s is [] s' ∧
      step texts i.toRecord 0 s' = .ok (some st.canonical) s := by
  cases st with
  | sub number texts' =>
    let ls := (Statement.sub number texts').arguments
    let described : Stack := .bool true :: .int32 number :: .int32 descriptorMarker :: s
    have hdescriptor : Performs texts s [.pushInt descriptorMarker, .pushInt number, .pushTrue] [] described :=
      .cons (step_pushInt _) (.cons (step_pushInt _) (.cons step_pushTrue .nil))
    have hpop : Stack.popArguments (ls.length + 1 - 1 : Int).toNat false [] (pushAll ls described)
        = .ok (ls.map Literal.canonical) described := by
      have h := popArguments_pushAll (n := 0) hfinite hstorable.2 (s := described)
      rw [Int.add_sub_cancel, Int.toNat_natCast]
      exact (h []).trans (by rw [List.append_nil]; rfl)
    exact ⟨_, .callSub (ls.length + 1), pushAll ls described, rfl, hdescriptor.append (performs_pushes hfinds),
      step_callSub (Record.instruction?_toRecord _) hpop rfl⟩
  | runMacro code =>
    exact ⟨[.pushCode code], .call, _, rfl, .cons (step_pushCode hcode) .nil, step_callMacro hnonzero⟩
  | time v =>
    exact ⟨[.pushInt v, .pushCode 0], .call, _, rfl,
      .cons (step_pushInt v) (.cons (step_pushCode (by decide)) .nil), step_callTime v⟩
  | exit v => exact ⟨[.pushInt v], .exit, _, rfl, .cons (step_pushInt v) .nil, step_exit v⟩

/-- **A statement leaves the stack as it was** and is shown in its canonical form. -/
theorem performs_statement {settings : Settings} {place : Int} {st : Statement}
    (hfinds : Finds texts settings place st.arguments) (hfinite : ∀ l ∈ st.arguments, l.Finite)
    (hstorable : st.Storable settings) (hcode : st.HasCode) (hnonzero : st.NonzeroCode) :
    Performs texts s (st.taken settings place) [st.canonical] s := by
  obtain ⟨is, i, s', htaken, hpushes, hlast⟩ :=
    exists_performs_statement (s := s) hfinds hfinite hstorable hcode hnonzero
  rw [htaken]
  exact hpushes.append (.cons hlast .nil)

/-- A statement refers to its texts where they lie. -/
theorem finds_arguments {settings : Settings} {bytes : List UInt8} {place : Int} {st : Statement}
    (hplace : 0 ≤ place + textOperandBias) (hread : st.Readable settings)
    (hfits : ∀ i ∈ st.instructions settings place, i.toRecord.Fits)
    (hlies : st.pool settings <+: bytes.drop (place + textOperandBias).toNat) :
    Finds (textsOf settings bytes) settings place st.arguments := by
  cases st with
  | sub number texts' =>
    obtain ⟨hhead, -⟩ := List.forall_mem_append.1 hfits
    exact finds_of_pool hplace hread (List.forall_mem_append.1 hhead).2 hlies
  | exit v => exact hread.elim
  | runMacro code | time v => exact trivial

/-- **Statements one after another** leave the stack as it was as well. -/
theorem performs_listing {settings : Settings} {bytes : List UInt8} {place : Int} {ss : List Statement}
    (hplace : 0 ≤ place + textOperandBias) (hread : ∀ st ∈ ss, st.Readable settings)
    (hstorable : ∀ st ∈ ss, st.Storable settings) (hcode : ∀ st ∈ ss, st.HasCode)
    (hfits : ∀ i ∈ Statement.listing settings place ss, i.toRecord.Fits)
    (hlies : ss.flatMap (Statement.pool settings) <+: bytes.drop (place + textOperandBias).toNat) :
    Performs (textsOf settings bytes) s (Statement.listing settings place ss)
      (ss.map Statement.canonical) s := by
  induction ss generalizing place with
  | nil => exact .nil
  | cons st ss ih =>
    obtain ⟨hr, hrs⟩ := List.forall_mem_cons.1 hread
    obtain ⟨hst, hsts⟩ := List.forall_mem_cons.1 hstorable
    obtain ⟨hc, hcs⟩ := List.forall_mem_cons.1 hcode
    obtain ⟨hf, hfs⟩ := List.forall_mem_append.1 hfits
    rw [List.flatMap_cons] at hlies
    obtain ⟨hhere, hthere⟩ := append_prefix_iff.1 hlies
    have hnext : (place + (st.pool settings).length + textOperandBias).toNat
        = (place + textOperandBias).toNat + (st.pool settings).length := by omega
    have hfirst := performs_statement (s := s) (finds_arguments hplace hr hf hhere)
      (fun l hl => (hr.arguments l hl).finite) hst hc hr.nonzeroCode
    rw [hr.taken_eq] at hfirst
    refine hfirst.append (ih (by omega) hrs hsts hcs hfs ?_)
    rw [hnext, ← List.drop_drop]
    exact hthere

/-- Where the statements of a run are known, decoding gives them. -/
theorem decode_eq_of_performs {settings : Settings} {bytes : List UInt8} {position : Nat}
    {is : List Instruction} {ss : List Statement} {sentinel : Record}
    (h : Performs (textsOf settings bytes) s is ss s') (hsentinel : sentinel.isSentinel = true)
    (hstands : Record.StandAt bytes position (is.map Instruction.toRecord ++ [sentinel])) :
    Decoder.decode ⟨settings, ⟨bytes, position⟩, s⟩ =
      .ok ⟨ss, none, ⟨settings, ⟨bytes, position + recordSize * (is.length + 1)⟩, s'⟩⟩ := by
  obtain ⟨events, hsteps, hrecords, rfl⟩ := h
  have hlength : events.length = is.length := by
    rw [← length_records events, hrecords, List.length_map]
  rw [← hrecords] at hstands
  rw [decode_eq_of_run ⟨hsteps, sentinel, hsentinel, hstands⟩, hlength]

end Machine

/-! ## Lines -/

namespace Statement

theorem hasCode_of_parse {number : Int} {line : Text} {s : Statement}
    (h : parse number line = .ok s) : s.HasCode := by
  cases readFrom_of_parse h with
  | runMacro hcode => exact macroCode?_lt hcode
  | sub | time | exit => exact trivial

theorem hasCode_of_parseFrom {number : Int} {lines : List Text} {ss : List Statement}
    (h : parseFrom number lines = .ok ss) : ∀ s ∈ ss, s.HasCode := by
  intro s hs
  obtain ⟨line, -, n, hparse⟩ := exists_parse_of_mem h s hs
  exact hasCode_of_parse hparse

end Statement

namespace Assembly

/-- **Decoding undoes assembling.** Lines that can be assembled are read as the statements of `body`, an
exit, and whatever follows. Where the bytes they become are decoded from their start, the machine shows
the statements of `body` and the exit in their canonical form, and its stack ends empty. -/
theorem decode_assemble {settings : Settings} {before out : List UInt8} {lines : List Text}
    {body rest : List Statement} {v : Int}
    (hparse : Statement.parseLines lines = .ok (body ++ .exit v :: rest))
    (hread : ∀ s ∈ body, s.Readable settings)
    (hassemble : assemble settings before.length lines = .ok out) :
    ∃ t, Decoder.decode ⟨settings, ⟨before ++ out, before.length⟩, []⟩ = .ok t ∧
      t.failure = none ∧ t.leftover = [] ∧ t.notices = [] ∧
      t.lines = (body ++ [Statement.exit v]).map fun s => s.canonical.render := by
  obtain ⟨ss, hss, hstorable, hfits, hout⟩ := assemble_eq_ok_iff.1 hassemble
  rw [hparse] at hss
  injection hss with hss
  subst hss
  let place := placeOf before.length (body ++ .exit v :: rest)
  let leave : List Instruction := [.pushInt v, .exit]
  let exits : List Instruction := leave ++ [.finish]
  obtain ⟨after, hlisting⟩ : ∃ after, Statement.listing settings place (body ++ .exit v :: rest)
      = Statement.listing settings place body ++ (exits ++ after) :=
    ⟨_, Statement.listing_append settings place body (.exit v :: rest)⟩
  have hcode : ∀ s ∈ body, s.HasCode := fun s hs =>
    Statement.hasCode_of_parseFrom hparse s (List.mem_append_left _ hs)
  have hplace : place + textOperandBias
      = before.length + Statement.codeSize (body ++ .exit v :: rest) := by
    simp only [place, placeOf]
    omega
  -- The pool begins right behind the records, so the texts of `body` are where its listing says.
  have hlies : body.flatMap (Statement.pool settings) <+:
      (before ++ out).drop (place + textOperandBias).toNat := by
    have hlength : (codeOf (Statement.listing settings place (body ++ .exit v :: rest))).length
        = Statement.codeSize (body ++ .exit v :: rest) := Statement.length_codeOf_listing ..
    have hnat : (place + textOperandBias).toNat
        = before.length + Statement.codeSize (body ++ .exit v :: rest) := by
      rw [hplace]
      omega
    rw [hnat, hout, ← List.drop_drop, List.drop_left, ← hlength, List.drop_left, List.flatMap_append]
    exact List.prefix_append _ _
  have hbody : Machine.Performs (Machine.textsOf settings (before ++ out)) []
      (Statement.listing settings place body) (body.map Statement.canonical) [] :=
    Machine.performs_listing (by rw [hplace]; omega) hread
      (fun s hs => hstorable s (List.mem_append_left _ hs)) hcode
      (fun i hi => hfits i (by rw [hlisting]; exact List.mem_append_left _ hi)) hlies
  have hexit : Machine.Performs (Machine.textsOf settings (before ++ out)) [] leave [.exit v] [] :=
    .cons (Machine.step_pushInt v) (.cons (Machine.step_exit v) .nil)
  have hstands : Record.StandAt (before ++ out) before.length
      ((Statement.listing settings place body ++ leave).map Instruction.toRecord
        ++ [Instruction.finish.toRecord]) := by
    have hrecords : (Statement.listing settings place body ++ leave).map Instruction.toRecord
          ++ [Instruction.finish.toRecord]
        = (Statement.listing settings place body ++ exits).map Instruction.toRecord := by
      simp [exits]
    rw [hrecords]
    constructor
    · intro r hr
      obtain ⟨i, hi, rfl⟩ := List.mem_map.1 hr
      refine hfits i ?_
      rw [hlisting, ← List.append_assoc]
      exact List.mem_append_left _ hi
    · have hcodes : codeOf (Statement.listing settings place (body ++ .exit v :: rest))
          = codeOf (Statement.listing settings place body ++ exits) ++ codeOf after := by
        rw [hlisting, ← List.append_assoc, codeOf_append]
      rw [List.drop_left, hout, ← codeOf_eq, hcodes, List.append_assoc]
      exact List.prefix_append _ _
  refine ⟨_, Machine.decode_eq_of_performs (hbody.append hexit) (by rfl) hstands, rfl, rfl, rfl, ?_⟩
  show (body.map Statement.canonical ++ [Statement.exit v]).map Statement.render = _
  simp [Statement.canonical]

/-- A marked number, a fraction, a text and a hexadecimal number come back; what follows the exit does
not. -/
theorem decode_assemble_call : ∃ out t,
    assemble ⟨some "ascii", some 16⟩ 4
      ["sub7777(-3f, 1.25, \"a, b\", 0xFFFFFFFF);".toList, "macro(0x00fe);".toList, "exit(0);".toList,
        "sub001(\"z\");".toList] = .ok out ∧
      Decoder.decode ⟨⟨some "ascii", some 16⟩, ⟨[0, 0, 0, 0] ++ out, 4⟩, []⟩ = .ok t ∧
      t.failure = none ∧ t.leftover = [] ∧ t.notices = [] ∧
      t.lines = ["sub7777(-3f, 1.2500, \"a, b\", -1);".toList, "macro(0x00FE);".toList,
        "exit(0);".toList] := by
  let settings : Settings := ⟨some "ascii", some 16⟩
  let called : Statement := .sub 7777 ["-3f".toList, "1.25".toList, "\"a, b\"".toList, "0xFFFFFFFF".toList]
  let lines : List Text := ["sub7777(-3f, 1.25, \"a, b\", 0xFFFFFFFF);".toList, "macro(0x00fe);".toList,
    "exit(0);".toList, "sub001(\"z\");".toList]
  have hparse : Statement.parseLines lines
      = .ok ([called, .runMacro 0xFE] ++ .exit 0 :: [.sub 1 ["\"z\"".toList]]) := by decide +kernel
  have hread : ∀ s ∈ [called, .runMacro 0xFE], s.Readable settings := by decide +kernel
  obtain ⟨out, hassemble⟩ : ∃ out, assemble settings ([0, 0, 0, 0] : List UInt8).length lines = .ok out :=
    exists_eq_ok (by decide +kernel)
  obtain ⟨t, hdecode, hfailure, hleftover, hnotices, hlines⟩ := decode_assemble hparse hread hassemble
  refine ⟨out, t, hassemble, hdecode, hfailure, hleftover, hnotices, hlines.trans ?_⟩
  decide +kernel

end Assembly
end Storyboard
