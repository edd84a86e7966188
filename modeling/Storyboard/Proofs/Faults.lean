/-
What reading and assembling lines can fail with.

Lines are misread because of what they say, or because of a numeral with more digits than are read
(`Assembly.failsOnly_measure`). What has been read is assembled unless the encoding lacks a text or a number does
not fit its word (`Assembly.failsOnly_emit`).
-/
import Storyboard.Proofs.Diagnosis
import Storyboard.Proofs.Listing

namespace Storyboard

/-! ## Numerals -/

namespace Text

/-- Some numeral in the text has more digits than are read. -/
def HasLongNumeral (t : Text) : Prop :=
  ∃ digits, digits <:+: t ∧ digits.all isDigit = true ∧ digitLimit < digits.length

theorem HasLongNumeral.mono {t u : Text} (h : t.HasLongNumeral) (ht : t <:+: u) : u.HasLongNumeral := by
  obtain ⟨digits, hdigits, hall, hlong⟩ := h
  exact ⟨digits, hdigits.trans ht, hall, hlong⟩

/-- Reading the text fails so because of what it says, or because of a numeral that is too long. -/
def Misread (t : Text) (e : Error) : Prop := e.failsFile = true ∨ (e = .numeralTooLong ∧ t.HasLongNumeral)

theorem LongDigits.hasLongNumeral {digits : Text} (h : LongDigits digits) : digits.HasLongNumeral :=
  ⟨digits, List.infix_refl digits, List.all_eq_true.2 h.1.2, h.2⟩

end Text

theorem Literal.Overlong.hasLongNumeral {t : Text} (h : Overlong t) : t.HasLongNumeral := by
  cases h with
  | @signed negative marked digits hdigits =>
    refine hdigits.hasLongNumeral.mono ?_
    rw [signed_append]
    cases negative with
    | true => exact List.infix_cons (List.prefix_append digits _).isInfix
    | false => exact (List.prefix_append digits _).isInfix
  | plus hdigits => exact hdigits.hasLongNumeral.mono (List.suffix_cons _ _).isInfix

/-! ## Lines -/

namespace Statement

open Text

theorem Overlong.hasLongNumeral {t : Text} (h : Overlong t) : t.HasLongNumeral := by
  cases h with
  | @number digits list hdigits _ =>
    exact hdigits.hasLongNumeral.mono ⟨subOpening, '(' :: (list ++ callEnding), List.append_assoc ..⟩
  | @argument digits list a before after _ _ _ _ _ hlist _ hlong =>
    have hmem : a ∈ before ++ a :: after := List.mem_append_right before List.mem_cons_self
    have hpart := infix_of_mem_splitArguments (hlist ▸ hmem)
    exact hlong.hasLongNumeral.mono (hpart.trans (infix_call digits list))
  | time hlong => exact hlong.hasLongNumeral.mono ⟨timeOpening, timeEnding, rfl⟩
  | exit hlong => exact hlong.hasLongNumeral.mono ⟨exitOpening, callEnding, rfl⟩

theorem Refused.misread {number : Int} {line : Text} {e : Error} (h : Refused number line e) : line.Misread e := by
  rcases h with rfl | ⟨a, -, rfl⟩ | ⟨rfl, hlong⟩
  · exact .inl rfl
  · exact .inl rfl
  · exact .inr ⟨rfl, hlong.hasLongNumeral.mono (withoutFinalNewline_isPrefix line).isInfix⟩

/-- **Reading a line** fails because it is none, or because of a long numeral. -/
theorem failsOnly_parse {number : Int} {line : Text} : FailsOnly line.Misread (parse number line) :=
  parse_refused.imp fun _ h => h.misread

/-- Reading the arguments of a line that has been read fails because one is no literal, or because of a long
numeral. -/
theorem failsOnly_literals {number : Int} {line : Text} {st : Statement} (hparse : parse number line = .ok st) :
    FailsOnly line.Misread st.literals :=
  (literals_refused hparse).imp fun _ h => h.misread

theorem failsOnly_parseFrom {number : Int} {lines : List Text} :
    FailsOnly (fun e => ∃ line ∈ lines, line.Misread e) (parseFrom number lines) := by
  induction lines generalizing number with
  | nil => exact .ok _
  | cons line lines ih =>
    refine (failsOnly_parse.imp fun _ h => ⟨line, List.mem_cons_self, h⟩).bind fun _ _ => ?_
    refine (ih.imp fun e h => ?_).bind fun _ _ => .ok _
    obtain ⟨other, hother, h⟩ := h
    exact ⟨other, List.mem_cons_of_mem line hother, h⟩

theorem failsOnly_literals_of_parseFrom {number : Int} {lines : List Text} {ss : List Statement}
    (hparse : parseFrom number lines = .ok ss) :
    ∀ st ∈ ss, FailsOnly (fun e => ∃ line ∈ lines, line.Misread e) st.literals := by
  intro st hst
  obtain ⟨line, hline, n, hst⟩ := exists_parse_of_mem hparse st hst
  exact (failsOnly_literals hst).imp fun _ h => ⟨line, hline, h⟩

theorem failsOnly_totalSize {P : Error → Prop} {ss : List Statement} (h : ∀ st ∈ ss, FailsOnly P st.literals) :
    FailsOnly P (totalSize ss) := by
  induction ss with
  | nil => exact .ok _
  | cons st ss ih =>
    obtain ⟨hst, hss⟩ := List.forall_mem_cons.1 h
    have hsize : FailsOnly P st.size := by
      cases st with
      | sub => exact hst.map.map
      | runMacro | time | exit => exact .ok _
    exact hsize.bind fun _ _ => (ih hss).bind fun _ _ => .ok _

end Statement

namespace Assembly

/-- **Reading and measuring lines** fails because of what one of them says, or because of a long numeral. -/
theorem failsOnly_measure (lines : List Text) :
    FailsOnly (fun e => ∃ line ∈ lines, line.Misread e) (measure lines) :=
  Statement.failsOnly_parseFrom.bind fun _ hss =>
    (Statement.failsOnly_totalSize (Statement.failsOnly_literals_of_parseFrom hss)).bind fun _ _ => .ok _

end Assembly

/-! ## Records and texts -/

/-- Records and texts cannot be written: the encoding lacks a character, or a number does not fit its word. -/
inductive Error.Unwritable : Error → Prop
  | text (fault : EncodeFault) : Unwritable (.unencodable fault)
  | word : Unwritable .wordOverflow

namespace Settings

theorem failsOnly_encodeText {settings : Settings} (h : settings.Supported) (t : Text) :
    FailsOnly Error.Unwritable (settings.encodeText t) := by
  obtain ⟨name, e, hname, he⟩ := h.encoding
  unfold encodeText
  rw [hname]
  refine FailsOnly.bind (.ok _) fun _ h => ?_
  rw [← Except.ok.inj h, he]
  refine FailsOnly.bind (.ok _) fun _ h => ?_
  rw [← Except.ok.inj h]
  cases e.encode t with
  | ok bytes => exact .ok bytes
  | error fault => exact .error (.text fault)

theorem failsOnly_decodeText {settings : Settings} (h : settings.Supported) (bytes : List UInt8) :
    FailsOnly (fun e => e.endsDecoding = true) (settings.decodeText bytes) := by
  obtain ⟨name, e, hname, he⟩ := h.encoding
  rw [decodeText_eq, hname]
  refine FailsOnly.bind (.ok _) fun _ h => ?_
  rw [← Except.ok.inj h, he]
  split
  · exact .ok _
  · refine FailsOnly.bind (.ok _) fun _ h => ?_
    rw [← Except.ok.inj h]
    cases e.decode bytes with
    | ok t => exact .ok t
    | error fault => exact .error rfl

end Settings

namespace Assembly

variable {settings : Settings} {place : Int}

theorem failsOnly_ofInstructions (is : List Instruction) : FailsOnly Error.Unwritable (ofInstructions is) := by
  have hrecord : ∀ i ∈ is, FailsOnly Error.Unwritable i.toRecord.toBytes := by
    intro i _
    unfold Record.toBytes
    split
    · exact .ok _
    · exact .error .word
  exact (FailsOnly.mapM hrecord).bind fun _ _ => .ok _

theorem failsOnly_ofLiteral (hsettings : settings.Supported) {l : Literal}
    (hnarrow : ∀ x marked, l = .float x marked → x.narrow?.isSome = true) :
    FailsOnly Error.Unwritable (ofLiteral settings place l) := by
  cases l with
  | int v marked => exact failsOnly_ofInstructions _
  | float x marked =>
    have hoperand : FailsOnly Error.Unwritable (Literal.floatOperand x) := by
      rw [Literal.floatOperand_eq_ok_iff.2 ⟨hnarrow x marked rfl, rfl⟩]
      exact .ok _
    exact hoperand.bind fun _ _ => failsOnly_ofInstructions _
  | text t =>
    refine (failsOnly_ofInstructions _).bind fun _ _ => ?_
    exact (Settings.failsOnly_encodeText hsettings t).bind fun _ _ => .ok _

theorem failsOnly_ofLiterals (hsettings : settings.Supported) {ls : List Literal}
    (hnarrow : ∀ x marked, .float x marked ∈ ls → x.narrow?.isSome = true) :
    FailsOnly Error.Unwritable (ofLiterals settings place ls) := by
  induction ls generalizing place with
  | nil => exact .ok _
  | cons l ls ih =>
    have hl : ∀ x marked, l = .float x marked → x.narrow?.isSome = true := by
      rintro x marked rfl
      exact hnarrow x marked List.mem_cons_self
    have hls : ∀ x marked, .float x marked ∈ ls → x.narrow?.isSome = true :=
      fun x marked h => hnarrow x marked (List.mem_cons_of_mem l h)
    exact (failsOnly_ofLiteral hsettings hl).bind fun _ _ => (ih hls).bind fun _ _ => .ok _

/-- What a statement with literals becomes. -/
theorem failsOnly_ofStatement (hsettings : settings.Supported) {st : Statement} {ls : List Literal}
    (hls : st.literals = .ok ls) : FailsOnly Error.Unwritable (ofStatement settings place st) := by
  cases st with
  | runMacro code | time v | exit v => exact failsOnly_ofInstructions _
  | sub number args =>
    have hnarrow : ∀ x marked, .float x marked ∈ ls → x.narrow?.isSome = true := by
      intro x marked hmem
      obtain ⟨a, -, ha⟩ := exists_of_mem_mapM hls _ hmem
      exact Literal.isSome_narrow?_of_classify ha
    unfold ofStatement
    rw [hls]
    refine FailsOnly.bind (.ok _) fun _ h => ?_
    rw [← Except.ok.inj h]
    refine (failsOnly_ofInstructions _).bind fun _ _ => (failsOnly_ofLiterals hsettings hnarrow).bind fun _ _ => ?_
    exact (failsOnly_ofInstructions _).bind fun _ _ => .ok _

theorem failsOnly_ofStatements (hsettings : settings.Supported) {ss : List Statement}
    (hliterals : ∀ st ∈ ss, ∃ ls, st.literals = .ok ls) :
    FailsOnly Error.Unwritable (ofStatements settings place ss) := by
  induction ss generalizing place with
  | nil => exact .ok _
  | cons st ss ih =>
    obtain ⟨⟨ls, hls⟩, hss⟩ := List.forall_mem_cons.1 hliterals
    exact (failsOnly_ofStatement hsettings hls).bind fun _ _ => (ih hss).bind fun _ _ => .ok _

/-- **What has been measured has that size**, so making records and texts of it fails only because of a text that the
encoding does not have or a number that does not fit. -/
theorem failsOnly_emit (hsettings : settings.Supported) {lines : List Text} {ss : List Statement} {size : Nat}
    (hmeasure : measure lines = .ok (ss, size)) (start : Int) :
    FailsOnly Error.Unwritable (emit settings start size ss) := by
  obtain ⟨hliterals, rfl⟩ := Statement.totalSize_eq_ok_iff.1 (measure_eq_ok_iff.1 hmeasure).2
  refine (failsOnly_ofStatements hsettings hliterals).bind fun a ha => ?_
  obtain ⟨-, -, rfl⟩ := ofStatements_eq_ok_iff.1 ha
  rw [if_pos (by rw [Statement.length_codeOf_listing])]
  exact .ok _

/-- Assembling is making records and texts of what has been measured. -/
theorem assemble_eq (settings : Settings) {lines : List Text} {ss : List Statement} {size : Nat}
    (hmeasure : measure lines = .ok (ss, size)) (start : Int) :
    assemble settings start lines = (emit settings start size ss).map toBytes := by
  unfold assemble
  rw [hmeasure]
  show (emit settings start size ss >>= fun a => pure a.toBytes) = _
  cases emit settings start size ss with
  | ok a => rfl
  | error e => rfl

end Assembly
end Storyboard
