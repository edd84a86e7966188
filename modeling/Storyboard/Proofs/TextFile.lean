/-
The lines of a script in a text file.

A text file is cut into lines at every line break, and what is shown of a text holds its line breaks as they are. So the
lines that are read from a written file are the lines of the lines (`Text.fileLines_ofLines`), and they are those
that were written exactly when no text that the script pops has a line break inside (`Session.readLines_of_decodeFile`).
-/
import Storyboard.Proofs.Acceptance
import Storyboard.Proofs.Encoding
import Storyboard.Proofs.Storing

namespace Storyboard

/-! ## Line breaks -/

namespace Text

/-- The text has no line break. -/
def Unbroken (t : Text) : Prop := ∀ c ∈ t, isLineBreak c = false

instance (t : Text) : Decidable t.Unbroken := List.decidableBAll (isLineBreak · = false) t

/-- The text ends in a character that is no line break. -/
def Closed (t : Text) : Prop := ∃ front c, t = front ++ [c] ∧ isLineBreak c = false

theorem unbroken_append_iff {s t : Text} : Unbroken (s ++ t) ↔ s.Unbroken ∧ t.Unbroken := List.forall_mem_append

theorem unbroken_iff {t : Text} : t.Unbroken ↔ ∀ c, isLineBreak c = true → c ∉ t := by
  constructor
  · intro h c hc hmem
    rw [h c hmem] at hc
    contradiction
  · intro h c hmem
    exact Bool.eq_false_iff.2 fun hc => h c hc hmem

/-- A carriage return does not go with what follows a character that is no line break. -/
theorem uniformNewlines_append {c : Char} (hc : isLineBreak c = false) (front rest : Text) :
    uniformNewlines (front ++ c :: rest) = uniformNewlines front ++ c :: uniformNewlines rest := by
  have hreturn : c ≠ '\r' := by
    rintro rfl
    contradiction
  have hfeed : c ≠ '\n' := by
    rintro rfl
    contradiction
  fun_induction uniformNewlines front with
  | case1 => simp [uniformNewlines, hreturn]
  | case2 t ih => simp [uniformNewlines, ih]
  | case3 d t hpair ih =>
    have hpair' : ∀ t' : Text, d = '\r' → t ++ c :: rest = '\n' :: t' → False := by
      intro t' hd ht
      cases t with
      | nil => exact hfeed (List.cons.inj ht).1
      | cons e t => exact hpair t hd (by rw [(List.cons.inj ht).1])
    rw [List.cons_append, uniformNewlines.eq_3 _ _ hpair', ih, List.cons_append]

theorem cutLines_append {c : Char} (hc : isLineBreak c = false) (line front rest : Text) :
    cutLines line (front ++ c :: '\n' :: rest) = cutLines line (front ++ [c]) ++ cutLines [] rest := by
  have hfeed : isLineBreak '\n' = true := rfl
  induction front generalizing line with
  | nil => simp [cutLines, hc, hfeed]
  | cons d front ih =>
    rw [List.cons_append, List.cons_append, cutLines, cutLines]
    split
    · rw [ih, List.cons_append]
    · exact ih _

/-- **The lines of a text file are the lines of its lines**, if these end in other characters than line breaks. -/
theorem fileLines_ofLines {lines : List Text} (h : ∀ t ∈ lines, t.Closed) :
    fileLines (ofLines lines) = lines.flatMap fileLines := by
  induction lines with
  | nil => rfl
  | cons t lines ih =>
    obtain ⟨⟨front, c, rfl, hc⟩, hlines⟩ := List.forall_mem_cons.1 h
    have hofLines : ofLines ((front ++ [c]) :: lines) = front ++ c :: '\n' :: ofLines lines := by
      simp [ofLines]
    rw [List.flatMap_cons, ← ih hlines, hofLines]
    unfold fileLines
    rw [uniformNewlines_append hc, uniformNewlines_append hc front []]
    exact cutLines_append hc [] _ _

theorem unbroken_of_mem_cutLines {line t : Text} (hline : line.Unbroken) :
    ∀ l ∈ cutLines line t, l.Unbroken := by
  fun_induction cutLines line t with
  | case1 => simp
  | case2 line hempty =>
    intro l hl c hc
    rw [List.mem_singleton.1 hl, List.mem_reverse] at hc
    exact hline c hc
  | case3 line c t hbreak ih =>
    refine List.forall_mem_cons.2 ⟨fun d hd => hline d (List.mem_reverse.1 hd), ih ?_⟩
    exact fun d hd => absurd hd List.not_mem_nil
  | case4 line c t hbreak ih =>
    exact ih (List.forall_mem_cons.2 ⟨Bool.eq_false_iff.2 hbreak, hline⟩)

theorem unbroken_of_mem_fileLines {t : Text} : ∀ l ∈ fileLines t, l.Unbroken :=
  unbroken_of_mem_cutLines fun _ hc => absurd hc List.not_mem_nil

theorem uniformNewlines_of_unbroken {t : Text} (h : t.Unbroken) : uniformNewlines t = t := by
  induction t with
  | nil => rfl
  | cons c t ih =>
    obtain ⟨hc, ht⟩ := List.forall_mem_cons.1 h
    exact (uniformNewlines_append hc [] t).trans (by rw [ih ht]; rfl)

theorem cutLines_of_unbroken {t : Text} (h : t.Unbroken) (line : Text) (hne : line ++ t ≠ []) :
    cutLines line t = [line.reverse ++ t] := by
  induction t generalizing line with
  | nil =>
    rw [List.append_nil] at hne ⊢
    rw [cutLines, if_neg (by simpa using hne)]
  | cons c t ih =>
    obtain ⟨hc, ht⟩ := List.forall_mem_cons.1 h
    rw [cutLines, if_neg (by simp [hc]), ih ht _ (by simp)]
    simp

theorem fileLines_of_unbroken {t : Text} (h : t.Unbroken) (hne : t ≠ []) : fileLines t = [t] := by
  unfold fileLines
  rw [uniformNewlines_of_unbroken h, cutLines_of_unbroken h [] hne]
  rfl

/-- Lines stay what they are exactly when none has a line break. -/
theorem flatMap_fileLines_eq_iff {lines : List Text} (h : ∀ t ∈ lines, t.Closed) :
    lines.flatMap fileLines = lines ↔ ∀ t ∈ lines, t.Unbroken := by
  constructor
  · intro heq t ht
    rw [← heq] at ht
    obtain ⟨t', -, ht'⟩ := List.mem_flatMap.1 ht
    exact unbroken_of_mem_fileLines t ht'
  · intro hunbroken
    have hself : ∀ t ∈ lines, fileLines t = [t] := by
      intro t ht
      obtain ⟨front, c, rfl, -⟩ := h t ht
      exact fileLines_of_unbroken (hunbroken _ ht) (by simp)
    rw [List.flatMap_congr hself, List.flatMap_singleton']

end Text

/-! ## Line breaks in rendered statements -/

open Text

/-- Line breaks are control characters or lie outside ASCII. -/
theorem Text.toNat_of_isLineBreak {c : Char} (h : isLineBreak c = true) : c.toNat < 0x20 ∨ 0x7F < c.toNat := by
  simp only [isLineBreak, inRanges, List.any_cons, List.any_nil, Bool.or_eq_true, Bool.and_eq_true, decide_eq_true_eq,
    Bool.or_false] at h
  omega

/-- No number, mark or quote has a line break. -/
theorem Literal.foreign_of_isLineBreak {c : Char} (h : isLineBreak c = true) : Foreign c := by
  have hne : ∀ d, isLineBreak d = false → c ≠ d := by
    rintro d hd rfl
    rw [hd] at h
    contradiction
  refine ⟨hne _ rfl, hne _ rfl, hne _ rfl, hne _ rfl, Bool.eq_false_iff.2 fun hdigit => ?_⟩
  have := toNat_of_isDigit hdigit
  have := toNat_of_isLineBreak h
  omega

namespace Statement

open Number

theorem unbroken_integer (v : Int) : Unbroken (integer v) :=
  unbroken_iff.2 fun _ hc =>
    have hforeign := Literal.foreign_of_isLineBreak hc
    Literal.notMem_integer hforeign.sign hforeign.digit v

theorem unbroken_paddedInteger (width : Nat) (v : Int) : Unbroken (paddedInteger width v) :=
  unbroken_iff.2 fun _ hc =>
    have hforeign := Literal.foreign_of_isLineBreak hc
    Literal.notMem_signed hforeign.sign
      (Literal.notMem_of_digits hforeign.digit (digits_zeroPadded (digits_decimal _)))

theorem unbroken_hexadecimal (width n : Nat) : Unbroken (zeroPadded width (hexadecimal n)) := by
  intro c hmem
  refine Bool.eq_false_iff.2 fun hc => ?_
  obtain ⟨d, hd⟩ := Option.isSome_iff_exists.1
    (isSome_hexDigit?_of_readHexadecimal? (readHexadecimal?_zeroPadded width n) c hmem)
  have := toNat_of_hexDigit? hd
  have := toNat_of_isLineBreak hc
  omega

theorem unbroken_joinArguments_iff {shown : List Text} :
    (joinArguments shown).Unbroken ↔ ∀ t ∈ shown, t.Unbroken := by
  have hseparator : separator.Unbroken := by decide
  simp only [unbroken_iff] at hseparator ⊢
  constructor
  · intro h t ht c hc
    exact (notMem_joinArguments_iff (hseparator c hc)).1 (h c hc) t ht
  · intro h c hc
    exact (notMem_joinArguments_iff (hseparator c hc)).2 fun t ht => h t ht c hc

/-- **A rendered call has no line break exactly when its arguments have none.** -/
theorem unbroken_render_sub_iff {number : Int} {shown : List Text} :
    (render (sub number shown)).Unbroken ↔ ∀ t ∈ shown, t.Unbroken := by
  have hopening : subOpening.Unbroken := by decide
  have hparenthesis : Unbroken ['('] := by decide
  have hending : callEnding.Unbroken := by decide
  rw [render_sub, ← List.singleton_append]
  simp only [unbroken_append_iff, unbroken_joinArguments_iff, hopening, unbroken_paddedInteger, hparenthesis, hending,
    true_and, and_true]

/-- Other statements are rendered without line breaks. -/
theorem unbroken_render {st : Statement} (h : ∀ number shown, st ≠ sub number shown) : st.render.Unbroken := by
  have hopenings : macroOpening.Unbroken ∧ timeOpening.Unbroken ∧ exitOpening.Unbroken := by decide
  have hendings : callEnding.Unbroken ∧ timeEnding.Unbroken := by decide
  cases st with
  | sub number shown => exact absurd rfl (h number shown)
  | runMacro code =>
    simp only [render, unbroken_append_iff, hopenings, unbroken_hexadecimal, hendings, and_true]
  | time v | exit v =>
    simp only [render, unbroken_append_iff, hopenings, unbroken_integer, hendings, and_true]

/-- A rendered statement ends in a semicolon, which is no line break. -/
theorem closed_render (st : Statement) : st.render.Closed := by
  obtain ⟨front, hfront⟩ := List.getLast?_eq_some_iff.1 (getLast?_render st)
  exact ⟨front, _, hfront, rfl⟩

end Statement

namespace Machine

/-- If the argument is a text, it has no line break. -/
def Argument.Unbroken (a : Argument) : Prop := ∀ t, a.value = .text t → t.Unbroken

theorem forall_unbroken_iff {args : List Argument} {shown : List Text} (h : List.Forall₂ Argument.Shows args shown) :
    (∀ t ∈ shown, t.Unbroken) ↔ ∀ a ∈ args, a.Unbroken := by
  simp only [Argument.Unbroken, unbroken_iff]
  constructor
  · intro hshown a ha t ht c hc
    exact (forall_notMem_iff h (Literal.foreign_of_isLineBreak hc)).1 (fun t' ht' => hshown t' ht' c hc) a ha t ht
  · intro hargs t ht c hc
    exact (forall_notMem_iff h (Literal.foreign_of_isLineBreak hc)).2 (fun a ha t' ht' => hargs a ha t' ht' c hc) t ht

/-- **One step**: a line that it completes has no line break exactly when the texts that it popped have none. -/
theorem unbroken_iff_of_step {texts : Int → Except Error Text} {record : Record} {position : Int} {s s' : Stack}
    {st : Option Statement} (h : step texts record position s = .ok st s') :
    (∀ line ∈ st, line.render.Unbroken) ↔ ∀ a ∈ Event.popped ⟨record, s, st⟩, a.Unbroken := by
  obtain ⟨i, hi, htakes⟩ := takes_of_step h
  cases htakes with
  | @callSub count number shown _ _ hpop =>
    have hrender := @Statement.unbroken_render_sub_iff number shown
    rw [← forall_unbroken_iff (shows_of_step h), ← hrender]
    simp
  | _ =>
    unfold Event.popped
    simp [hi, Statement.unbroken_render]

/-- **A trace**: its lines have no line break exactly when the texts that it popped have none. -/
theorem unbroken_iff_of_steps {texts : Int → Except Error Text} {s s' : Stack} {events : List Event}
    (h : Steps texts s events s') :
    (∀ st ∈ statements events, st.render.Unbroken) ↔ ∀ e ∈ events, ∀ a ∈ e.popped, a.Unbroken := by
  induction h with
  | nil => simp [statements]
  | cons hstep _ ih =>
    rw [statements_cons, List.forall_mem_append, List.forall_mem_cons, ih, ← unbroken_iff_of_step hstep]
    simp

end Machine

/-! ## The text file of a storyboard -/

/-- A decoded container whose script ended with a sentinel has been decoded from where its header says. -/
theorem Container.of_decode {settings : Settings} {c : Container} {t : Transcript} (h : c.decode settings = .ok t)
    (hfailure : t.failure = none) :
    ∃ position : Nat, codeStart c.header.scriptStart = position ∧
      Decoder.decode ⟨settings, ⟨c.bytes, position⟩, []⟩ = .ok t := by
  unfold Container.decode at h
  split at h
  · next d hjump =>
    unfold Decoder.jump Decoder.onStream Attempt.within at hjump
    split at hjump
    · next u stream hstream =>
      obtain ⟨hpos, -, rfl⟩ := Stream.jump_eq_ok_iff.1 hstream
      cases hjump
      exact ⟨_, (Int.toNat_of_nonneg hpos).symm, h⟩
    · contradiction
  · split at h
    · cases h
      contradiction
    · contradiction

/-- A storyboard whose script calls a sub method with a text, which lies behind the records. -/
def Image.telling (text : List UInt8) : Image where
  header := ⟨28, 0, 20, 1⟩
  lead := [0, 0, 0, 0] ++ Header.bytes ⟨28, 0, 20, 1⟩
  gap := []
  pieces := [{ Piece.leaving with
    own := 28
    code := ([Instruction.pushInt descriptorMarker, .pushInt 1, .pushTrue, .pushText 92, .callSub 2, .pushInt 0, .exit,
      .finish].flatMap fun i => i.toRecord.bytes) ++ (text ++ [0])
    own_fits := by decide }]

theorem Image.spelled_telling (text : List UInt8) : (telling text).container.Spelled :=
  ⟨(by decide : Header.Fits ⟨28, 0, 20, 1⟩), ⟨_, rfl⟩, (by decide : (0 : Int) ≤ 20), rfl,
    (by decide : ∀ entry ∈ [(⟨1, 28⟩ : Segment)], entry.Fits), ⟨_, rfl⟩⟩

namespace Session

variable {s s' : Session} {p : Path}

/-- A storyboard that has been decoded to a text was a file that could be loaded, a sentinel ended its script, and the
lines of that are what has been written. -/
theorem of_decodeFile {settings : Settings} {u : Unit} (h : decodeFile settings p s = .ok u s') :
    ∃ bytes w t, s.files.read p = .ok bytes ∧ Workspace.load bytes { notices := s.notices } = .ok () w ∧
      w.container.decode settings = .ok t ∧ t.failure = none ∧
      s.files.write (p.withName (p.name ++ textSuffix)) (Encoding.Utf8.encode (ofLines t.lines)) = .ok s'.files := by
  obtain ⟨bytes, s₁, hread, hwork⟩ := Attempt.bind_eq_ok.1 h
  obtain ⟨hbytes, rfl⟩ := of_readFile hread
  obtain ⟨⟨_, c⟩, s₂, hload, hwork⟩ := Attempt.bind_eq_ok.1 hwork
  obtain ⟨w, hloaded, rfl, rfl⟩ := of_onContainer hload
  obtain ⟨t, s₃, hdecode, hwork⟩ := Attempt.bind_eq_ok.1 hwork
  obtain ⟨hdecoded, rfl⟩ := Attempt.ofExcept_eq_ok_iff.1 hdecode
  obtain ⟨_, s₄, hnotices, hwork⟩ := Attempt.bind_eq_ok.1 hwork
  cases (forM_report id t.notices _).symm.trans hnotices
  cases hfailure : t.failure with
  | some e =>
    rw [hfailure] at hwork
    contradiction
  | none =>
    rw [hfailure] at hwork
    obtain ⟨_, s₅, hwrite, hreport⟩ := Attempt.bind_eq_ok.1 hwork
    have hfiles := of_writeFile hwrite
    cases hreport
    exact ⟨bytes, w, t, hbytes, hloaded, hdecoded, hfailure, hfiles⟩

/-- **What is read from the text file of a storyboard.** Where a storyboard has been decoded to the text file beside it,
the lines that are read from that are the lines of the lines that decoding gave. They are the same lines exactly
when no text that the script pops as an argument has a line break. -/
theorem readLines_of_decodeFile {settings : Settings} (h : decodeFile settings p s = .ok () s') :
    ∃ bytes w t, s.files.read p = .ok bytes ∧ Workspace.load bytes { notices := s.notices } = .ok () w ∧
      w.container.decode settings = .ok t ∧ t.failure = none ∧
      readLines (p.withName (p.name ++ textSuffix)) s' = .ok (t.lines.flatMap fileLines) s' ∧
      ∃ (position : Nat) (events : List Machine.Event) (stack : Stack),
        codeStart w.container.header.scriptStart = position ∧
        Machine.Trace settings w.container.bytes position [] events stack ∧
        Machine.statements events = t.statements ∧
        (t.lines.flatMap fileLines = t.lines ↔ ∀ e ∈ events, ∀ a ∈ e.popped, a.Unbroken) := by
  obtain ⟨bytes, w, t, hbytes, hload, hdecode, hfailure, hwrite⟩ := of_decodeFile h
  obtain ⟨position, hposition, hrun⟩ := Container.of_decode hdecode hfailure
  obtain ⟨events, stack, htrace, hstatements⟩ := Machine.exists_trace ⟨settings, ⟨w.container.bytes, position⟩, []⟩
  rw [← Machine.eq_transcribe_of_decode hrun] at hstatements
  have hclosed : ∀ line ∈ t.lines, line.Closed := List.forall_mem_map.2 fun st _ => st.closed_render
  refine ⟨bytes, w, t, hbytes, hload, hdecode, hfailure, ?_, position, events, stack, hposition, htrace,
    hstatements.symm, ?_⟩
  · have hread : s'.files.read (p.withName (p.name ++ textSuffix)) = .ok (Encoding.Utf8.encode (ofLines t.lines)) :=
      FileSystem.read_write hwrite
    refine Attempt.bind_eq_ok.2 ⟨_, s', Attempt.ofExcept_eq_ok_iff.2 ⟨hread, rfl⟩, ?_⟩
    rw [Encoding.Utf8.decode_encode, ← fileLines_ofLines hclosed]
    rfl
  · rw [flatMap_fileLines_eq_iff hclosed, ← Machine.unbroken_iff_of_steps htrace.steps, ← hstatements]
    exact List.forall_mem_map

/-- A letter that is no ASCII character has two bytes in the text file, and is read as it was. -/
theorem readLines_of_decodeFile_latin : ∃ (s s' : Session) (w : Workspace) (t : Transcript),
    decodeFile ⟨some "latin-1", some 16⟩ (.ofText "a.stb".toList) s = .ok () s' ∧
      Workspace.load (Image.telling [0x61, 0xE9]).bytes {} = .ok () w ∧
      w.container.decode ⟨some "latin-1", some 16⟩ = .ok t ∧ t.failure = none ∧
      t.lines = ["sub001(\"aé\");".toList, "exit(0);".toList] ∧
      readLines (.ofText "a.stb.txt".toList) s' = .ok t.lines s' := by
  let settings : Settings := ⟨some "latin-1", some 16⟩
  let p : Path := .ofText "a.stb".toList
  let bytes := (Image.telling [0x61, 0xE9]).bytes
  let s : Session := { files := { files := [(p, bytes)] } }
  obtain ⟨s', hdecode⟩ : ∃ s', decodeFile settings p s = .ok () s' :=
    Attempt.outcome_eq_ok_iff.1 (by decide +kernel)
  have hfile : s.files.read p = .ok bytes := by decide +kernel
  obtain ⟨bytes', w, t, hbytes, hload, hrun, hfailure, hread, -⟩ := readLines_of_decodeFile hdecode
  obtain rfl := Except.ok.inj (hfile.symm.trans hbytes)
  obtain ⟨notices, hstored⟩ := Workspace.gives_load (Image.spelled_telling [0x61, 0xE9]) {}
  cases hload.symm.trans hstored
  have hlines : t.lines = ["sub001(\"aé\");".toList, "exit(0);".toList] := by
    have heval : ((Image.telling [0x61, 0xE9]).container.decode settings).map Transcript.lines
        = .ok ["sub001(\"aé\");".toList, "exit(0);".toList] := by
      decide +kernel
    rw [hrun] at heval
    exact Except.ok.inj heval
  refine ⟨s, s', _, t, hdecode, hload, hrun, hfailure, hlines, ?_⟩
  refine hread.trans ?_
  rw [hlines]
  rfl

/-- Not all lines come back: a form feed in a text is a line break, and what is before it is read as a line. -/
theorem not_readLines_of_decodeFile : ¬∀ (settings : Settings) (s s' : Session) (p : Path) (bytes : List UInt8)
    (w : Workspace) (t : Transcript), decodeFile settings p s = .ok () s' → s.files.read p = .ok bytes →
    Workspace.load bytes { notices := s.notices } = .ok () w → w.container.decode settings = .ok t →
    readLines (p.withName (p.name ++ textSuffix)) s' = .ok t.lines s' := by
  intro claim
  let settings : Settings := ⟨some "ascii", some 16⟩
  let image := Image.telling [0x61, 0x0C, 0x62]
  let p : Path := .ofText "a.stb".toList
  let output : Path := .ofText "a.stb.txt".toList
  let s : Session := { files := { files := [(p, image.bytes)] } }
  have hread : Attempt.outcome ((decodeFile settings p >>= fun _ => readLines output) s)
      = .ok ["sub001(\"a".toList, "b\");".toList, "exit(0);".toList] := by
    decide +kernel
  obtain ⟨s'', hread⟩ := Attempt.outcome_eq_ok_iff.1 hread
  obtain ⟨_, s', hdecode, hread⟩ := Attempt.bind_eq_ok.1 hread
  have hfile : s.files.read p = .ok image.bytes := by decide +kernel
  obtain ⟨notices, hload⟩ := Workspace.gives_load (Image.spelled_telling [0x61, 0x0C, 0x62]) {}
  have heval : (image.container.decode settings).map Transcript.lines
      = .ok ["sub001(\"a\x0cb\");".toList, "exit(0);".toList] := by
    decide +kernel
  obtain ⟨t, hrun, hlines⟩ := except_map_eq_ok_iff.1 heval
  have hkept := claim settings s s' p image.bytes _ t hdecode hfile hload hrun
  rw [← hlines] at hkept
  cases hread.symm.trans hkept

end Session
end Storyboard
