/-
Lines that are injected into a file are what the file says from then on.

Assembled lines are run as they were written wherever they lie (`Assembly.run_of_assemble`), and so also in the
container that they were injected into (`Image.Scripted.transcribe_injected`). Injecting lines into a file
replaces the file by that container (`Session.of_changeStoryboard`), and loading it again gives the lines in their
canonical form (`Session.transcribe_of_injectLines`).
-/
import Storyboard.Proofs.Files
import Storyboard.Proofs.Invariant
import Storyboard.Proofs.RoundTrip
import Storyboard.Storage

namespace Storyboard

/-! ## Lines where they stand -/

namespace Assembly

variable {settings : Settings} {bytes out : List UInt8} {start : Nat} {lines : List Text}

/-- Where assembled lines lie, the records of their statements stand, and the texts are where these refer to. -/
theorem standAt_of_assemble {ss : List Statement} (hparse : Statement.parseLines lines = .ok ss)
    (hassemble : assemble settings start lines = .ok out) (hlies : out <+: bytes.drop start) :
    Record.StandAt bytes start ((Statement.listing settings (placeOf start ss) ss).map Instruction.toRecord) ∧
      ss.flatMap (Statement.pool settings) <+: bytes.drop (placeOf start ss + textOperandBias).toNat := by
  obtain ⟨ss', hss', -, hfits, hout⟩ := assemble_eq_ok_iff.1 hassemble
  obtain rfl := Except.ok.inj (hparse.symm.trans hss')
  rw [hout, append_prefix_iff, Statement.length_codeOf_listing, List.drop_drop, codeOf_eq] at hlies
  obtain ⟨hrecords, hpool⟩ := hlies
  have hplace : (placeOf start ss + textOperandBias).toNat = start + Statement.codeSize ss := by
    simp only [placeOf]
    omega
  rw [hplace]
  refine ⟨⟨?_, hrecords⟩, hpool⟩
  intro r hr
  obtain ⟨i, hi, rfl⟩ := List.mem_map.1 hr
  exact hfits i hi

/-- **Assembled lines are run as they were written**, up to the first exit. -/
theorem run_of_assemble {body rest : List Statement} {v : Int}
    (hparse : Statement.parseLines lines = .ok (body ++ .exit v :: rest))
    (hread : ∀ st ∈ body, st.Readable settings) (hassemble : assemble settings start lines = .ok out)
    (hlies : out <+: bytes.drop start) :
    ∃ events, Machine.Run settings bytes start [] events [] ∧
      Machine.statements events = body.map Statement.canonical ++ [.exit v] := by
  obtain ⟨hstands, hpool⟩ := standAt_of_assemble hparse hassemble hlies
  obtain ⟨ss, hss, hstorable, hfits, -⟩ := assemble_eq_ok_iff.1 hassemble
  obtain rfl := Except.ok.inj (hparse.symm.trans hss)
  let place := placeOf start (body ++ .exit v :: rest)
  have hplace : 0 ≤ place + textOperandBias := by
    simp only [place, placeOf]
    omega
  have hcode : ∀ st ∈ body, st.HasCode := fun st hst =>
    Statement.hasCode_of_parseFrom hparse st (List.mem_append_left _ hst)
  rw [Statement.listing_append] at hstands hfits
  rw [List.flatMap_append] at hpool
  have hbody : Machine.Performs (Machine.textsOf settings bytes) [] (Statement.listing settings place body)
      (body.map Statement.canonical) [] :=
    Machine.performs_listing hplace hread (fun st hst => hstorable st (List.mem_append_left _ hst)) hcode
      (fun i hi => hfits i (List.mem_append_left _ hi)) (append_prefix_iff.1 hpool).1
  have hexit : Machine.Performs (Machine.textsOf settings bytes) [] [.pushInt v, .exit] [.exit v] [] :=
    .cons (Machine.step_pushInt v) (.cons (Machine.step_exit v) .nil)
  obtain ⟨events, hsteps, hrecords, hstatements⟩ := hbody.append hexit
  refine ⟨events, ⟨hsteps, Instruction.finish.toRecord, rfl, ?_⟩, hstatements⟩
  have hfront : ∀ after : List Instruction,
      (Statement.listing settings place body ++ (([.pushInt v, .exit, .finish] : List Instruction) ++ after)).map
          Instruction.toRecord
        = (Machine.records events ++ [Instruction.finish.toRecord]) ++ after.map Instruction.toRecord := by
    intro after
    rw [hrecords]
    simp
  rw [Statement.listing, Statement.instructions, hfront] at hstands
  exact (Record.standAt_append_iff.1 hstands).1

end Assembly

/-! ## Lines in a container -/

namespace Container

/-- The script of a container is run from where its records start. -/
theorem transcribe_eq_of_run {settings : Settings} {c : Container} {start : Nat} {events : List Machine.Event}
    {s : Stack} (hstart : codeStart c.header.scriptStart = start) (hreach : (start : Int) < Stream.offsetLimit)
    (hrun : Machine.Run settings c.bytes start [] events s) :
    c.transcribe settings = .ok ⟨Machine.statements events, none,
      ⟨settings, ⟨c.bytes, start + recordSize * (events.length + 1)⟩, s⟩⟩ := by
  have hjump : Decoder.jump start (.ofBytes settings c.bytes) = .ok () ⟨settings, ⟨c.bytes, start⟩, []⟩ := by
    have h : Stream.jump start ⟨c.bytes, 0⟩ = .ok () ⟨c.bytes, start⟩ :=
      Stream.jump_eq_ok_iff.2 ⟨Int.natCast_nonneg start, hreach, rfl⟩
    unfold Decoder.jump Decoder.onStream Attempt.within
    dsimp only [Decoder.ofBytes]
    rw [h]
  unfold transcribe
  rw [hstart, hjump]
  exact congrArg Except.ok (Machine.transcribe_eq_of_run hrun)

end Container

/-- **An injected script is run as it was written.** -/
theorem Image.Scripted.transcribe_injected {settings : Settings} {i : Image} {front back : List Piece} {p : Piece}
    {script : List UInt8} {lines : List Text} {body rest : List Statement} {v : Int}
    (h : i.Scripted front p back) (hinjectable : Workspace.Injectable i front p back script)
    (hparse : Statement.parseLines lines = .ok (body ++ .exit v :: rest))
    (hread : ∀ st ∈ body, st.Readable settings)
    (hassemble : Assembly.assemble settings (codeStart i.header.scriptStart) lines = .ok script) :
    ∃ t, (i.injected front p back script).container.transcribe settings = .ok t ∧ t.failure = none ∧
      t.lines = (body ++ [Statement.exit v]).map fun st => st.canonical.render := by
  let left := Workspace.codeFront (i.injected front p back script) front (p.withScript script)
  have hpieces : (i.injected front p back script).pieces
      = front ++ p.withScript script :: back.map (Piece.moved (p.growth script)) := rfl
  have hlength : left.length = i.base + Piece.totalSize front + segmentHeaderSize := by
    rw [Workspace.length_codeFront, Workspace.base_injected h.pieces]
  have hstart : codeStart i.header.scriptStart = left.length := by
    rw [hlength, h.script, codeStart]
    omega
  have hlies : script <+: (i.injected front p back script).bytes.drop left.length := by
    rw [Workspace.bytes_eq_codeFront hpieces, List.append_assoc, List.drop_left]
    exact ((List.prefix_append _ _).trans (List.prefix_append _ _) : script <+: padded script ++ _)
  rw [hstart] at hassemble
  obtain ⟨events, hrun, hstatements⟩ := Assembly.run_of_assemble hparse hread hassemble hlies
  have hreach : (left.length : Int) < Stream.offsetLimit := by
    rw [hlength]
    exact hinjectable.reachable
  refine ⟨_, Container.transcribe_eq_of_run hstart hreach hrun, rfl, ?_⟩
  show (Machine.statements events).map Statement.render = _
  rw [hstatements]
  simp [Statement.canonical]

namespace Workspace

/-- Encoded lines have been assembled for the place of the script. -/
theorem of_encode {settings : Settings} {lines : List Text} {script : List UInt8} {w w' : Workspace}
    (h : encode settings lines w = .ok script w') :
    Assembly.assemble settings (codeStart w.container.header.scriptStart) lines = .ok script ∧
      w'.container = w.container := by
  obtain ⟨⟨statements, size⟩, w₁, hmeasure, hemit⟩ := Attempt.bind_eq_ok.1 h
  obtain ⟨hmeasured, rfl⟩ := Attempt.ofExcept_eq_ok_iff.1 hmeasure
  obtain ⟨_, w₂, hreport, hemit⟩ := Attempt.bind_eq_ok.1 hemit
  cases hreport
  obtain ⟨_, w₃, hget, hemit⟩ := Attempt.bind_eq_ok.1 hemit
  cases hget
  obtain ⟨assembly, w₄, hemit, hresult⟩ := Attempt.bind_eq_ok.1 hemit
  obtain ⟨hemitted, rfl⟩ := Attempt.ofExcept_eq_ok_iff.1 hemit
  cases hresult
  exact ⟨except_bind_eq_ok_iff.2 ⟨_, hmeasured, except_bind_eq_ok_iff.2 ⟨_, hemitted, rfl⟩⟩, rfl⟩

/-- **Injected lines are what the container says from then on**, and it stays sound. -/
theorem transcribe_of_inject {settings : Settings} {lines : List Text} {body rest : List Statement} {v change : Int}
    {w w' : Workspace} (hsound : w.container.Sound)
    (hparse : Statement.parseLines lines = .ok (body ++ .exit v :: rest))
    (hread : ∀ st ∈ body, st.Readable settings)
    (hinject : (do inject (← encode settings lines) : Editing Int) w = .ok change w') :
    w'.container.Sound ∧ ∃ t, w'.container.transcribe settings = .ok t ∧ t.failure = none ∧
      t.lines = (body ++ [Statement.exit v]).map fun st => st.canonical.render := by
  obtain ⟨script, w₁, hencode, hinject⟩ := Attempt.bind_eq_ok.1 hinject
  obtain ⟨hassemble, hw₁⟩ := of_encode hencode
  rw [← hw₁] at hsound hassemble
  obtain ⟨i, front, p, back, hcontainer, hscripted⟩ := Container.exists_scripted hsound.spelled hsound.documented
  obtain ⟨hinjectable, -, hw'⟩ := hscripted.of_inject hcontainer.symm hinject
  rw [← hcontainer] at hassemble
  refine ⟨(sound_of_inject hsound hinject).1, ?_⟩
  rw [hw']
  exact hscripted.transcribe_injected hinjectable hparse hread hassemble

end Workspace

/-! ## Lines in a file -/

namespace Session

variable {s s' : Session} {p : Path}

theorem of_requireStoryboard {u : Unit} (h : requireStoryboard p s = .ok u s') :
    s.files.isFile p = .ok true ∧ s' = s := by
  obtain ⟨_, s₀, hget, hask⟩ := Attempt.bind_eq_ok.1 h
  cases hget
  obtain ⟨there, s₁, hask, hcheck⟩ := Attempt.bind_eq_ok.1 hask
  obtain ⟨hthere, rfl⟩ := Attempt.ofExcept_eq_ok_iff.1 hask
  cases there with
  | true =>
    cases hcheck
    exact ⟨hthere, rfl⟩
  | false => contradiction

theorem of_readFile {bytes : List UInt8} (h : readFile p s = .ok bytes s') :
    s.files.read p = .ok bytes ∧ s' = s :=
  Attempt.ofExcept_eq_ok_iff.1 h

theorem of_onContainer {α : Type} {work : Workspace.Editing α} {a : α} {c : Container}
    (h : onContainer work s = .ok (a, c) s') :
    ∃ w, work { notices := s.notices } = .ok a w ∧ c = w.container ∧ s' = { s with notices := w.notices } := by
  unfold onContainer at h
  split at h
  · next a' w hwork =>
    cases h
    exact ⟨w, hwork, rfl, rfl⟩
  · contradiction

/-- Work that changes the files as a whole. -/
theorem of_changeFiles (change : FileSystem → Except Error FileSystem) {u : Unit}
    (h : (do
      let files ← Attempt.ofExcept (change (← get).files)
      modify fun s => { s with files } : Working Unit) s = .ok u s') : change s.files = .ok s'.files := by
  obtain ⟨_, s₀, hget, hfiles⟩ := Attempt.bind_eq_ok.1 h
  cases hget
  obtain ⟨files, s₁, hfiles, hstate⟩ := Attempt.bind_eq_ok.1 hfiles
  obtain ⟨hchange, rfl⟩ := Attempt.ofExcept_eq_ok_iff.1 hfiles
  cases hstate
  exact hchange

theorem of_writeFile {bytes : List UInt8} {u : Unit} (h : writeFile p bytes s = .ok u s') :
    s.files.write p bytes = .ok s'.files := of_changeFiles (·.write p bytes) h

theorem of_saveStoryboard {bytes : List UInt8} {u : Unit} (h : saveStoryboard p bytes s = .ok u s') :
    s.files.replace p bytes = .ok s'.files := of_changeFiles (·.replace p bytes) h

theorem forM_report {α : Type} (n : α → Notice) (as : List α) (s : Session) :
    as.forM (fun a => report (n a)) s = .ok () { s with notices := s.notices ++ as.map n } := by
  induction as generalizing s with
  | nil => simp [pure, EStateM.pure]
  | cons a as ih =>
    refine (ih { s with notices := s.notices ++ [n a] }).trans ?_
    simp

/-- A storyboard that has been changed was a file that could be loaded, and its container as the work has left
it is what replaces the file. -/
theorem of_changeStoryboard {α : Type} {work : Workspace.Editing α} {a : α}
    (h : changeStoryboard p work s = .ok a s') :
    s.files.isFile p = .ok true ∧ ∃ bytes w w', s.files.read p = .ok bytes ∧
      Workspace.load bytes { notices := s.notices } = .ok () w ∧ work w = .ok a w' ∧
      s.files.replace p w'.container.bytes = .ok s'.files := by
  obtain ⟨_, s₁, hrequire, hread⟩ := Attempt.bind_eq_ok.1 h
  obtain ⟨hfile, rfl⟩ := of_requireStoryboard hrequire
  obtain ⟨bytes, s₂, hread, hwork⟩ := Attempt.bind_eq_ok.1 hread
  obtain ⟨hbytes, rfl⟩ := of_readFile hread
  obtain ⟨⟨a', c⟩, s₃, hwork, hsave⟩ := Attempt.bind_eq_ok.1 hwork
  obtain ⟨w', hdone, rfl, rfl⟩ := of_onContainer hwork
  obtain ⟨_, w, hload, hdone⟩ := Attempt.bind_eq_ok.1 hdone
  obtain ⟨_, s₄, hsave, hresult⟩ := Attempt.bind_eq_ok.1 hsave
  cases hresult
  have hreplace := of_saveStoryboard hsave
  exact ⟨hfile, bytes, w, w', hbytes, hload, hdone, hreplace⟩

/-- **An edit lands in the file.** Where a file holds a container of the documented layout, and lines that come
back from the machine have been injected into it, the file can be loaded, its script gives the lines up to the first
exit in their canonical form, and no other file is another one. -/
theorem transcribe_of_injectLines {settings : Settings} {bytes : List UInt8} {w₀ w : Workspace} {lines : List Text}
    {body rest : List Statement} {v change : Int} (hfile : s.files.read p = .ok bytes)
    (hload : Workspace.load bytes w₀ = .ok () w) (hdocumented : w.container.Documented)
    (hparse : Statement.parseLines lines = .ok (body ++ .exit v :: rest))
    (hread : ∀ st ∈ body, st.Readable settings) (hinject : injectLines settings p lines s = .ok change s') :
    (∃ bytes', s'.files.read p = .ok bytes' ∧ ∀ w₁, ∃ w₂ t, Workspace.load bytes' w₁ = .ok () w₂ ∧
      w₂.container.transcribe settings = .ok t ∧ t.failure = none ∧
      t.lines = (body ++ [Statement.exit v]).map fun st => st.canonical.render) ∧
    s.files.ChangesOnlyAt p s'.files := by
  obtain ⟨-, bytes', w₁, w', hfile', hload', hwork, hreplace⟩ := of_changeStoryboard hinject
  obtain rfl := Except.ok.inj (hfile.symm.trans hfile')
  have hloaded := Workspace.gives_load_iff.1 ⟨w.notices, hload⟩
  obtain ⟨notices, hagain⟩ : Workspace.Gives (Workspace.load bytes) { notices := s.notices } () w.container :=
    Workspace.gives_load_iff.2 hloaded
  rw [hagain] at hload'
  cases hload'
  have hbefore : (⟨w.container, notices⟩ : Workspace).container.Sound := ⟨hloaded.2, hdocumented⟩
  obtain ⟨hsound, hlines⟩ := Workspace.transcribe_of_inject hbefore hparse hread hwork
  refine ⟨⟨_, FileSystem.read_replace hreplace, ?_⟩, ?_⟩
  · intro w₁
    obtain ⟨t, ht⟩ := hlines
    obtain ⟨notices', hstored⟩ := Workspace.gives_load hsound.spelled w₁
    exact ⟨_, t, hstored, ht⟩
  · obtain ⟨location, hlocate, -, hfiles⟩ := FileSystem.of_replace hreplace
    rw [hfiles]
    exact FileSystem.changesOnlyAt_put hlocate _

/-- The script grows by a call with a text, and the segment behind it moves along; what stands behind the exit does
not count, and the other file stays. -/
theorem transcribe_of_injectLines_small : ∃ (s s' : Session) (p : Path) (change : Int) (bytes : List UInt8)
    (w : Workspace) (t : Transcript), s.files.read p = .ok Image.small.bytes ∧
      injectLines ⟨some "ascii", some 16⟩ p
        ["sub001(\"b\", 0x10);".toList, "exit(2);".toList, "time = 3;".toList] s = .ok change s' ∧
      s'.files.read p = .ok bytes ∧ Workspace.load bytes {} = .ok () w ∧
      w.container.transcribe ⟨some "ascii", some 16⟩ = .ok t ∧ t.failure = none ∧
      t.lines = ["sub001(\"b\", 16);".toList, "exit(2);".toList] ∧ s.files.ChangesOnlyAt p s'.files := by
  let settings : Settings := ⟨some "ascii", some 16⟩
  let p : Path := .ofText "a.stb".toList
  let s : Session := { files := { files := [(p, Image.small.bytes), (.ofText "b.stb".toList, [1])] } }
  let called : Statement := .sub 1 ["\"b\"".toList, "0x10".toList]
  let lines : List Text := ["sub001(\"b\", 0x10);".toList, "exit(2);".toList, "time = 3;".toList]
  have hfile : s.files.read p = .ok Image.small.bytes := by decide +kernel
  obtain ⟨notices, hload⟩ := Workspace.gives_load Image.spelled_small {}
  have hparse : Statement.parseLines lines = .ok ([called] ++ .exit 2 :: [.time 3]) := by decide +kernel
  have hread : ∀ st ∈ [called], st.Readable settings := by decide +kernel
  obtain ⟨change, hchange⟩ : ∃ change, Attempt.outcome (injectLines settings p lines s) = .ok change :=
    exists_eq_ok (by decide +kernel)
  obtain ⟨s', hinject⟩ := Attempt.outcome_eq_ok_iff.1 hchange
  obtain ⟨⟨bytes, hbytes, hagain⟩, hothers⟩ :=
    transcribe_of_injectLines hfile hload Image.documented_small hparse hread hinject
  obtain ⟨w, t, hloaded, htranscribe, hfailure, hlines⟩ := hagain {}
  refine ⟨s, s', p, change, bytes, w, t, hfile, hinject, hbytes, hloaded, htranscribe, hfailure, ?_, hothers⟩
  rw [hlines]
  decide +kernel

end Session
end Storyboard
