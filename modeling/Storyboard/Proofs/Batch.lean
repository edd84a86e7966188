/-
What a batch does when files fail.

Work on a storyboard fails that file at most, and work on a text does so as well but for a few causes, with which it
`Stops` the batch (`Session.ends_processFile`). So a batch reaches every file and tells whether one of them has
failed, or it ends at a text with such a cause (`Session.run_of_folder`).
-/
import Storyboard.Proofs.Frame
import Storyboard.Proofs.Reach
import Storyboard.Proofs.Storing

namespace Storyboard.Session

variable {α : Type} {settings : Settings} {p : Path} {s : Session} {P : Error → Prop}

/-! ## Work on files -/

theorem ends_requireStoryboard :
    Attempt.Ends (fun _ t => t = s) (fun e _ => e.failsFile = true) (requireStoryboard p s) := by
  have hask : Attempt.Ends (fun _ t => t = s) (fun e _ => e.failsFile = true)
      ((Attempt.ofExcept (s.files.isFile p) : Working Bool) s) :=
    .ofExcept (fun _ _ => rfl) (FileSystem.failsOnly_isFile s.files p)
  refine .of_get (hask.bind fun there t ht => ?_)
  cases there with
  | true => exact ht
  | false => rfl

theorem ends_readFile (hp : p.ZeroFree) :
    Attempt.Ends (fun bytes t => s.files.read p = .ok bytes ∧ t = s) (fun e _ => e.failsFile = true) (readFile p s) :=
  .of_get (.ofExcept (fun _ h => ⟨h, rfl⟩) (FileSystem.failsOnly_read s.files hp))

theorem ends_readLines (hp : p.ZeroFree) :
    Attempt.Ends (fun _ t => t = s) (fun e _ => e.failsFile = true) (readLines p s) := by
  refine (ends_readFile hp).bind fun bytes t ht => ?_
  cases Encoding.Utf8.decode 0 bytes with
  | ok _ => exact ht.2
  | error fault => rfl

theorem ends_onContainer (post : α → Container → Prop) {work : Workspace.Editing α}
    (h : Attempt.Ends (fun a w => post a w.container) (fun e _ => P e) (work { notices := s.notices })) :
    Attempt.Ends (fun found t => post found.1 found.2 ∧ t.files = s.files) (fun e _ => P e) (onContainer work s) := by
  unfold onContainer
  cases hwork : work { notices := s.notices } with
  | ok a w =>
    rw [hwork] at h
    exact ⟨h, rfl⟩
  | error e w =>
    rw [hwork] at h
    exact h

/-- Storing other files in place of those that there are. -/
theorem ends_store (store : FileSystem → Except Error FileSystem) (hstore : FailsOnly P (store s.files)) :
    Attempt.Ends (fun _ _ => True) (fun e _ => P e) ((do
      let files ← Attempt.ofExcept (store (← get).files)
      modify fun s => { s with files } : Working Unit) s) := by
  have hfiles : Attempt.Ends (fun _ _ => True) (fun e _ => P e)
      ((Attempt.ofExcept (store s.files) : Working FileSystem) s) :=
    .ofExcept (fun _ _ => trivial) hstore
  exact .of_get (hfiles.bind fun _ _ _ => trivial)

theorem ends_writeFile (hp : p.ZeroFree) (bytes : List UInt8) :
    Attempt.Ends (fun _ _ => True) (fun e _ => e.failsFile = true) (writeFile p bytes s) :=
  ends_store (·.write p bytes) (FileSystem.failsOnly_write s.files hp bytes)

theorem ends_saveStoryboard (hp : p.ZeroFree) (bytes : List UInt8) :
    Attempt.Ends (fun _ _ => True) (fun e _ => e.failsFile = true) (saveStoryboard p bytes s) :=
  ends_store (·.replace p bytes) (FileSystem.failsOnly_replace s.files hp bytes)

/-- **Decoding a file** fails only because of it and what is beside it. -/
theorem ends_decodeFile (hsettings : settings.Supported) (hp : p.ZeroFree) :
    Attempt.Ends (fun _ _ => True) (fun e _ => e.failsFile = true) (decodeFile settings p s) := by
  have hload : ∀ bytes t, Attempt.Ends (fun found t' => found.2.Spelled ∧ t'.files = t.files)
      (fun e _ => e.failsFile = true) (onContainer (Workspace.load bytes) t) := by
    intro bytes t
    refine ends_onContainer (fun _ c => c.Spelled) (Workspace.ends_load.imp (fun _ _ h => h.2) fun _ _ h => ?_)
    exact Error.failsFile_of_endsDecoding (Error.endsDecoding_of_isScriptFault h)
  have hname : (p.withName (p.name ++ textSuffix)).ZeroFree := hp.withName (by simp [hp.name, textSuffix])
  refine (ends_readFile hp).bind fun bytes t _ => (hload bytes t).bind fun found t hfound => ?_
  obtain ⟨transcript, hdecode, hfaults⟩ := Container.exists_decode hsettings hfound.1.header_fits.1
  have hasked : Attempt.Ends (fun found' _ => found' = transcript) (fun e _ => e.failsFile = true)
      ((Attempt.ofExcept (found.2.decode settings) : Working Transcript) t) := by
    rw [hdecode]
    rfl
  refine hasked.bind fun found' t h => ?_
  subst h
  have hreports : Attempt.Ends (fun _ _ => True) (fun e _ => e.failsFile = true) (found'.notices.forM report t) :=
    .forM (fun _ _ _ _ => trivial) trivial
  refine hreports.bind fun _ t _ => ?_
  cases hfailure : found'.failure with
  | some e => exact Error.failsFile_of_endsDecoding (hfaults e hfailure)
  | none => exact (ends_writeFile hname _).bind fun _ _ _ => trivial

/-- **Injecting lines into a file** fails because of it and them, or with an error that they let escape. -/
theorem ends_injectLines (hsettings : settings.Supported) (hp : p.ZeroFree) (lines : List Text) :
    Attempt.Ends (fun _ _ => True)
      (fun e _ => e.failsFile = true ∨ ∃ bytes, s.files.read p = .ok bytes ∧ e.Escapes settings lines bytes)
      (injectLines settings p lines s) := by
  refine (ends_requireStoryboard.imp_fault fun _ _ h => .inl h).bind fun _ t ht => ?_
  subst ht
  refine ((ends_readFile hp).imp_fault fun _ _ h => .inl h).bind fun bytes t' hread => ?_
  obtain ⟨hread, rfl⟩ := hread
  have hinject : Attempt.Ends (fun _ _ => True)
      (fun e _ => e.failsFile = true ∨ ∃ bytes, t'.files.read p = .ok bytes ∧ e.Escapes settings lines bytes)
      (onContainer (do
        Workspace.load bytes
        Workspace.inject (← Workspace.encode settings lines)) t') := by
    have hwork := ends_onContainer (s := t') (fun _ _ => True) (Workspace.ends_injectLines hsettings lines bytes)
    exact hwork.forget.imp_fault fun _ _ h => h.imp_right fun hescapes => ⟨bytes, hread, hescapes⟩
  refine hinject.bind fun found t'' _ => ?_
  exact ((ends_saveStoryboard hp _).imp_fault fun _ _ h => .inl h).bind fun _ _ _ => trivial

/-- Why a text stops a batch: the lines that it has, or the storyboard beside it, let an error escape. -/
structure Stops (settings : Settings) (p : Path) (s : Session) (e : Error) : Prop where
  inject : task? p = some .inject
  cause : ∃ lines bytes, readLines p s = .ok lines s ∧ s.files.read p.withoutSuffix = .ok bytes ∧
    e.Escapes settings lines bytes

/-- **Injecting a text** fails because of the files, or it stops the batch. -/
theorem ends_injectFile (hsettings : settings.Supported) (hp : p.ZeroFree) (hinject : task? p = some .inject) :
    Attempt.Ends (fun _ _ => True) (fun e _ => e.failsFile = true ∨ Stops settings p s e)
      (injectFile settings p s) := by
  refine (ends_requireStoryboard.imp_fault fun _ _ h => .inl h).bind fun _ t ht => ?_
  subst ht
  refine ((ends_readLines hp).self.imp_fault fun _ _ h => .inl h).bind fun lines t' hlines => ?_
  obtain ⟨rfl, hlines⟩ := hlines
  refine ((ends_injectLines hsettings hp.withoutSuffix lines).imp_fault fun e _ h => ?_).bind fun _ _ _ => trivial
  refine h.imp_right fun hescapes => ?_
  obtain ⟨bytes, hread, hescapes⟩ := hescapes
  exact ⟨hinject, lines, bytes, hlines, hread, hescapes⟩

/-- **Working on a file** tells whether that went well, unless a text stops the batch. -/
theorem ends_processFile (hsettings : settings.Supported) (hp : p.ZeroFree) :
    Attempt.Ends (fun _ _ => True) (fun e _ => Stops settings p s e) (processFile settings p s) := by
  have hwork : Attempt.Ends (fun _ _ => True) (fun e _ => e.failsFile = true ∨ Stops settings p s e)
      (work settings p s) := by
    unfold work
    cases htask : task? p with
    | none => trivial
    | some task =>
      cases task with
      | decode => exact (ends_decodeFile hsettings hp).imp_fault fun _ _ h => .inl h
      | inject => exact ends_injectFile hsettings hp htask
  rw [processFile_eq]
  cases hresult : work settings p s with
  | ok _ s' => trivial
  | error e s' =>
    rw [hresult] at hwork
    by_cases hfails : e.failsFile = true
    · simp only [hfails, if_true]
      trivial
    · simp only [hfails]
      exact hwork.resolve_left hfails

/-! ## Batches -/

/-- Work on files in order goes on up to a text that stops it. -/
def Halts (settings : Settings) (files : List Path) (s : Session) (e : Error) (s' : Session) : Prop :=
  ∃ done p rest results t, files = done ++ p :: rest ∧ done.mapM (processFile settings) s = .ok results t ∧
    processFile settings p t = .error e s' ∧ Stops settings p t e

/-- A file on which the work goes well does not stop those behind it. -/
theorem Halts.cons {files : List Path} {s s₁ s' : Session} {e : Error} {succeeded : Bool}
    (hfirst : processFile settings p s = .ok succeeded s₁) (h : Halts settings files s₁ e s') :
    Halts settings (p :: files) s e s' := by
  obtain ⟨done, q, rest, results, t, rfl, hdone, hprocess, hstops⟩ := h
  refine ⟨p :: done, q, rest, succeeded :: results, t, rfl, ?_, hprocess, hstops⟩
  rw [List.mapM_cons]
  exact Attempt.bind_eq_ok.2 ⟨_, _, hfirst, Attempt.bind_eq_ok.2 ⟨_, _, hdone, rfl⟩⟩

theorem processAll_cons {files : List Path} {s s₁ : Session} {succeeded : Bool}
    (hfirst : processFile settings p s = .ok succeeded s₁) :
    processAll settings (p :: files) s =
      (processAll settings files >>= fun failures => pure ((if succeeded then 0 else 1) + failures)) s₁ :=
  Attempt.bind_of_ok hfirst

/-- **Working on files in order** reaches each of them and counts those that fail, unless a text stops it. -/
theorem processAll_or_halts (hsettings : settings.Supported) {files : List Path} (hfiles : ∀ p ∈ files, p.ZeroFree)
    (s : Session) :
    (∃ results s', files.mapM (processFile settings) s = .ok results s' ∧
        processAll settings files s = .ok (results.count false) s') ∨
      ∃ e s', Halts settings files s e s' ∧ processAll settings files s = .error e s' := by
  induction files generalizing s with
  | nil => exact .inl ⟨[], s, rfl, rfl⟩
  | cons p files ih =>
    obtain ⟨hp, hfiles⟩ := List.forall_mem_cons.1 hfiles
    have hends := ends_processFile (s := s) hsettings hp
    cases hfirst : processFile settings p s with
    | error e s' =>
      rw [hfirst] at hends
      exact .inr ⟨e, s', ⟨[], p, files, [], s, rfl, rfl, hfirst, hends⟩, Attempt.bind_of_error hfirst⟩
    | ok succeeded s₁ =>
      rw [processAll_cons hfirst]
      cases ih hfiles s₁ with
      | inl h =>
        obtain ⟨results, s', hresults, hall⟩ := h
        refine .inl ⟨succeeded :: results, s', ?_, Attempt.bind_eq_ok.2 ⟨_, _, hall, ?_⟩⟩
        · rw [List.mapM_cons]
          exact Attempt.bind_eq_ok.2 ⟨_, _, hfirst, Attempt.bind_eq_ok.2 ⟨_, _, hresults, rfl⟩⟩
        · cases succeeded with
          | true => simp [pure, EStateM.pure]
          | false => simp [pure, EStateM.pure, Nat.add_comm]
      | inr h =>
        obtain ⟨e, s', hhalts, hall⟩ := h
        exact .inr ⟨e, s', hhalts.cons hfirst, Attempt.bind_of_error hall⟩

/-- Those paths at which there is a storyboard or a text can be told where all paths can be looked at. -/
theorem exists_supportedAmong {files : FileSystem} {paths : List Path}
    (hpaths : ∀ p ∈ paths, ∃ there, files.isFile p = .ok there) :
    ∃ supported, supportedAmong files paths = .ok supported ∧ ∀ p ∈ supported, files.isFile p = .ok true := by
  induction paths with
  | nil => exact ⟨[], rfl, by simp⟩
  | cons p paths ih =>
    obtain ⟨⟨there, hthere⟩, hpaths⟩ := List.forall_mem_cons.1 hpaths
    obtain ⟨others, hothers, hfiles⟩ := ih hpaths
    refine ⟨if there && (task? p).isSome then p :: others else others, ?_, ?_⟩
    · exact except_bind_eq_ok_iff.2 ⟨there, hthere, except_bind_eq_ok_iff.2 ⟨others, hothers, rfl⟩⟩
    · split
      · next h =>
        rw [Bool.and_eq_true] at h
        rw [h.1] at hthere
        exact List.forall_mem_cons.2 ⟨hthere, hfiles⟩
      · exact hfiles

/-- Collecting the files of a folder reports those that are skipped. -/
theorem collectFiles_eq {supported : List Path} (hfolder : s.files.isFolder p = .ok true)
    (hsupported : supportedFiles s.files p = .ok supported) :
    collectFiles p s = .ok (some (supported.filter fun q => !isSkipped supported q)) { s with
      notices := s.notices ++ (supported.filter (isSkipped supported)).map fun q => .skipped (.ofList q.name) } := by
  refine Attempt.bind_eq_ok.2 ⟨_, s, rfl, Attempt.bind_eq_ok.2 ⟨true, s, ?_, ?_⟩⟩
  · exact Attempt.ofExcept_eq_ok_iff.2 ⟨hfolder, rfl⟩
  · refine Attempt.bind_eq_ok.2 ⟨supported, s, Attempt.ofExcept_eq_ok_iff.2 ⟨hsupported, rfl⟩, ?_⟩
    exact Attempt.bind_eq_ok.2 ⟨(), _, forM_report _ _ s, rfl⟩

/-- What a run does once the files are collected. -/
theorem run_eq {files : List Path} {s₁ : Session} (hcollect : collectFiles p s = .ok (some files) s₁) :
    run settings p s = (processAll settings files >>= fun failures =>
      if failures = 0 then pure 0 else report (.someFailed failures files.length) >>= fun _ => pure 1) s₁ :=
  Attempt.bind_of_ok hcollect

/-- **A batch goes on.** In a folder whose names can be looked at, with supported settings, every file is collected and
worked on in turn, whatever the files hold, and the exit code is 1 exactly when one of them failed and 0 otherwise.
Only a text can stop that, for one of the causes with which an error escapes. -/
theorem run_of_folder (hsettings : settings.Supported) (hfolder : s.files.isFolder p = .ok true)
    (hnames : ∀ name ∈ s.files.entryNames p, ∃ there, s.files.isFile (p.child name) = .ok there) :
    ∃ files s₁, collectFiles p s = .ok (some files) s₁ ∧
      ((∃ results s₂ s₃, files.mapM (processFile settings) s₁ = .ok results s₂ ∧
          run settings p s = .ok (if false ∈ results then 1 else 0) s₃ ∧ s₃.files = s₂.files) ∨
        ∃ e s₂, Halts settings files s₁ e s₂ ∧ run settings p s = .error e s₂) := by
  obtain ⟨supported, hsupported, hfiles⟩ := exists_supportedAmong (List.forall_mem_map.2 hnames)
  have hcollect := collectFiles_eq hfolder hsupported
  have hzero : ∀ q ∈ supported.filter fun q => !isSkipped supported q, q.ZeroFree :=
    fun q hq => FileSystem.zeroFree_of_isFile (hfiles q (List.mem_filter.1 hq).1)
  generalize (supported.filter fun q => !isSkipped supported q) = files at hcollect hzero
  refine ⟨files, _, hcollect, ?_⟩
  rw [run_eq hcollect]
  cases processAll_or_halts hsettings hzero _ with
  | inl h =>
    obtain ⟨results, s₂, hresults, hall⟩ := h
    by_cases hfailed : false ∈ results
    · have hcount : results.count false ≠ 0 := fun h => List.count_eq_zero.1 h hfailed
      refine .inl ⟨results, s₂, { s₂ with notices := s₂.notices ++ [.someFailed (results.count false) files.length] },
        hresults, Attempt.bind_eq_ok.2 ⟨_, _, hall, ?_⟩, rfl⟩
      rw [if_neg hcount, if_pos hfailed]
      rfl
    · have hcount : results.count false = 0 := List.count_eq_zero.2 hfailed
      refine .inl ⟨results, s₂, s₂, hresults, Attempt.bind_eq_ok.2 ⟨_, _, hall, ?_⟩, rfl⟩
      rw [if_pos hcount, if_neg hfailed]
      rfl
  | inr h =>
    obtain ⟨e, s₂, hhalts, hall⟩ := h
    exact .inr ⟨e, s₂, hhalts, Attempt.bind_of_error hall⟩

/-- A text without a storyboard fails, and the storyboard behind it is still decoded. -/
theorem run_of_folder_orphan : ∃ (settings : Settings) (s s₁ s₂ s₃ : Session) (p : Path) (files : List Path),
    settings.Supported ∧ s.files.isFolder p = .ok true ∧
      (∀ name ∈ s.files.entryNames p, ∃ there, s.files.isFile (p.child name) = .ok there) ∧
      collectFiles p s = .ok (some files) s₁ ∧ files.mapM (processFile settings) s₁ = .ok [false, true] s₂ ∧
      run settings p s = .ok 1 s₃ ∧ s₃.files = s₂.files := by
  let settings : Settings := ⟨some "ascii", some 16⟩
  let p : Path := .ofText "d".toList
  let text := p.child "a.stb.txt".toList
  let storyboard := p.child "b.stb".toList
  let s : Session := { files := { files := [
    (text, Encoding.Utf8.encode "exit(0);".toList),
    (storyboard, Image.small.bytes)] } }
  have hsettings : settings.Supported := ⟨⟨"ascii", .ascii, rfl, by decide +kernel⟩, rfl⟩
  have hfolder : s.files.isFolder p = .ok true := by decide +kernel
  have hentries : s.files.entryNames p = ["a.stb.txt".toList, "b.stb".toList] :=
    FileSystem.entryNames_of_locate rfl (by decide +kernel) (by decide +kernel)
  have hnames : ∀ name ∈ s.files.entryNames p, ∃ there, s.files.isFile (p.child name) = .ok there := by
    rw [hentries]
    exact List.forall_mem_cons.2 ⟨⟨true, by decide +kernel⟩, List.forall_mem_singleton.2 ⟨true, by decide +kernel⟩⟩
  have hsupported : supportedFiles s.files p = .ok [text, storyboard] := by
    unfold supportedFiles
    rw [hentries]
    decide +kernel
  have hcollect := collectFiles_eq hfolder hsupported
  have hcode : Attempt.outcome (run settings p s) = .ok 1 := by
    rw [run_eq hcollect]
    decide +kernel
  obtain ⟨files, s₁, hcollected, hends⟩ := run_of_folder hsettings hfolder hnames
  cases hends with
  | inl h =>
    obtain ⟨results, s₂, s₃, hresults, hrun, hfiles⟩ := h
    have hboth : results = [false, true] := by
      have houtcome := congrArg Attempt.outcome hresults
      cases hcollect.symm.trans hcollected
      exact Except.ok.inj (houtcome.symm.trans (by decide +kernel))
    subst hboth
    exact ⟨settings, s, s₁, s₂, s₃, p, files, hsettings, hfolder, hnames, hcollected, hresults, hrun, hfiles⟩
  | inr h =>
    obtain ⟨e, s₂, -, hrun⟩ := h
    rw [hrun] at hcode
    contradiction

/-- A text stops a batch whose storyboard says that the script starts at the last offset of all: the operand of its
first text does not fit. The storyboard behind it is not reached, and there is no exit code. -/
theorem not_run_of_folder : ∃ (settings : Settings) (s s₁ : Session) (p text storyboard : Path),
    settings.Supported ∧ s.files.isFolder p = .ok true ∧ collectFiles p s = .ok (some [text, storyboard]) s₁ ∧
      Attempt.outcome (processFile settings text s₁) = .error .wordOverflow ∧
      Attempt.outcome (run settings p s) = .error .wordOverflow := by
  let settings : Settings := ⟨some "ascii", some 16⟩
  let p : Path := .ofText "d".toList
  let full := p.child "a.stb".toList
  let text := p.child "a.stb.txt".toList
  let storyboard := p.child "b.stb".toList
  let header : Header := ⟨0x7FFFFFFF, 0, 0x14, 1⟩
  let s : Session := { files := { files := [
    (full, [0, 0, 0, 0] ++ header.bytes ++ Segment.bytes ⟨1, 0x7FFFFFFF⟩),
    (text, Encoding.Utf8.encode "sub001(\"a\");".toList),
    (storyboard, Image.small.bytes)] } }
  have hfolder : s.files.isFolder p = .ok true := by decide +kernel
  have hentries : s.files.entryNames p = ["a.stb".toList, "a.stb.txt".toList, "b.stb".toList] :=
    FileSystem.entryNames_of_locate rfl (by decide +kernel) (by decide +kernel)
  have hsupported : supportedFiles s.files p = .ok [full, text, storyboard] := by
    unfold supportedFiles
    rw [hentries]
    decide +kernel
  have hcollect := collectFiles_eq hfolder hsupported
  have hkept : [full, text, storyboard].filter (fun q => !isSkipped [full, text, storyboard] q)
      = [text, storyboard] := by
    decide +kernel
  rw [hkept] at hcollect
  have hsettings : settings.Supported := ⟨⟨"ascii", .ascii, rfl, by decide +kernel⟩, rfl⟩
  refine ⟨settings, s, _, p, text, storyboard, hsettings, hfolder, hcollect, ?_, ?_⟩
  · decide +kernel
  · rw [run_eq hcollect]
    decide +kernel

end Storyboard.Session
