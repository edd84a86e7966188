/-
What working on a file leaves as it was.

Up to its last steps, work on a file only looks at files (`Session.Looks`), and then it writes one
(`Session.Writes`). So work that fails has changed no file, and work that succeeds has changed at most the
one that it is for (`Session.frame_of_processFile`).
-/
import Storyboard.Batch
import Storyboard.Proofs.Files

namespace Storyboard.Session

variable {α β : Type} {settings : Settings} {p : Path}

/-- Work leaves the files as they are, whether it succeeds or fails. -/
def Looks (work : Working α) : Prop :=
  ∀ s, Attempt.Ends (fun _ s' => s'.files = s.files) (fun _ s' => s'.files = s.files) (work s)

/-- Work that succeeds has changed at most the file at a path, and work that fails has changed none. -/
def Writes (p : Path) (work : Working α) : Prop :=
  ∀ s, Attempt.Ends (fun _ s' => s.files.ChangesOnlyAt p s'.files) (fun _ s' => s'.files = s.files) (work s)

/-! ## Putting work together -/

theorem looks_pure (a : α) : Looks (pure a : Working α) := fun _ => rfl

theorem looks_throw (e : Error) : Looks (throw e : Working α) := fun _ => rfl

theorem looks_report (n : Notice) : Looks (report n) := fun _ => rfl

theorem looks_ofExcept (x : Except Error α) : Looks (Attempt.ofExcept x : Working α) :=
  fun _ => .ofExcept (fun _ _ => rfl) (fun _ _ => rfl)

/-- Work that asks something about the files. -/
theorem looks_ask (question : FileSystem → Except Error α) :
    Looks (do Attempt.ofExcept (question (← get).files) : Working α) :=
  fun s => looks_ofExcept (question s.files) s

theorem Looks.bind {x : Working α} {f : α → Working β} (hx : Looks x) (hf : ∀ a, Looks (f a)) : Looks (x >>= f) := by
  intro s
  refine (hx s).bind fun a t ht => ?_
  have h := hf a t
  rwa [ht] at h

theorem Looks.forM {as : List α} {f : α → Working PUnit} (hf : ∀ a, Looks (f a)) : Looks (as.forM f) := by
  intro s
  have hstep : ∀ a ∈ as, ∀ t : Session, t.files = s.files →
      Attempt.Ends (fun _ t' => t'.files = s.files) (fun _ t' => t'.files = s.files) (f a t) := by
    intro a _ t ht
    have h := hf a t
    rwa [ht] at h
  exact .forM hstep rfl

/-- What has only been looked at before makes no difference to what is written. -/
theorem Looks.bind_writes {x : Working α} {f : α → Working β} (hx : Looks x) (hf : ∀ a, Writes p (f a)) :
    Writes p (x >>= f) := by
  intro s
  refine (hx s).bind fun a t ht => ?_
  have h := hf a t
  rwa [ht] at h

/-- Behind what has been written, only a report may stand: it does not fail. -/
theorem Writes.bind_report {x : Working α} (hx : Writes p x) (n : α → Notice) :
    Writes p (x >>= fun a => report (n a)) :=
  fun s => (hx s).bind fun _ _ ht => ht

/-! ## Work on files -/

theorem looks_requireStoryboard : Looks (requireStoryboard p) := by
  have hcheck : ∀ there : Bool,
      Looks (if !there then throw (.companionMissing p.display) else pure () : Working Unit) := by
    intro there
    cases there with
    | true => exact looks_pure ()
    | false => exact looks_throw _
  exact (looks_ask (·.isFile p)).bind hcheck

theorem looks_readFile : Looks (readFile p) := looks_ask (·.read p)

theorem looks_onContainer (work : Workspace.Editing α) : Looks (onContainer work) := by
  intro s
  unfold onContainer
  cases work { notices := s.notices } with
  | ok a w => rfl
  | error e w => rfl

theorem looks_readLines : Looks (readLines p) := by
  refine looks_readFile.bind fun bytes => ?_
  cases Encoding.Utf8.decode 0 bytes with
  | ok t => exact looks_pure _
  | error fault => exact looks_throw _

/-- Storing other files in place of those that there are. -/
theorem writes_store {store : FileSystem → Except Error FileSystem}
    (hstore : ∀ fs fs', store fs = .ok fs' → fs.ChangesOnlyAt p fs') :
    Writes p (do
      let files ← Attempt.ofExcept (store (← get).files)
      modify fun s => { s with files } : Working Unit) := by
  intro s
  have hfiles : Attempt.Ends (fun files t => t = s ∧ store s.files = .ok files) (fun _ t => t = s)
      ((Attempt.ofExcept (store s.files) : Working FileSystem) s) :=
    .ofExcept (fun _ h => ⟨rfl, h⟩) (fun _ _ => rfl)
  have hdone := hfiles.imp (fun _ _ h => h) (fun _ t (ht : t = s) => congrArg files ht)
  refine hdone.bind fun files t h => ?_
  exact hstore _ _ h.2

theorem writes_writeFile (bytes : List UInt8) : Writes p (writeFile p bytes) := by
  have hwrite : ∀ fs fs' : FileSystem, fs.write p bytes = .ok fs' → fs.ChangesOnlyAt p fs' := by
    intro fs fs' h
    obtain ⟨location, hlocate, -, rfl⟩ := FileSystem.of_write h
    exact FileSystem.changesOnlyAt_put hlocate bytes
  exact writes_store hwrite

theorem writes_saveStoryboard (bytes : List UInt8) : Writes p (saveStoryboard p bytes) := by
  have hreplace : ∀ fs fs' : FileSystem, fs.replace p bytes = .ok fs' → fs.ChangesOnlyAt p fs' := by
    intro fs fs' h
    obtain ⟨location, hlocate, -, rfl⟩ := FileSystem.of_replace h
    exact FileSystem.changesOnlyAt_put hlocate bytes
  exact writes_store hreplace

/-- **Changing a storyboard** writes it and nothing else, and only when all of the work has succeeded. -/
theorem writes_changeStoryboard (work : Workspace.Editing α) : Writes p (changeStoryboard p work) := by
  refine looks_requireStoryboard.bind_writes fun _ => looks_readFile.bind_writes fun bytes => ?_
  refine (looks_onContainer _).bind_writes fun result => ?_
  exact fun s => (writes_saveStoryboard result.2.bytes s).bind fun _ _ h => h

/-- **Decoding a storyboard** writes the text beside it and nothing else. -/
theorem writes_decodeFile : Writes (p.withName (p.name ++ textSuffix)) (decodeFile settings p) := by
  refine looks_readFile.bind_writes fun bytes => (looks_onContainer _).bind_writes fun result => ?_
  refine (looks_ofExcept _).bind_writes fun transcript => ?_
  refine (Looks.forM looks_report).bind_writes fun _ => ?_
  cases transcript.failure with
  | some e => exact fun _ => rfl
  | none => exact (writes_writeFile _).bind_report _

/-- **Injecting a text** writes the storyboard that it is for and nothing else. -/
theorem writes_injectFile : Writes p.withoutSuffix (injectFile settings p) := by
  refine looks_requireStoryboard.bind_writes fun _ => looks_readLines.bind_writes fun lines => ?_
  exact (writes_changeStoryboard _).bind_report _

/-- The work that the suffix of a path asks for. -/
def work (settings : Settings) (p : Path) : Working Unit :=
  match task? p with
  | some .decode => decodeFile settings p
  | some .inject => injectFile settings p
  | none => pure ()

/-- Working on a file reports a failure that lies in the file, and goes on with any other one. -/
theorem processFile_eq (settings : Settings) (p : Path) (s : Session) :
    processFile settings p s =
      match work settings p s with
      | .ok _ s' => .ok true s'
      | .error e s' =>
        if e.failsFile then .ok false { s' with notices := s'.notices ++ [.failed p.display e] }
        else .error e s' := rfl

/-- **Working on a file is all or nothing.** When it fails, whether that is reported or stops the whole run, all files
are as they were. When it succeeds, a storyboard may have changed the text beside it, a text the
storyboard beside it, and any other file nothing. -/
theorem frame_of_processFile (settings : Settings) (p : Path) (s : Session) :
    match processFile settings p s with
    | .ok true s' =>
      match task? p with
      | some .decode => s.files.ChangesOnlyAt (p.withName (p.name ++ textSuffix)) s'.files
      | some .inject => s.files.ChangesOnlyAt p.withoutSuffix s'.files
      | none => s'.files = s.files
    | .ok false s' => s'.files = s.files
    | .error _ s' => s'.files = s.files := by
  have hwork : Attempt.Ends
      (fun _ s' => match task? p with
        | some .decode => s.files.ChangesOnlyAt (p.withName (p.name ++ textSuffix)) s'.files
        | some .inject => s.files.ChangesOnlyAt p.withoutSuffix s'.files
        | none => s'.files = s.files)
      (fun _ s' => s'.files = s.files) (work settings p s) := by
    unfold work
    cases task? p with
    | none => exact looks_pure () s
    | some task =>
      cases task with
      | decode => exact writes_decodeFile s
      | inject => exact writes_injectFile s
  rw [processFile_eq]
  cases hresult : work settings p s with
  | ok _ s' =>
    rw [hresult] at hwork
    exact hwork
  | error e s' =>
    rw [hresult] at hwork
    cases he : e.failsFile with
    | true =>
      simp only [he, if_true]
      exact hwork
    | false =>
      simp only [he, Bool.false_eq_true, if_false]
      exact hwork

end Storyboard.Session
