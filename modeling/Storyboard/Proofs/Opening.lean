/-
The two ways to open a script: by the header that a container holds, and by the header that its bytes spell.

`Decoder.openScript_eq` says that both come to the same place where the bytes spell the header. Loading gives such a
container, and injecting keeps it one (`Workspace.opens_of_load`).
-/
import Storyboard.Proofs.Attempt
import Storyboard.Proofs.Invariant

namespace Storyboard

/-- Opening the script by the bytes is going where the container's header says. -/
theorem Decoder.openScript_eq {c : Container} (h : c.Spelled) (settings : Settings) :
    openScript (ofBytes settings c.bytes) =
      jump (codeStart c.header.scriptStart) (ofBytes settings c.bytes) := by
  have hlies : Word.toBytes c.header.scriptStart <+: c.bytes.drop headerPosition :=
    (append_prefix_iff.1 h.header_lies).1
  have hword : Stream.readWordAt headerPosition ⟨c.bytes, 0⟩ = .ok c.header.scriptStart ⟨c.bytes, 0⟩ :=
    Stream.elsewhere_eq_ok_iff.2 ⟨by decide, by decide, _,
      Stream.readWord_eq_ok_iff.2 ⟨h.header_fits.1, hlies, rfl⟩, rfl⟩
  have hread : onStream (Stream.readWordAt headerPosition) (ofBytes settings c.bytes) =
      .ok c.header.scriptStart (ofBytes settings c.bytes) := by
    simp only [onStream, Attempt.within, ofBytes, hword]
  exact Attempt.bind_of_ok hread

namespace Container

variable {c : Container}

/-- **A container opens like its bytes** when these spell its header. -/
theorem Spelled.opens (h : c.Spelled) (settings : Settings) :
    c.decode settings = Decoder.decodeBytes settings c.bytes ∧
      c.transcribe settings = Decoder.transcribeBytes settings c.bytes := by
  unfold Container.decode Container.transcribe Decoder.decodeBytes Decoder.transcribeBytes
  rw [Decoder.openScript_eq h]
  exact ⟨rfl, rfl⟩

end Container

namespace Workspace

variable {w w' : Workspace} {bytes : List UInt8}

/-- **A container and its bytes open alike**, whatever the settings: a container that was loaded and the bytes it was
loaded from, and, when it has the documented layout, also the container and its bytes after any number of scripts have
been injected. -/
theorem opens_of_load {w₀ : Workspace} (hload : load bytes w₀ = .ok () w) :
    (∀ settings, w.container.decode settings = Decoder.decodeBytes settings bytes ∧
      w.container.transcribe settings = Decoder.transcribeBytes settings bytes) ∧
    (w.container.Documented → ∀ (scripts : List (List UInt8)) (changes : List Int) (w' : Workspace),
      scripts.mapM inject w = .ok changes w' →
      ∀ settings, w'.container.decode settings = Decoder.decodeBytes settings w'.container.bytes ∧
        w'.container.transcribe settings = Decoder.transcribeBytes settings w'.container.bytes) := by
  obtain ⟨rfl, hspelled⟩ := gives_load_iff.1 ⟨w.notices, hload⟩
  refine ⟨hspelled.opens, ?_⟩
  intro hdocumented scripts changes w' hinject
  obtain ⟨hsound, -⟩ := sound_of_injects ⟨hspelled, hdocumented⟩ hinject
  exact hsound.spelled.opens

/-- A longer script is injected, and opened by the header in memory and by the moved bytes. -/
theorem opens_of_load_small :
    let code :=
      [Instruction.pushInt 1, .pushCode 0, .call, .pushInt 7, .exit, .finish].flatMap fun i => i.toRecord.bytes
    ∃ w w' t, load Image.small.bytes {} = .ok () w ∧ w.container.Documented ∧
      [code].mapM inject w = .ok [36] w' ∧ w'.container.decode {} = .ok t ∧
      Decoder.decodeBytes {} w'.container.bytes = .ok t ∧ t.lines = ["time = 1;".toList, "exit(7);".toList] := by
  intro code
  obtain ⟨notices, hload⟩ := gives_load Image.spelled_small {}
  obtain ⟨notices', hinject⟩ : Gives (inject code) ⟨Image.small.container, notices⟩ 36 _ :=
    (Image.scripted_small.gives_inject_iff rfl).2 ⟨by decide +kernel, by decide +kernel, rfl⟩
  obtain ⟨w', hw', hinjects⟩ : ∃ w', w'.container = (Image.small.injected [] .leaving [.calling] code).container ∧
      [code].mapM inject ⟨Image.small.container, notices⟩ = .ok [36] w' := by
    simp only [List.mapM_cons, List.mapM_nil]
    exact ⟨_, rfl, Attempt.bind_eq_ok.2 ⟨_, _, hinject, rfl⟩⟩
  have heval : (w'.container.decode {}).map Transcript.lines = .ok ["time = 1;".toList, "exit(7);".toList] := by
    rw [hw']
    decide +kernel
  obtain ⟨t, hdecode, hlines⟩ := except_map_eq_ok_iff.1 heval
  obtain ⟨-, hafter⟩ := opens_of_load hload
  obtain ⟨hsame, -⟩ := hafter Image.documented_small [code] [36] w' hinjects {}
  exact ⟨_, w', t, hload, Image.documented_small, hinjects, hdecode, hsame.symm.trans hdecode, hlines.symm⟩

end Workspace
end Storyboard
