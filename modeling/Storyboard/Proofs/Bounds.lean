/-
What the machine holds.

Whole numbers are read from words and codes from two bytes, so the values on the stack are bounded all along a
run (`bounded_of_steps`), and with them the numbers of the statements that it completes.
-/
import Storyboard.Proofs.Machine

namespace Storyboard

/-- A whole number fits a word, and a code two bytes. -/
def Value.Bounded : Value → Prop
  | .int32 v => Word.Fits v
  | .uint16 n => n < 0x10000
  | _ => True

/-- The numbers of a statement are bounded like the values they were popped as. -/
def Statement.Bounded : Statement → Prop
  | .sub number _ => Word.Fits number
  | .runMacro code => code < 0x10000
  | .time v => Word.Fits v
  | .exit v => Word.Fits v

namespace Stack

/-- Popping arguments leaves a part of the stack. -/
theorem suffix_of_popArguments {needed : Nat} {marked : Bool} {found shown : List Text} {s s' : Stack}
    (h : popArguments needed marked found s = .ok shown s') : s' <:+ s := by
  fun_induction popArguments needed marked found s with
  | case1 marked found s =>
    injection h with _ hs
    exact hs ▸ List.suffix_rfl
  | case2 | case4 => contradiction
  | case3 needed marked found s ih => exact (ih h).trans (List.suffix_cons _ _)
  | case5 needed marked found v s hv content hcontent ih => exact (ih h).trans (List.suffix_cons _ _)

end Stack

namespace Machine

theorem fits_of_pushInt {record : Record} {v : Int} (hr : record.Fits)
    (h : record.instruction? = some (.pushInt v)) : Word.Fits v := by
  have hoperand : v = record.operand := by
    unfold Record.instruction? at h
    grind
  rw [hoperand]
  exact hr.2.2

/-- **A step keeps the machine bounded**, and the statement that it completes is. -/
theorem bounded_of_step {texts : Int → Except Error Text} {record : Record} {position : Int} {s s' : Stack}
    {st : Option Statement} (hr : record.Fits) (hs : ∀ v ∈ s, v.Bounded)
    (h : step texts record position s = .ok st s') : (∀ v ∈ s', v.Bounded) ∧ ∀ x ∈ st, x.Bounded := by
  obtain ⟨i, hi, htakes⟩ := takes_of_step h
  have hpush : ∀ {v : Value}, v.Bounded → ∀ v' ∈ v :: s, v'.Bounded := fun hv => List.forall_mem_cons.2 ⟨hv, hs⟩
  have hdone : ∀ {x : Statement}, x.Bounded → ∀ x' ∈ some x, x'.Bounded := by
    intro x hx x' hx'
    exact Option.some.inj hx' ▸ hx
  cases htakes with
  | pushInt => exact ⟨hpush (fits_of_pushInt hr hi), by simp⟩
  | pushFloat | pushText | pushTrue | pushNull => exact ⟨hpush trivial, by simp⟩
  | @pushCode v =>
    refine ⟨hpush ?_, by simp⟩
    show (v % 0x10000).toNat < 0x10000
    omega
  | time =>
    obtain ⟨-, hs⟩ := List.forall_mem_cons.1 hs
    obtain ⟨hv, hs⟩ := List.forall_mem_cons.1 hs
    exact ⟨hs, hdone hv⟩
  | runMacro | exit =>
    obtain ⟨hv, hs⟩ := List.forall_mem_cons.1 hs
    exact ⟨hs, hdone hv⟩
  | callSub hpop =>
    obtain ⟨-, hs⟩ := List.forall_mem_cons.1 fun v hv => hs v ((Stack.suffix_of_popArguments hpop).subset hv)
    obtain ⟨hnumber, hs⟩ := List.forall_mem_cons.1 hs
    obtain ⟨-, hs⟩ := List.forall_mem_cons.1 hs
    exact ⟨hs, hdone hnumber⟩

/-- **The machine is bounded all along a run**, and so is each of its steps. -/
theorem bounded_of_steps {texts : Int → Except Error Text} {s s' : Stack} {events : List Event}
    (hsteps : Steps texts s events s') (hrecords : ∀ r ∈ records events, r.Fits) (hs : ∀ v ∈ s, v.Bounded) :
    ∀ e ∈ events, (∀ v ∈ e.stack, v.Bounded) ∧ (∀ x ∈ e.statement, x.Bounded) ∧
      ∃ position s₁, step texts e.record position e.stack = .ok e.statement s₁ := by
  induction hsteps with
  | nil => simp
  | cons hstep _ ih =>
    obtain ⟨hrecord, hrecords⟩ := List.forall_mem_cons.1 hrecords
    obtain ⟨hnext, hstatement⟩ := bounded_of_step hrecord hs hstep
    exact List.forall_mem_cons.2 ⟨⟨hs, hstatement, _, _, hstep⟩, ih hrecords hnext⟩

end Machine
end Storyboard
