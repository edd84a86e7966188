/-
What a call of a sub method does, whatever lies on the stack.

`Stack.Covered` is a value with nulls above it. Popping arguments finds so many covered values on top of the stack
(`Stack.popArguments_eq_ok_iff`), one of them at a time (`Stack.popArguments_succ_eq_ok_iff`), and a call succeeds
exactly where they lie right above a descriptor (`Decoder.execute_callSub_eq_ok_iff`).
-/
import Storyboard.Proofs.Machine

namespace Storyboard

namespace Value

/-- The value can be an argument: a whole number, a finite fraction or a text. -/
def Showable : Value → Prop
  | int32 _ | text _ => True
  | float32 x => x.isFinite = true
  | bool _ | null | uint16 _ => False

/-- What a value that can be an argument is shown as. -/
def shown : Value → Text
  | int32 v => Number.integer v
  | float32 x => x.fixed fractionPlaces
  | text t => '"' :: t ++ ['"']
  | bool _ | null | uint16 _ => []

theorem argument_eq_ok_iff {v : Value} {t : Text} : v.argument = .ok t ↔ v.Showable ∧ t = v.shown := by
  cases v with
  | int32 | text => simp [argument, Showable, shown, eq_comm]
  | float32 x => cases hx : x.isFinite <;> simp [argument, Showable, shown, hx, eq_comm]
  | bool | null | uint16 => simp [argument, Showable]

end Value

namespace Stack

/-- A value on a stack, and how many nulls lie right above it. -/
structure Covered where
  value : Value
  nulls : Nat
deriving DecidableEq

namespace Covered

/-- The value and the nulls, from the bottom up. -/
def cells (c : Covered) : List Value := c.value :: List.replicate c.nulls .null

/-- What the value is shown as, with a mark if there is a null above it. -/
def shown (c : Covered) : Text := if c.nulls = 0 then c.value.shown else c.value.shown ++ [Literal.mark]

theorem reverse_cells (c : Covered) : c.cells.reverse = List.replicate c.nulls .null ++ [c.value] := by
  simp [cells]

end Covered

variable {needed : Nat} {found texts : List Text} {s s' : Stack}

/-- **Popping an argument** takes away the nulls on top and the value below them, which must be one that can be
shown. It is marked if there were nulls, or had been before. -/
theorem popArguments_succ_eq_ok_iff {marked : Bool} :
    popArguments (needed + 1) marked found s = .ok texts s' ↔
      ∃ nulls v t below, s = List.replicate nulls .null ++ v :: below ∧ v.argument = .ok t ∧
        popArguments needed false ((if marked = true ∨ nulls ≠ 0 then t ++ [Literal.mark] else t) :: found) below
          = .ok texts s' := by
  induction s generalizing marked with
  | nil =>
    refine iff_of_false (fun h => by contradiction) ?_
    rintro ⟨nulls, v, t, below, h, -⟩
    cases nulls <;> contradiction
  | cons top s ih =>
    rw [popArguments]
    by_cases hnull : top = .null
    · -- A null on top marks what comes next.
      rw [if_pos hnull, ih]
      constructor
      · intro h
        obtain ⟨nulls, v, t, below, rfl, ht, hrest⟩ := h
        refine ⟨nulls + 1, v, t, below, by rw [hnull]; rfl, ht, ?_⟩
        rw [if_pos (.inl rfl)] at hrest
        rwa [if_pos (.inr (Nat.succ_ne_zero nulls))]
      · intro h
        obtain ⟨nulls, v, t, below, hstack, ht, hrest⟩ := h
        cases nulls with
        | zero =>
          obtain rfl : top = v := (List.cons.inj hstack).1
          rw [hnull] at ht
          contradiction
        | succ nulls =>
          refine ⟨nulls, v, t, below, (List.cons.inj hstack).2, ht, ?_⟩
          rw [if_pos (.inr (Nat.succ_ne_zero nulls))] at hrest
          rwa [if_pos (.inl rfl)]
    · rw [if_neg hnull]
      constructor
      · intro h
        cases ht : top.argument with
        | error e =>
          rw [ht] at h
          contradiction
        | ok t =>
          rw [ht] at h
          exact ⟨0, top, t, s, rfl, ht, by simpa using h⟩
      · intro h
        obtain ⟨nulls, v, t, below, hstack, ht, hrest⟩ := h
        cases nulls with
        | zero =>
          obtain ⟨rfl, rfl⟩ := List.cons.inj hstack
          rw [ht]
          simpa using hrest
        | succ nulls => exact absurd (List.cons.inj hstack).1 hnull

/-- **Popping arguments** finds so many covered values on top of the stack, and gives what they are shown as in the
order from the bottom up. -/
theorem popArguments_eq_ok_iff :
    popArguments needed false found s = .ok texts s' ↔
      ∃ args : List Covered, args.length = needed ∧ (∀ a ∈ args, a.value.Showable) ∧
        s.reverse = s'.reverse ++ args.flatMap Covered.cells ∧ texts = args.map Covered.shown ++ found := by
  induction needed generalizing found s with
  | zero =>
    constructor
    · intro h
      rw [popArguments] at h
      obtain ⟨htexts, hstack⟩ := EStateM.Result.ok.inj h
      exact ⟨[], rfl, by simp, by simp [hstack], htexts.symm⟩
    · intro h
      obtain ⟨args, hlength, -, hstack, rfl⟩ := h
      obtain rfl := List.eq_nil_of_length_eq_zero hlength
      rw [List.flatMap_nil, List.append_nil] at hstack
      rw [List.reverse_inj.1 hstack, popArguments]
      rfl
  | succ needed ih =>
    rw [popArguments_succ_eq_ok_iff]
    constructor
    · intro h
      obtain ⟨nulls, v, t, below, rfl, ht, hrest⟩ := h
      obtain ⟨args, hlength, hshowable, hstack, rfl⟩ := ih.1 hrest
      obtain ⟨hv, rfl⟩ := Value.argument_eq_ok_iff.1 ht
      refine ⟨args ++ [⟨v, nulls⟩], by simp [hlength], ?_, ?_, ?_⟩
      · intro a ha
        rcases List.mem_append.1 ha with ha | ha
        · exact hshowable a ha
        · rwa [List.mem_singleton.1 ha]
      · simp [hstack, Covered.cells]
      · by_cases hnulls : nulls = 0 <;> simp [Covered.shown, hnulls]
    · intro h
      obtain ⟨args, hlength, hshowable, hstack, rfl⟩ := h
      -- The last argument is the one on top.
      obtain ⟨args, a, rfl⟩ : ∃ front last, args = front ++ [last] :=
        ⟨_, _, (List.dropLast_concat_getLast (List.ne_nil_of_length_eq_add_one hlength)).symm⟩
      obtain ⟨hargs, ha⟩ := List.forall_mem_append.1 hshowable
      refine ⟨a.nulls, a.value, a.value.shown, (s'.reverse ++ args.flatMap Covered.cells).reverse, ?_,
        Value.argument_eq_ok_iff.2 ⟨ha a (List.mem_singleton_self a), rfl⟩, ih.2 ⟨args, ?_, hargs, ?_, ?_⟩⟩
      · rw [← List.reverse_reverse s, hstack]
        simp [Covered.reverse_cells]
      · simpa using hlength
      · rw [List.reverse_reverse]
      · by_cases hnulls : a.nulls = 0 <;> simp [Covered.shown, hnulls]

/-- Two nulls above a value are one mark, and a null below it is none. -/
example : popArguments 1 false [] [.null, .null, .int32 7, .null] = .ok [['7', 'f']] [.null] := rfl

end Stack

open Stack (Covered)

/-- **When a call of a sub method succeeds, and what it gives.** A record that calls with the count `n` completes a
line exactly if the stack holds, from the bottom up, a descriptor and right above it `n - 1` values that can be
shown, or none if `n` is not positive, each with any number of nulls above it. The line calls the sub method of the
descriptor with these values in this order, marked where there are nulls above them, and what lay below the
descriptor is left. -/
theorem Decoder.execute_callSub_eq_ok_iff {d d' : Decoder} {n operand position : Int} {line : Option Text} :
    (∃ st, d.execute ⟨0x15, n, operand⟩ position = .ok st d' ∧ line = st.map Statement.render) ↔
      ∃ (number : Int) (args : List Covered) (below : List Value),
        (args.length : Int) = max (n - 1) 0 ∧ (∀ a ∈ args, a.value.Showable) ∧
        d.stack.reverse
          = below ++ [.int32 0x40, .int32 number, .bool true] ++ args.flatMap Covered.cells ∧
        line = some ("sub".toList ++ Number.paddedInteger 3 number ++ "(".toList
          ++ ", ".toList.intercalate (args.map Covered.shown) ++ ");".toList) ∧
        d' = { d with stack := below.reverse } := by
  obtain ⟨settings, ⟨bytes, start⟩, s⟩ := d
  have hrecord : Record.instruction? ⟨0x15, n, operand⟩ = some (.callSub n) := rfl
  have hrender : ∀ number shown, Statement.render (.sub number shown) = "sub".toList
      ++ Number.paddedInteger 3 number ++ "(".toList ++ ", ".toList.intercalate shown ++ ");".toList := by
    intro number shown
    simp [Statement.render, Statement.subOpening, Statement.callEnding, Statement.joinArguments, Statement.separator]
  constructor
  · intro h
    obtain ⟨st, hexecute, rfl⟩ := h
    obtain ⟨s', hstep, rfl⟩ := Machine.execute_eq_ok_iff.1 hexecute
    obtain ⟨i, hi, htakes⟩ := Machine.takes_of_step hstep
    obtain rfl : Instruction.callSub n = i := Option.some.inj (hrecord.symm.trans hi)
    cases htakes with
    | @callSub _ number _ _ s' hpop =>
      obtain ⟨args, hlength, hshowable, hstack, rfl⟩ := Stack.popArguments_eq_ok_iff.1 hpop
      refine ⟨number, args, s'.reverse, by omega, hshowable, ?_, ?_, by simp⟩
      · simpa [descriptorMarker] using hstack
      · rw [List.append_nil, Option.map_some, hrender]
  · intro h
    obtain ⟨number, args, below, hlength, hshowable, hstack, rfl, rfl⟩ := h
    have hpop : Stack.popArguments (n - 1).toNat false [] s = .ok (args.map Covered.shown)
        (.bool true :: .int32 number :: .int32 descriptorMarker :: below.reverse) := by
      refine Stack.popArguments_eq_ok_iff.2 ⟨args, by omega, hshowable, ?_, (List.append_nil _).symm⟩
      simpa [descriptorMarker] using hstack
    refine ⟨some (.sub number (args.map Covered.shown)), ?_, by rw [Option.map_some, hrender]⟩
    exact Machine.execute_eq_ok_iff.2 ⟨_, Machine.step_eq_ok_iff.2 ⟨_, hrecord, .callSub hpop⟩, rfl⟩

end Storyboard
