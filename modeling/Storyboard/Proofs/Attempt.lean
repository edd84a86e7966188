/-
When work that may fail succeeds, and how it ends.

`FailsOnly` says which errors work can have, and `Attempt.Ends` what holds when work on a state has succeeded, and
what when it has failed. Work that is put together ends as its parts do, with one lemma for each way of putting it
together.
-/
import Storyboard.Attempt

namespace Storyboard

/-- Two steps succeed together exactly when both do. -/
theorem except_bind_eq_ok_iff {ε α β : Type} {x : Except ε α} {f : α → Except ε β} {b : β} :
    (x >>= f) = .ok b ↔ ∃ a, x = .ok a ∧ f a = .ok b := by
  cases x <;> simp [bind, Except.bind]

theorem except_map_eq_ok_iff {ε α β : Type} {x : Except ε α} {f : α → β} {b : β} :
    x.map f = .ok b ↔ ∃ a, x = .ok a ∧ b = f a := by
  cases x <;> simp [Except.map, eq_comm]

theorem except_mapError_eq_ok_iff {ε ε' α : Type} {x : Except ε α} {f : ε → ε'} {a : α} :
    x.mapError f = .ok a ↔ x = .ok a := by
  cases x with
  | ok b => exact ⟨fun h => congrArg Except.ok (Except.ok.inj h), fun h => congrArg Except.ok (Except.ok.inj h)⟩
  | error e => exact ⟨fun h => by contradiction, fun h => by contradiction⟩

/-- What stands behind a check succeeds when the check does not fail. -/
theorem guard_eq_ok_iff {ε α : Type} {c : Prop} [Decidable c] {e : ε} {x : Except ε α} {a : α} :
    (do
      if c then throw e
      x) = .ok a ↔ ¬c ∧ x = .ok a := by
  by_cases hc : c
  · simp only [hc, if_true, not_true, false_and, iff_false]
    intro h
    contradiction
  · simp [hc]

theorem mapM_cons_eq_ok_iff {ε α β : Type} {f : α → Except ε β} {a : α} {as : List α} {out : List β} :
    (a :: as).mapM f = .ok out ↔ ∃ b bs, f a = .ok b ∧ as.mapM f = .ok bs ∧ out = b :: bs := by
  simp only [List.mapM_cons, except_bind_eq_ok_iff]
  constructor
  · rintro ⟨b, hb, bs, hbs, h⟩
    exact ⟨b, bs, hb, hbs, (Except.ok.inj h).symm⟩
  · rintro ⟨b, bs, hb, hbs, rfl⟩
    exact ⟨b, hb, bs, hbs, rfl⟩

/-- Work on each element succeeds as a whole when it does on each. -/
theorem mapM_eq_ok_iff {ε α β : Type} {f : α → Except ε β} {P : α → Prop} {g : α → β}
    (hf : ∀ a b, f a = .ok b ↔ P a ∧ b = g a) {as : List α} {bs : List β} :
    as.mapM f = .ok bs ↔ (∀ a ∈ as, P a) ∧ bs = as.map g := by
  induction as generalizing bs with
  | nil =>
    show Except.ok [] = .ok bs ↔ _
    simp [eq_comm]
  | cons a as ih =>
    simp only [mapM_cons_eq_ok_iff, hf, ih, List.forall_mem_cons, List.map_cons]
    constructor
    · rintro ⟨_, _, ⟨ha, rfl⟩, ⟨has, rfl⟩, rfl⟩
      exact ⟨⟨ha, has⟩, rfl⟩
    · rintro ⟨⟨ha, has⟩, rfl⟩
      exact ⟨_, _, ⟨ha, rfl⟩, ⟨has, rfl⟩, rfl⟩

/-- Work on each element succeeds on each. -/
theorem exists_of_mapM_eq_ok {ε α β : Type} {f : α → Except ε β} {as : List α} {bs : List β}
    (h : as.mapM f = .ok bs) : ∀ a ∈ as, ∃ b, f a = .ok b := by
  induction as generalizing bs with
  | nil => simp
  | cons a as ih =>
    obtain ⟨b, bs, hb, hbs, -⟩ := mapM_cons_eq_ok_iff.1 h
    exact List.forall_mem_cons.2 ⟨⟨b, hb⟩, ih hbs⟩

theorem length_of_mapM {ε α β : Type} {f : α → Except ε β} {as : List α} {bs : List β}
    (h : as.mapM f = .ok bs) : bs.length = as.length := by
  induction as generalizing bs with
  | nil =>
    cases h
    rfl
  | cons a as ih =>
    obtain ⟨b, bs, -, hbs, rfl⟩ := mapM_cons_eq_ok_iff.1 h
    rw [List.length_cons, List.length_cons, ih hbs]

/-- What work on each element has given comes from one of them. -/
theorem exists_of_mem_mapM {ε α β : Type} {f : α → Except ε β} {as : List α} {bs : List β}
    (h : as.mapM f = .ok bs) : ∀ b ∈ bs, ∃ a ∈ as, f a = .ok b := by
  induction as generalizing bs with
  | nil =>
    cases h
    simp
  | cons a as ih =>
    obtain ⟨b, bs, hb, hbs, rfl⟩ := mapM_cons_eq_ok_iff.1 h
    refine List.forall_mem_cons.2 ⟨⟨a, List.mem_cons_self, hb⟩, fun b' hb' => ?_⟩
    obtain ⟨a', ha', h'⟩ := ih hbs b' hb'
    exact ⟨a', List.mem_cons_of_mem a ha', h'⟩

/-! ## Which errors there are -/

/-- Two steps fail together because the first one does, or the second one behind it. -/
theorem except_bind_eq_error_iff {ε α β : Type} {x : Except ε α} {f : α → Except ε β} {e : ε} :
    (x >>= f) = .error e ↔ x = .error e ∨ ∃ a, x = .ok a ∧ f a = .error e := by
  cases x <;> simp [bind, Except.bind]

/-- Work on each element fails at the first one where it does. -/
theorem mapM_eq_error_iff {ε α β : Type} {f : α → Except ε β} {as : List α} {e : ε} :
    as.mapM f = .error e ↔
      ∃ before a after, as = before ++ a :: after ∧ (∀ b ∈ before, ∃ c, f b = .ok c) ∧ f a = .error e := by
  induction as with
  | nil =>
    refine iff_of_false (fun h => ?_) fun h => ?_
    · contradiction
    · obtain ⟨before, a, after, hnil, -⟩ := h
      simp at hnil
  | cons a as ih =>
    simp only [List.mapM_cons, except_bind_eq_error_iff, ih]
    constructor
    · intro h
      rcases h with h | ⟨c, hc, ⟨before, a', after, rfl, hbefore, h⟩ | ⟨cs, -, h⟩⟩
      · exact ⟨[], a, as, rfl, by simp, h⟩
      · exact ⟨a :: before, a', after, rfl, List.forall_mem_cons.2 ⟨⟨c, hc⟩, hbefore⟩, h⟩
      · contradiction
    · intro h
      obtain ⟨before, a', after, heq, hbefore, h⟩ := h
      cases before with
      | nil =>
        obtain ⟨rfl, -⟩ := List.cons.inj heq
        exact .inl h
      | cons b before =>
        obtain ⟨rfl, rfl⟩ := List.cons.inj heq
        obtain ⟨⟨c, hc⟩, hbefore⟩ := List.forall_mem_cons.1 hbefore
        exact .inr ⟨c, hc, .inl ⟨before, a', after, rfl, hbefore, h⟩⟩


/-- Work fails with certain errors only, if it fails. -/
def FailsOnly {ε α : Type} (P : ε → Prop) (x : Except ε α) : Prop := ∀ e, x = .error e → P e

namespace FailsOnly

variable {ε α β : Type} {P Q : ε → Prop} {x : Except ε α}

theorem ok (a : α) : FailsOnly P (.ok a : Except ε α) := fun _ h => by contradiction

theorem error {e : ε} (he : P e) : FailsOnly P (.error e : Except ε α) := fun _ h => Except.error.inj h ▸ he

theorem imp (h : FailsOnly P x) (hPQ : ∀ e, P e → Q e) : FailsOnly Q x := fun e he => hPQ e (h e he)

theorem bind {f : α → Except ε β} (hx : FailsOnly P x) (hf : ∀ a, x = .ok a → FailsOnly P (f a)) :
    FailsOnly P (x >>= f) := by
  cases x with
  | ok a => exact hf a rfl
  | error e => exact .error (hx e rfl)

theorem map {f : α → β} (hx : FailsOnly P x) : FailsOnly P (x.map f) := by
  cases x with
  | ok a => exact .ok (f a)
  | error e => exact .error (hx e rfl)

/-- A check fails, or what stands behind it is done. -/
theorem guard {c : Prop} [Decidable c] {e : ε} (hc : c → P e) (hx : ¬c → FailsOnly P x) :
    FailsOnly P (do
      if c then throw e
      x) := by
  by_cases h : c
  · rw [if_pos h]
    exact .error (hc h)
  · rw [if_neg h]
    exact hx h

theorem mapM {f : α → Except ε β} {as : List α} (hf : ∀ a ∈ as, FailsOnly P (f a)) : FailsOnly P (as.mapM f) := by
  induction as with
  | nil => exact .ok []
  | cons a as ih =>
    obtain ⟨ha, has⟩ := List.forall_mem_cons.1 hf
    rw [List.mapM_cons]
    exact ha.bind fun _ _ => (ih has).bind fun _ _ => .ok _

theorem foldlM {f : β → α → Except ε β} (hf : ∀ b a, FailsOnly P (f b a)) (as : List α) (b : β) :
    FailsOnly P (as.foldlM f b) := by
  induction as generalizing b with
  | nil => exact .ok b
  | cons a as ih =>
    rw [List.foldlM_cons]
    exact (hf b a).bind fun b' _ => ih b'

end FailsOnly

/-- Whether work gives a certain value can be decided, whatever its errors are. -/
instance decidableEqOk {ε α : Type} [DecidableEq α] (x : Except ε α) (a : α) : Decidable (x = .ok a) :=
  match x with
  | .ok b => decidable_of_iff (b = a) (by simp)
  | .error _ => .isFalse (by simp)

theorem exists_eq_ok {ε α : Type} {x : Except ε α} (h : x.isOk = true) : ∃ a, x = .ok a := by
  cases x with
  | ok a => exact ⟨a, rfl⟩
  | error e => contradiction

namespace Attempt

variable {σ α : Type}

/-- Work that looks at nothing succeeds when its value is there. -/
theorem ofExcept_eq_ok_iff {x : Except Error α} {s s' : σ} {a : α} :
    (ofExcept x : Attempt σ α) s = .ok a s' ↔ x = .ok a ∧ s' = s := by
  cases x with
  | ok b =>
    show EStateM.Result.ok b s = .ok a s' ↔ _
    simp only [EStateM.Result.ok.injEq, Except.ok.injEq]
    exact ⟨fun h => ⟨h.1, h.2.symm⟩, fun h => ⟨h.1, h.2.symm⟩⟩
  | error e =>
    show EStateM.Result.error e s = .ok a s' ↔ _
    simp

theorem outcome_eq_ok_iff {r : EStateM.Result Error σ α} {a : α} :
    outcome r = .ok a ↔ ∃ s, r = .ok a s := by
  cases r <;> simp [outcome]

theorem bind_of_ok {β : Type} {x : Attempt σ α} {f : α → Attempt σ β} {s t : σ} {a : α} (h : x s = .ok a t) :
    (x >>= f) s = f a t := by
  show EStateM.bind x f s = f a t
  unfold EStateM.bind
  rw [h]

theorem bind_of_error {β : Type} {x : Attempt σ α} {f : α → Attempt σ β} {s t : σ} {e : Error}
    (h : x s = .error e t) : (x >>= f) s = .error e t := by
  show EStateM.bind x f s = .error e t
  unfold EStateM.bind
  rw [h]

/-- Two steps fail together when the first one does, or the second one behind it. -/
theorem bind_eq_error {β : Type} {x : Attempt σ α} {f : α → Attempt σ β} {s s' : σ} {e : Error} :
    (x >>= f) s = .error e s' ↔ x s = .error e s' ∨ ∃ a t, x s = .ok a t ∧ f a t = .error e s' := by
  show EStateM.bind x f s = _ ↔ _
  unfold EStateM.bind
  cases x s <;> simp [and_assoc]

/-! ## How work ends -/

variable {τ β : Type} {post mid post' : α → σ → Prop} {fault fault' : Error → σ → Prop} {s : σ}

/-- A result is a value and a state with `post`, or an error and a state with `fault`. -/
def Ends (post : α → σ → Prop) (fault : Error → σ → Prop) : EStateM.Result Error σ α → Prop
  | .ok a s => post a s
  | .error e s => fault e s

theorem Ends.imp {r : EStateM.Result Error σ α} (h : Ends post fault r) (hpost : ∀ a s, post a s → post' a s)
    (hfault : ∀ e s, fault e s → fault' e s) : Ends post' fault' r := by
  cases r with
  | ok a s => exact hpost a s h
  | error e s => exact hfault e s h

/-- What a result is, besides what holds of it. -/
theorem Ends.self {r : EStateM.Result Error σ α} (h : Ends post fault r) :
    Ends (fun a s => post a s ∧ r = .ok a s) fault r := by
  cases r with
  | ok a s => exact ⟨h, rfl⟩
  | error e s => exact h

/-- The errors of some work are among others. -/
theorem Ends.imp_fault {r : EStateM.Result Error σ α} (h : Ends post fault r)
    (hfault : ∀ e s, fault e s → fault' e s) : Ends post fault' r := h.imp (fun _ _ h => h) hfault

/-- Only the errors of some work are of interest. -/
theorem Ends.forget {r : EStateM.Result Error σ α} (h : Ends post fault r) : Ends (fun _ _ => True) fault r :=
  h.imp (fun _ _ _ => trivial) fun _ _ h => h

/-- What holds of errors wherever they happen holds of the error that comes out. -/
theorem Ends.failsOnly {r : EStateM.Result Error σ α} {P : Error → Prop} (h : Ends post (fun e _ => P e) r) :
    FailsOnly P (outcome r) := by
  cases r with
  | ok a s => exact .ok a
  | error e s => exact .error h

/-- Steps one after another: the second one starts where the first one has succeeded. -/
theorem Ends.bind {x : Attempt σ α} {f : α → Attempt σ β} {post : β → σ → Prop} (hx : Ends mid fault (x s))
    (hf : ∀ a t, mid a t → Ends post fault (f a t)) : Ends post fault ((x >>= f) s) := by
  show Ends post fault (EStateM.bind x f s)
  unfold EStateM.bind
  cases hresult : x s with
  | ok a t =>
    rw [hresult] at hx
    exact hf a t hx
  | error e t =>
    rw [hresult] at hx
    exact hx

theorem Ends.ofExcept {x : Except Error α} (hok : ∀ a, x = .ok a → post a s) (herror : ∀ e, x = .error e → fault e s) :
    Ends post fault ((Attempt.ofExcept x : Attempt σ α) s) := by
  cases x with
  | ok a => exact hok a rfl
  | error e => exact herror e rfl

/-- What follows a look at the state. -/
theorem Ends.of_get {work : σ → Attempt σ α} (h : Ends post fault (work s s)) :
    Ends post fault ((get >>= work : Attempt σ α) s) := h

/-- What follows a change of the state. -/
theorem Ends.of_modify {f : σ → σ} {work : PUnit → Attempt σ α} (h : Ends post fault (work () (f s))) :
    Ends post fault ((modify f >>= work : Attempt σ α) s) := h

/-- Work on each element keeps what work on any of them keeps. -/
theorem Ends.forM {as : List α} {f : α → Attempt σ PUnit} {inv : σ → Prop}
    (hf : ∀ a ∈ as, ∀ t, inv t → Ends (fun _ => inv) fault (f a t)) (hs : inv s) :
    Ends (fun _ => inv) fault (as.forM f s) := by
  induction as generalizing s with
  | nil => exact hs
  | cons a as ih =>
    obtain ⟨ha, has⟩ := List.forall_mem_cons.1 hf
    exact (ha s hs).bind fun _ t ht => ih has ht

/-- Work on a part of a state. -/
theorem Ends.within {view : σ → τ} {put : σ → τ → σ} {work : Attempt τ α}
    (h : Ends (fun a t => post a (put s t)) (fun e t => fault e (put s t)) (work (view s))) :
    Ends post fault (within view put work s) := by
  unfold Attempt.within
  cases hresult : work (view s) with
  | ok a t =>
    rw [hresult] at h
    exact h
  | error e t =>
    rw [hresult] at h
    exact h

end Attempt
end Storyboard
