/-
Lines leave the stack as they find it.

`Decoder.Completes` says what taking the records of a line comes to: none of them but the last one completes a
statement, and the machine is as it was before. `completes_of_parse` says so of every line whose texts are
found, whatever lies on the stack, except for a macro of code zero. That is a line as well, but the
machine takes it for the call of a time (`not_completes_of_parse`).
-/
import Storyboard.Proofs.RoundTrip

namespace Storyboard

namespace Decoder

/-- Takes records one after another, each read at the same position, and gives the statements that they
complete. -/
def executeAll (records : List Record) (position : Int) : Running (List (Option Statement)) :=
  records.mapM (execute · position)

/-- Records complete a statement with the last one of them, and no statement before; the machine is then as it
was. -/
def Completes (d : Decoder) (records : List Record) (st : Statement) : Prop :=
  ∀ position, executeAll records position d = .ok (List.replicate (records.length - 1) none ++ [some st]) d

end Decoder

namespace Machine

variable {settings : Settings} {bytes : List UInt8} {position : Nat} {s s' : Stack}

/-- Steps are what the decoder does with their records. -/
theorem executeAll_of_steps {events : List Event} (h : Steps (textsOf settings bytes) s events s') (origin : Int) :
    Decoder.executeAll (records events) origin ⟨settings, ⟨bytes, position⟩, s⟩
      = .ok (events.map Event.statement) ⟨settings, ⟨bytes, position⟩, s'⟩ := by
  generalize htexts : textsOf settings bytes = texts at h
  induction h with
  | nil => rfl
  | @cons s s' s'' record _ statement events hstep _ ih =>
    subst htexts
    have hfirst : Decoder.execute record origin ⟨settings, ⟨bytes, position⟩, s⟩
        = .ok statement ⟨settings, ⟨bytes, position⟩, s'⟩ := execute_eq_ok_iff.2 ⟨s', step_position hstep, rfl⟩
    unfold Decoder.executeAll at ih ⊢
    rw [records, List.map_cons, List.mapM_cons]
    exact Attempt.bind_eq_ok.2 ⟨_, _, hfirst, Attempt.bind_eq_ok.2 ⟨_, _, ih, rfl⟩⟩

/-- Events that complete no statement. -/
theorem map_statement_of_statements_eq_nil {events : List Event} (h : statements events = []) :
    events.map Event.statement = List.replicate events.length none := by
  rw [List.eq_replicate_iff]
  refine ⟨List.length_map _, ?_⟩
  intro st hst
  obtain ⟨e, he, rfl⟩ := List.mem_map.1 hst
  exact List.filterMap_eq_nil_iff.1 h e he

/-- Instructions that only push, and one that completes a statement and takes away what they pushed. -/
theorem completes_of_performs {is : List Instruction} {i : Instruction} {st : Statement}
    (hpushes : Performs (textsOf settings bytes) s is [] s')
    (hlast : step (textsOf settings bytes) i.toRecord 0 s' = .ok (some st) s) :
    Decoder.Completes ⟨settings, ⟨bytes, position⟩, s⟩ ((is ++ [i]).map Instruction.toRecord) st := by
  intro origin
  obtain ⟨events, hsteps, hrecords, hnone⟩ := hpushes
  have hall : Decoder.executeAll (records (events ++ [⟨i.toRecord, s', some st⟩])) origin
      ⟨settings, ⟨bytes, position⟩, s⟩ = _ := executeAll_of_steps (hsteps.append (.cons hlast .nil)) origin
  have hlength : events.length = is.length := by
    rw [← length_records events, hrecords, List.length_map]
  rw [records_append, hrecords, List.map_append, map_statement_of_statements_eq_nil hnone, hlength] at hall
  rw [List.map_append, List.length_append, List.length_map]
  exact hall

end Machine

/-- **Every line but one leaves the stack as it was.** A line that is read as a statement is assembled to the
records that its statement becomes. Where its fractions are finite and its texts are found in the pool, a
machine that takes these records, less the sentinel of an exit, completes the statement in its canonical form,
which has the same kind and number, with the last of them, and is then as it was, whatever its stack holds. The
exception is a macro of code zero. -/
theorem Statement.completes_of_parse {settings : Settings} {number place : Int} {line : Text} {st : Statement}
    {a : Assembly} {bytes : List UInt8} {position : Nat} (hparse : parse number line = .ok st)
    (hassemble : Assembly.ofStatement settings place st = .ok a) (hfinite : ∀ l ∈ st.arguments, l.Finite)
    (hfinds : Machine.Finds (Machine.textsOf settings bytes) settings place st.arguments)
    (hnonzero : st.NonzeroCode) (s : Stack) :
    a.code = codeOf (st.instructions settings place) ∧
      Decoder.Completes ⟨settings, ⟨bytes, position⟩, s⟩
        ((st.taken settings place).map Instruction.toRecord) st.canonical := by
  obtain ⟨hstorable, -, rfl⟩ := Assembly.ofStatement_eq_ok_iff.1 hassemble
  obtain ⟨is, i, s', htaken, hpushes, hlast⟩ :=
    Machine.exists_performs_statement (s := s) hfinds hfinite hstorable (hasCode_of_parse hparse) hnonzero
  rw [htaken]
  exact ⟨rfl, Machine.completes_of_performs hpushes hlast⟩

/-- A marked number, a text and a fraction are pushed and called for, with two values below that stay. -/
theorem Statement.completes_of_parse_call : ∃ (settings : Settings) (st : Statement) (a : Assembly)
    (bytes : List UInt8), parse 1 "sub007(-3f, \"a, b\", 1.25);".toList = .ok st ∧
      Assembly.ofStatement settings (-0x58) st = .ok a ∧
      Decoder.executeAll ((st.taken settings (-0x58)).map Instruction.toRecord) (-1)
          ⟨settings, ⟨bytes, 0⟩, [.null, .int32 7]⟩
        = .ok (List.replicate 7 none ++ [some (.sub 7 ["-3f".toList, "\"a, b\"".toList, "1.2500".toList])])
          ⟨settings, ⟨bytes, 0⟩, [.null, .int32 7]⟩ := by
  let settings : Settings := ⟨some "ascii", some 16⟩
  let bytes : List UInt8 := [97, 44, 32, 98, 0]
  obtain ⟨st, hst⟩ : ∃ st : Statement, st = .sub 7 ["-3f".toList, "\"a, b\"".toList, "1.25".toList] := ⟨_, rfl⟩
  have hparse : parse 1 "sub007(-3f, \"a, b\", 1.25);".toList = .ok st := by rw [hst]; decide +kernel
  obtain ⟨a, hassemble⟩ : ∃ a, Assembly.ofStatement settings (-0x58) st = .ok a :=
    exists_eq_ok (by rw [hst]; decide +kernel)
  have hread : st.Readable settings := by rw [hst]; decide +kernel
  have hlies : st.pool settings <+: bytes.drop (-0x58 + textOperandBias).toNat := by rw [hst]; decide +kernel
  have hcanonical : st.canonical = .sub 7 ["-3f".toList, "\"a, b\"".toList, "1.2500".toList] := by
    rw [hst]; decide +kernel
  have hlength : ((st.taken settings (-0x58)).map Instruction.toRecord).length = 8 := by rw [hst]; decide +kernel
  obtain ⟨-, hfits, -⟩ := Assembly.ofStatement_eq_ok_iff.1 hassemble
  have hfinds : Machine.Finds (Machine.textsOf settings bytes) settings (-0x58) st.arguments :=
    Machine.finds_arguments (by decide) hread hfits hlies
  have hfinite : ∀ l ∈ st.arguments, l.Finite := fun l hl => (hread.arguments l hl).finite
  have hresult : Decoder.executeAll ((st.taken settings (-0x58)).map Instruction.toRecord) (-1)
      ⟨settings, ⟨bytes, 0⟩, [.null, .int32 7]⟩ = .ok _ _ :=
    (completes_of_parse hparse hassemble hfinite hfinds hread.nonzeroCode _).2 (-1)
  rw [hcanonical, hlength] at hresult
  exact ⟨settings, st, a, bytes, hparse, hassemble, hresult⟩

/-- A macro of code zero is a line, too, but the machine takes it for a time, and the value below it for when
that is. -/
theorem Statement.not_completes_of_parse : ¬∀ (settings : Settings) (number place : Int) (line : Text)
    (st : Statement) (a : Assembly) (bytes : List UInt8) (position : Nat) (s : Stack),
    parse number line = .ok st → Assembly.ofStatement settings place st = .ok a →
    (∀ l ∈ st.arguments, l.Finite) →
    Machine.Finds (Machine.textsOf settings bytes) settings place st.arguments →
    Decoder.Completes ⟨settings, ⟨bytes, position⟩, s⟩
      ((st.taken settings place).map Instruction.toRecord) st.canonical := by
  intro h
  have hparse : parse 1 "macro(0x0000);".toList = .ok (.runMacro 0) := by decide +kernel
  obtain ⟨a, hassemble⟩ : ∃ a, Assembly.ofStatement {} 0 (.runMacro 0) = .ok a := exists_eq_ok (by decide +kernel)
  have hcompletes := h {} 1 0 _ _ a [] 0 [.int32 7] hparse hassemble (by decide +kernel) trivial (-1)
  have htime : Decoder.executeAll (((Statement.runMacro 0).taken {} 0).map Instruction.toRecord) (-1)
      ⟨{}, ⟨[], 0⟩, [.int32 7]⟩ = .ok [none, some (.time 7)] ⟨{}, ⟨[], 0⟩, []⟩ := rfl
  rw [htime] at hcompletes
  injection hcompletes with _ hmachine
  contradiction

end Storyboard
