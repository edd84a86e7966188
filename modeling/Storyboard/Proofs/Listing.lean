/-
What assembling emits: the instructions of statements, one listing for all of them, and the pool of
their texts.

The functions here are total. `ofStatements_eq_ok_iff` and `assemble_eq_ok_iff` say when assembling
succeeds, and that it gives the listing and the pool then.
-/
import Mathlib.Algebra.Ring.Nat
import Storyboard.Assembly
import Storyboard.Proofs.Attempt
import Storyboard.Proofs.Stream

namespace Storyboard

/-- The bytes that spell a text in an encoding that has it. -/
def Settings.spelling (settings : Settings) (t : Text) : List UInt8 :=
  (settings.encodeText t).toOption.getD []

theorem Settings.encodeText_eq_ok_iff {settings : Settings} {t : Text} {bytes : List UInt8} :
    settings.encodeText t = .ok bytes ↔
      (∃ bytes, settings.encodeText t = .ok bytes) ∧ bytes = settings.spelling t := by
  unfold spelling
  cases settings.encodeText t <;> simp [Except.toOption, eq_comm]

/-- The bytes of the records of instructions. -/
def codeOf (is : List Instruction) : List UInt8 := is.flatMap fun i => i.toRecord.bytes

theorem codeOf_eq (is : List Instruction) :
    codeOf is = (is.map Instruction.toRecord).flatMap Record.bytes := by
  simp [codeOf, List.flatMap_map]

@[simp] theorem codeOf_append (is is' : List Instruction) : codeOf (is ++ is') = codeOf is ++ codeOf is' :=
  List.flatMap_append

@[simp] theorem length_codeOf (is : List Instruction) : (codeOf is).length = recordSize * is.length := by
  rw [codeOf_eq, Record.length_flatMap_bytes, List.length_map]

namespace Literal

/-- The literal can be stored: a fraction in four bytes, a text in the encoding. -/
def Storable (settings : Settings) : Literal → Prop
  | int _ _ => True
  | float x _ => x.narrow?.isSome = true
  | text t => ∃ bytes, settings.encodeText t = .ok bytes

/-- The bits of a fraction in four bytes. -/
def floatBits (x : Number.Double) : Int := (x.convert .single).toWord

/-- What pushes a literal; a text is at the operand `place`. -/
def instructions (place : Int) : Literal → List Instruction
  | int v marked => .pushInt v :: Assembly.ofMark marked
  | float x marked => .pushFloat (floatBits x) :: Assembly.ofMark marked
  | text _ => [.pushText place]

/-- The part of a literal in the pool: the bytes of a text, and a zero behind them. -/
def pool (settings : Settings) : Literal → List UInt8
  | text t => settings.spelling t ++ [0]
  | _ => []

theorem floatOperand_eq_ok_iff {x : Number.Double} {v : Int} :
    floatOperand x = .ok v ↔ x.narrow?.isSome = true ∧ v = floatBits x := by
  unfold floatOperand floatBits Number.Binary.narrow?
  dsimp only
  split
  · next h =>
    split at h
    · contradiction
    · next hn =>
      injection h with h
      rw [if_neg hn]
      simp [h, eq_comm]
  · next h =>
    split at h
    · next hn => simp [hn]
    · contradiction

/-- What pushes some literals, whose texts are from the operand `place` on. -/
def pushes (settings : Settings) (place : Int) : List Literal → List Instruction
  | [] => []
  | l :: ls => l.instructions place ++ pushes settings (place + (l.pool settings).length) ls

end Literal

namespace Assembly

theorem ofInstructions_eq_ok_iff {is : List Instruction} {a : Assembly} :
    ofInstructions is = .ok a ↔ (∀ i ∈ is, i.toRecord.Fits) ∧ a = ⟨codeOf is, []⟩ := by
  unfold ofInstructions
  simp only [except_bind_eq_ok_iff,
    mapM_eq_ok_iff (f := fun i : Instruction => i.toRecord.toBytes) (P := fun i => i.toRecord.Fits)
      (g := fun i => i.toRecord.bytes) fun _ _ => Record.toBytes_eq_ok_iff]
  constructor
  · rintro ⟨_, ⟨hfits, rfl⟩, h⟩
    injection h with h
    exact ⟨hfits, by rw [← h, codeOf, List.flatMap_def]⟩
  · rintro ⟨hfits, rfl⟩
    exact ⟨_, ⟨hfits, rfl⟩, by rw [codeOf, List.flatMap_def]; rfl⟩

theorem ofLiteral_eq_ok_iff {settings : Settings} {place : Int} {l : Literal} {a : Assembly} :
    ofLiteral settings place l = .ok a ↔
      l.Storable settings ∧ (∀ i ∈ l.instructions place, i.toRecord.Fits) ∧
        a = ⟨codeOf (l.instructions place), l.pool settings⟩ := by
  cases l with
  | int v marked => simp [ofLiteral, ofInstructions_eq_ok_iff, Literal.Storable, Literal.instructions, Literal.pool]
  | float x marked =>
    unfold ofLiteral
    rw [except_bind_eq_ok_iff]
    constructor
    · rintro ⟨v, hv, h⟩
      have hbits := Literal.floatOperand_eq_ok_iff.1 hv
      rw [hbits.2] at h
      exact ⟨hbits.1, ofInstructions_eq_ok_iff.1 h⟩
    · rintro ⟨hx, h⟩
      exact ⟨_, Literal.floatOperand_eq_ok_iff.2 ⟨hx, rfl⟩, ofInstructions_eq_ok_iff.2 h⟩
  | text t =>
    simp only [ofLiteral, except_bind_eq_ok_iff, ofInstructions_eq_ok_iff, Literal.Storable,
      Literal.instructions, Literal.pool]
    constructor
    · rintro ⟨_, ⟨hfits, rfl⟩, bytes, hbytes, h⟩
      injection h with h
      obtain ⟨henc, rfl⟩ := Settings.encodeText_eq_ok_iff.1 hbytes
      exact ⟨henc, hfits, h.symm⟩
    · rintro ⟨⟨bytes, henc⟩, hfits, rfl⟩
      obtain ⟨-, rfl⟩ := Settings.encodeText_eq_ok_iff.1 henc
      exact ⟨_, ⟨hfits, rfl⟩, _, henc, rfl⟩

theorem ofLiterals_eq_ok_iff {settings : Settings} {place : Int} {ls : List Literal} {a : Assembly} :
    ofLiterals settings place ls = .ok a ↔
      (∀ l ∈ ls, l.Storable settings) ∧ (∀ i ∈ Literal.pushes settings place ls, i.toRecord.Fits) ∧
        a = ⟨codeOf (Literal.pushes settings place ls), ls.flatMap (Literal.pool settings)⟩ := by
  induction ls generalizing place a with
  | nil =>
    show Except.ok {} = .ok a ↔ _
    simp [Literal.pushes, codeOf, eq_comm]
  | cons l ls ih =>
    simp only [ofLiterals, except_bind_eq_ok_iff, ofLiteral_eq_ok_iff, ih, List.forall_mem_cons,
      Literal.pushes, List.forall_mem_append, codeOf_append, List.flatMap_cons]
    constructor
    · rintro ⟨_, ⟨hl, hf, rfl⟩, _, ⟨hls, hfs, rfl⟩, h⟩
      injection h with h
      exact ⟨⟨hl, hls⟩, ⟨hf, hfs⟩, h.symm⟩
    · rintro ⟨⟨hl, hls⟩, ⟨hf, hfs⟩, rfl⟩
      exact ⟨_, ⟨hl, hf, rfl⟩, _, ⟨hls, hfs, rfl⟩, rfl⟩

end Assembly

namespace Statement

/-- The arguments of a statement as literals, where all of them are. -/
def arguments (s : Statement) : List Literal := s.literals.toOption.getD []

theorem literals_eq_ok_iff {s : Statement} {ls : List Literal} :
    s.literals = .ok ls ↔ (∃ ls, s.literals = .ok ls) ∧ ls = s.arguments := by
  unfold arguments
  cases s.literals <;> simp [Except.toOption, eq_comm]

/-- The arguments of the statement are literals that can be stored. -/
def Storable (settings : Settings) (s : Statement) : Prop :=
  (∃ ls, s.literals = .ok ls) ∧ ∀ l ∈ s.arguments, l.Storable settings

/-- What a statement becomes, its texts being from the operand `place` on. -/
def instructions (settings : Settings) (place : Int) (s : Statement) : List Instruction :=
  match s with
  | sub number _ =>
    [.pushInt descriptorMarker, .pushInt number, .pushTrue]
      ++ Literal.pushes settings place s.arguments ++ [.callSub (s.arguments.length + 1)]
  | runMacro code => [.pushCode code, .call]
  | time v => [.pushInt v, .pushCode 0, .call]
  | exit v => [.pushInt v, .exit, .finish]

/-- How many records a statement takes. -/
def recordCount (s : Statement) : Nat :=
  match s with
  | sub _ _ => 4 + (s.arguments.map literalRecords).sum
  | runMacro _ => 2
  | time _ => 3
  | exit _ => 3

/-- The part of a statement in the pool: its texts, in order. -/
def pool (settings : Settings) (s : Statement) : List UInt8 :=
  s.arguments.flatMap (Literal.pool settings)

/-- What statements become, their texts being from the operand `place` on. -/
def listing (settings : Settings) (place : Int) : List Statement → List Instruction
  | [] => []
  | s :: ss => s.instructions settings place ++ listing settings (place + (s.pool settings).length) ss

/-- How many bytes the records of statements take. -/
def codeSize (ss : List Statement) : Nat := recordSize * (ss.map recordCount).sum

theorem length_pushes (settings : Settings) (place : Int) (ls : List Literal) :
    (Literal.pushes settings place ls).length = (ls.map literalRecords).sum := by
  induction ls generalizing place with
  | nil => rfl
  | cons l ls ih =>
    have hl : (l.instructions place).length = literalRecords l := by
      cases l with
      | int v marked => cases marked <;> rfl
      | float x marked => cases marked <;> rfl
      | text t => rfl
    simp only [Literal.pushes, List.length_append, hl, ih, List.map_cons, List.sum_cons]

theorem length_instructions (settings : Settings) (place : Int) (s : Statement) :
    (s.instructions settings place).length = s.recordCount := by
  cases s with
  | sub number texts =>
    simp only [instructions, recordCount, List.length_append, List.length_cons, List.length_nil,
      length_pushes]
    omega
  | _ => rfl

theorem length_listing (settings : Settings) (place : Int) (ss : List Statement) :
    (listing settings place ss).length = (ss.map recordCount).sum := by
  induction ss generalizing place with
  | nil => rfl
  | cons s ss ih =>
    simp only [listing, List.length_append, length_instructions, ih, List.map_cons, List.sum_cons]

theorem listing_append (settings : Settings) (place : Int) (ss ss' : List Statement) :
    listing settings place (ss ++ ss') =
      listing settings place ss
        ++ listing settings (place + (ss.flatMap (pool settings)).length) ss' := by
  induction ss generalizing place with
  | nil => simp [listing]
  | cons s ss ih =>
    simp only [List.cons_append, listing, ih, List.append_assoc, List.flatMap_cons, List.length_append,
      Int.natCast_add, Int.add_assoc]

theorem length_codeOf_listing (settings : Settings) (place : Int) (ss : List Statement) :
    (codeOf (listing settings place ss)).length = codeSize ss := by
  rw [length_codeOf, length_listing, codeSize]

theorem size_eq_ok_iff {s : Statement} {n : Nat} :
    s.size = .ok n ↔ (∃ ls, s.literals = .ok ls) ∧ n = recordSize * s.recordCount := by
  cases s with
  | sub number texts =>
    simp only [size, records, recordCount, arguments]
    cases (sub number texts).literals <;>
      simp [Except.map, Except.toOption, List.sum, Nat.mul_comm, eq_comm]
  | _ => simp [size, records, recordCount, literals, Except.map, Nat.mul_comm, eq_comm]

theorem totalSize_eq_ok_iff {ss : List Statement} {n : Nat} :
    totalSize ss = .ok n ↔ (∀ s ∈ ss, ∃ ls, s.literals = .ok ls) ∧ n = codeSize ss := by
  induction ss generalizing n with
  | nil =>
    show Except.ok 0 = .ok n ↔ _
    simp [codeSize, eq_comm]
  | cons s ss ih =>
    simp only [totalSize, except_bind_eq_ok_iff, size_eq_ok_iff, ih, List.forall_mem_cons]
    constructor
    · rintro ⟨_, ⟨hs, rfl⟩, _, ⟨hss, rfl⟩, h⟩
      injection h with h
      exact ⟨⟨hs, hss⟩, by simp [← h, codeSize, Nat.mul_add]⟩
    · rintro ⟨⟨hs, hss⟩, rfl⟩
      refine ⟨_, ⟨hs, rfl⟩, _, ⟨hss, rfl⟩, ?_⟩
      show Except.ok _ = _
      simp [codeSize, Nat.mul_add]

end Statement

namespace Assembly

theorem ofStatement_eq_ok_iff {settings : Settings} {place : Int} {s : Statement} {a : Assembly} :
    ofStatement settings place s = .ok a ↔
      s.Storable settings ∧ (∀ i ∈ s.instructions settings place, i.toRecord.Fits) ∧
        a = ⟨codeOf (s.instructions settings place), s.pool settings⟩ := by
  cases s with
  | sub number texts =>
    have happend : ∀ a b : Assembly, a ++ b = ⟨a.code ++ b.code, a.pool ++ b.pool⟩ := fun _ _ => rfl
    simp only [ofStatement, except_bind_eq_ok_iff, ofInstructions_eq_ok_iff, ofLiterals_eq_ok_iff,
      Statement.Storable, Statement.instructions, Statement.pool, List.forall_mem_append, codeOf_append]
    constructor
    · rintro ⟨ls, hls, _, ⟨hhead, rfl⟩, _, ⟨hstorable, hpushes, rfl⟩, _, ⟨hcall, rfl⟩, h⟩
      injection h with h
      obtain ⟨hex, rfl⟩ := Statement.literals_eq_ok_iff.1 hls
      exact ⟨⟨hex, hstorable⟩, ⟨⟨hhead, hpushes⟩, hcall⟩, by rw [← h]; simp [happend]⟩
    · rintro ⟨⟨⟨ls, hls⟩, hstorable⟩, ⟨⟨hhead, hpushes⟩, hcall⟩, rfl⟩
      obtain ⟨-, rfl⟩ := Statement.literals_eq_ok_iff.1 hls
      refine ⟨_, hls, _, ⟨hhead, rfl⟩, _, ⟨hstorable, hpushes, rfl⟩, _, ⟨hcall, rfl⟩, ?_⟩
      show Except.ok _ = _
      simp [happend]
  | _ =>
    simp only [ofStatement, ofInstructions_eq_ok_iff, Statement.Storable, Statement.instructions,
      Statement.pool, Statement.arguments, Statement.literals, Except.toOption]
    simp

/-- **What assembling statements gives.** It succeeds exactly when all of them can be stored and all
their records' numbers fit, and gives their listing and their pool. -/
theorem ofStatements_eq_ok_iff {settings : Settings} {place : Int} {ss : List Statement} {a : Assembly} :
    ofStatements settings place ss = .ok a ↔
      (∀ s ∈ ss, s.Storable settings) ∧
        (∀ i ∈ Statement.listing settings place ss, i.toRecord.Fits) ∧
        a = ⟨codeOf (Statement.listing settings place ss), ss.flatMap (Statement.pool settings)⟩ := by
  induction ss generalizing place a with
  | nil =>
    show Except.ok {} = .ok a ↔ _
    simp [Statement.listing, codeOf, eq_comm]
  | cons s ss ih =>
    simp only [ofStatements, except_bind_eq_ok_iff, ofStatement_eq_ok_iff, ih, List.forall_mem_cons,
      Statement.listing, List.forall_mem_append, codeOf_append, List.flatMap_cons]
    constructor
    · rintro ⟨_, ⟨hs, hf, rfl⟩, _, ⟨hss, hfs, rfl⟩, h⟩
      injection h with h
      exact ⟨⟨hs, hss⟩, ⟨hf, hfs⟩, h.symm⟩
    · rintro ⟨⟨hs, hss⟩, ⟨hf, hfs⟩, rfl⟩
      exact ⟨_, ⟨hs, hf, rfl⟩, _, ⟨hss, hfs, rfl⟩, rfl⟩

/-- Where the texts of a script go, as an operand, when its first record stands at `start`. -/
def placeOf (start : Int) (ss : List Statement) : Int := start + Statement.codeSize ss - textOperandBias

theorem measure_eq_ok_iff {lines : List Text} {ss : List Statement} {size : Nat} :
    measure lines = .ok (ss, size) ↔ Statement.parseLines lines = .ok ss ∧ Statement.totalSize ss = .ok size := by
  refine ⟨fun h => ?_, fun h => ?_⟩
  · obtain ⟨ss', hparse, h⟩ := except_bind_eq_ok_iff.1 h
    obtain ⟨size', hsize, h⟩ := except_bind_eq_ok_iff.1 h
    obtain ⟨rfl, rfl⟩ := Prod.mk.inj (Except.ok.inj h)
    exact ⟨hparse, hsize⟩
  · exact except_bind_eq_ok_iff.2 ⟨ss, h.1, except_bind_eq_ok_iff.2 ⟨size, h.2, rfl⟩⟩

/-- **What emitting statements gives.** It succeeds only with the size of their records. -/
theorem emit_eq_ok_iff {settings : Settings} {start n : Int} {ss : List Statement} {a : Assembly} :
    emit settings start n ss = .ok a ↔
      (∀ s ∈ ss, s.Storable settings) ∧
        (∀ i ∈ Statement.listing settings (start + n - textOperandBias) ss, i.toRecord.Fits) ∧
        n = Statement.codeSize ss ∧
        a = ⟨codeOf (Statement.listing settings (start + n - textOperandBias) ss),
          ss.flatMap (Statement.pool settings)⟩ := by
  refine ⟨fun h => ?_, fun h => ?_⟩
  · obtain ⟨a', ha', h⟩ := except_bind_eq_ok_iff.1 h
    obtain ⟨hstorable, hfits, rfl⟩ := ofStatements_eq_ok_iff.1 ha'
    split at h
    · next hsize =>
      rw [Statement.length_codeOf_listing] at hsize
      exact ⟨hstorable, hfits, hsize.symm, (Except.ok.inj h).symm⟩
    · contradiction
  · obtain ⟨hstorable, hfits, rfl, rfl⟩ := h
    refine except_bind_eq_ok_iff.2 ⟨_, ofStatements_eq_ok_iff.2 ⟨hstorable, hfits, rfl⟩, ?_⟩
    rw [if_pos (by rw [Statement.length_codeOf_listing])]
    rfl

/-- **What assembling lines gives.** It succeeds exactly when the lines are statements that can be
stored and all their records' numbers fit, and gives the records, then the pool. -/
theorem assemble_eq_ok_iff {settings : Settings} {start : Int} {lines : List Text} {out : List UInt8} :
    assemble settings start lines = .ok out ↔
      ∃ ss, Statement.parseLines lines = .ok ss ∧ (∀ s ∈ ss, s.Storable settings) ∧
        (∀ i ∈ Statement.listing settings (placeOf start ss) ss, i.toRecord.Fits) ∧
        out = codeOf (Statement.listing settings (placeOf start ss) ss)
          ++ ss.flatMap (Statement.pool settings) := by
  refine ⟨fun h => ?_, fun h => ?_⟩
  · obtain ⟨⟨ss, size⟩, hmeasure, h⟩ := except_bind_eq_ok_iff.1 h
    obtain ⟨hparse, hsize⟩ := measure_eq_ok_iff.1 hmeasure
    obtain ⟨a, hemit, hout⟩ := except_bind_eq_ok_iff.1 h
    obtain ⟨-, rfl⟩ := Statement.totalSize_eq_ok_iff.1 hsize
    obtain ⟨hstorable, hfits, -, rfl⟩ := emit_eq_ok_iff.1 hemit
    exact ⟨ss, hparse, hstorable, hfits, (Except.ok.inj hout).symm⟩
  · obtain ⟨ss, hparse, hstorable, hfits, rfl⟩ := h
    have hsize : Statement.totalSize ss = .ok (Statement.codeSize ss) :=
      Statement.totalSize_eq_ok_iff.2 ⟨fun s hs => (hstorable s hs).1, rfl⟩
    exact except_bind_eq_ok_iff.2 ⟨(ss, Statement.codeSize ss), measure_eq_ok_iff.2 ⟨hparse, hsize⟩,
      except_bind_eq_ok_iff.2 ⟨_, emit_eq_ok_iff.2 ⟨hstorable, hfits, rfl, rfl⟩, rfl⟩⟩

end Assembly
end Storyboard
