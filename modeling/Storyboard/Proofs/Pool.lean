/-
Where the texts of a script lie, and where its records look for them.

`Statement.texts` are the texts among the arguments of statements, in order. The pool is one of them behind another
(`Statement.pools_eq`), and the operands of the records that push a text are the places of the texts, one by one
(`Statement.references_listing`). So what is emitted is records of the announced size, then the pool, and each
record that pushes a text refers to where that text starts (`Assembly.layout_of_emit`).
-/
import Storyboard.Proofs.Reassembly

namespace Storyboard

/-- The operands of the records that push a text. -/
def references (rs : List Record) : List Int := (rs.filter Record.isTextReference).map Record.operand

@[simp] theorem references_append (rs rs' : List Record) :
    references (rs ++ rs') = references rs ++ references rs' := by
  simp [references]

namespace Settings

variable (settings : Settings) {ts ts' : List Text} {place : Int}

/-- What a text takes in the pool: the bytes that spell it, and a zero behind them. -/
def stored (t : Text) : List UInt8 := settings.spelling t ++ [0]

/-- Where the text of an index starts in the pool: behind all texts before it. -/
def poolOffset (ts : List Text) (k : Nat) : Nat := ((ts.take k).flatMap settings.stored).length

/-- The operands that refer to texts, when the first one is referred to by `place`. -/
def places : (place : Int) → List Text → List Int
  | _, [] => []
  | place, t :: ts => place :: places (place + (settings.stored t).length) ts

theorem places_append :
    settings.places place (ts ++ ts')
      = settings.places place ts ++ settings.places (place + (ts.flatMap settings.stored).length) ts' := by
  induction ts generalizing place with
  | nil => simp [places]
  | cons t ts ih =>
    simp only [List.cons_append, places, ih, List.flatMap_cons, List.length_append, Int.natCast_add, Int.add_assoc]

@[simp] theorem length_places : (settings.places place ts).length = ts.length := by
  induction ts generalizing place with
  | nil => rfl
  | cons t ts ih => simp [places, ih]

/-- A text is referred to by its place in the pool. -/
theorem getElem?_places {k : Nat} (hk : k < ts.length) :
    (settings.places place ts)[k]? = some (place + settings.poolOffset ts k) := by
  induction ts generalizing place k with
  | nil => contradiction
  | cons t ts ih =>
    cases k with
    | zero => simp [places, poolOffset]
    | succ k =>
      rw [places, List.getElem?_cons_succ, ih (Nat.lt_of_succ_lt_succ hk)]
      simp only [poolOffset, List.take_succ_cons, List.flatMap_cons, List.length_append, Int.natCast_add,
        Int.add_assoc]

/-- What holds of the operands that refer to texts holds of the place of each text. -/
theorem forall_mem_places_iff {P : Int → Prop} :
    (∀ v ∈ settings.places place ts, P v) ↔ ∀ k < ts.length, P (place + settings.poolOffset ts k) := by
  refine ⟨fun h k hk => h _ (List.mem_of_getElem? (getElem?_places settings hk)), fun h v hv => ?_⟩
  obtain ⟨k, hk, rfl⟩ := List.getElem_of_mem hv
  rw [length_places] at hk
  have hplace : (settings.places place ts)[k]? = some (place + settings.poolOffset ts k) := getElem?_places settings hk
  rw [List.getElem?_eq_getElem] at hplace
  exact Option.some.inj hplace ▸ h k hk

/-- A text lies at its place in the pool. -/
theorem stored_prefix_drop {k : Nat} {t : Text} (h : ts[k]? = some t) :
    settings.stored t <+: (ts.flatMap settings.stored).drop (settings.poolOffset ts k) := by
  obtain ⟨hk, rfl⟩ := List.getElem?_eq_some_iff.1 h
  have hsplit : ts.flatMap settings.stored
      = (ts.take k).flatMap settings.stored ++ (ts.drop k).flatMap settings.stored := by
    rw [← List.flatMap_append, List.take_append_drop]
  rw [hsplit, poolOffset, List.drop_left, List.drop_eq_getElem_cons hk, List.flatMap_cons]
  exact List.prefix_append _ _

end Settings

namespace Literal

/-- The text of a literal that is one. -/
def text? : Literal → Option Text
  | text t => some t
  | _ => none

theorem text?_eq_some_iff {l : Literal} {t : Text} : l.text? = some t ↔ l = text t := by
  cases l <;> simp [text?]

variable {settings : Settings}

theorem filterMap_text?_cons (l : Literal) (ls : List Literal) :
    (l :: ls).filterMap text? = l.text?.toList ++ ls.filterMap text? := by
  cases l <;> rfl

theorem pool_eq (l : Literal) : l.pool settings = l.text?.toList.flatMap settings.stored := by
  cases l with
  | int v marked | float x marked => rfl
  | text t => exact (List.append_nil _).symm

/-- The pool of literals is their texts, one behind another. -/
theorem pools_eq (ls : List Literal) :
    ls.flatMap (pool settings) = (ls.filterMap text?).flatMap settings.stored := by
  induction ls with
  | nil => rfl
  | cons l ls ih => rw [filterMap_text?_cons, List.flatMap_cons, List.flatMap_append, ih, pool_eq]

theorem references_instructions (settings : Settings) (place : Int) (l : Literal) :
    references (recordsOf (l.instructions place)) = settings.places place l.text?.toList := by
  cases l with
  | int v marked | float x marked => cases marked <;> rfl
  | text t => rfl

/-- Literals refer to their texts. -/
theorem references_pushes (place : Int) (ls : List Literal) :
    references (recordsOf (pushes settings place ls)) = settings.places place (ls.filterMap text?) := by
  induction ls generalizing place with
  | nil => rfl
  | cons l ls ih =>
    rw [pushes, recordsOf_append, references_append, references_instructions settings, ih,
      filterMap_text?_cons, Settings.places_append, pool_eq]

end Literal

namespace Statement

/-- The texts among the arguments of statements, in order. -/
def texts (ss : List Statement) : List Text := ss.flatMap fun s => s.arguments.filterMap Literal.text?

theorem texts_cons (s : Statement) (ss : List Statement) :
    texts (s :: ss) = s.arguments.filterMap Literal.text? ++ texts ss := rfl

theorem mem_texts_iff {ss : List Statement} {t : Text} :
    t ∈ texts ss ↔ ∃ s ∈ ss, Literal.text t ∈ s.arguments := by
  simp only [texts, List.mem_flatMap, List.mem_filterMap, Literal.text?_eq_some_iff, exists_eq_right]

variable {settings : Settings}

/-- **The pool of statements is their texts, one behind another.** -/
theorem pools_eq (ss : List Statement) : ss.flatMap (pool settings) = (texts ss).flatMap settings.stored := by
  induction ss with
  | nil => rfl
  | cons s ss ih =>
    rw [texts_cons, List.flatMap_cons, List.flatMap_append, ih, pool, Literal.pools_eq]

theorem references_instructions (place : Int) (s : Statement) :
    references (recordsOf (s.instructions settings place))
      = settings.places place (s.arguments.filterMap Literal.text?) := by
  cases s with
  | sub number args =>
    rw [instructions, recordsOf_append, recordsOf_append, references_append, references_append,
      Literal.references_pushes]
    exact List.append_nil _
  | runMacro | time | exit => rfl

/-- **The records of statements refer to their texts**, in order. -/
theorem references_listing (settings : Settings) (place : Int) (ss : List Statement) :
    references (recordsOf (listing settings place ss)) = settings.places place (texts ss) := by
  induction ss generalizing place with
  | nil => rfl
  | cons s ss ih =>
    rw [listing, recordsOf_append, references_append, references_instructions, ih, texts_cons,
      Settings.places_append, pool, Literal.pools_eq]

/-- There is a record that refers to a text for each text. -/
theorem length_filter_listing (place : Int) (ss : List Statement) :
    ((recordsOf (listing settings place ss)).filter Record.isTextReference).length = (texts ss).length := by
  have h := congrArg List.length (references_listing settings place ss)
  rwa [references, List.length_map, Settings.length_places] at h

/-- A record that refers to a text holds the place of that text. -/
theorem operand_of_getElem? {place : Int} {ss : List Statement} {k : Nat} {r : Record}
    (h : ((recordsOf (listing settings place ss)).filter Record.isTextReference)[k]? = some r) :
    r.operand = place + settings.poolOffset (texts ss) k := by
  obtain ⟨hk, -⟩ := List.getElem?_eq_some_iff.1 h
  rw [length_filter_listing] at hk
  have hplace := congrArg (·[k]?) (references_listing settings place ss)
  simp only [references, List.getElem?_map, h, Settings.getElem?_places settings hk] at hplace
  exact Option.some.inj hplace

end Statement

namespace Assembly

open Statement

/-- The bytes of statements: their records, then their texts. -/
theorem toBytes_listing (settings : Settings) (place : Int) (ss : List Statement) :
    toBytes ⟨codeOf (listing settings place ss), ss.flatMap (Statement.pool settings)⟩
      = (recordsOf (listing settings place ss)).flatMap Record.bytes ++ (texts ss).flatMap settings.stored := by
  rw [toBytes, codeOf_eq, pools_eq]
  rfl

theorem length_records_listing (settings : Settings) (place : Int) (ss : List Statement) :
    ((recordsOf (listing settings place ss)).flatMap Record.bytes).length = codeSize ss :=
  (congrArg List.length (codeOf_eq _)).symm.trans (length_codeOf_listing settings place ss)

/-- **What is emitted.** Emitting statements succeeds only with the size that is measured for them. It gives records of
that size, then the pool: the texts of the statements in order, each spelled in the encoding with a zero behind it.
There are as many records that push a text as there are texts, and the operand of each one is where its text starts
in what is emitted, less the bias of such operands and seen from where the script starts. -/
theorem layout_of_emit {settings : Settings} {start n : Int} {ss : List Statement} {a : Assembly}
    (h : emit settings start n ss = .ok a) :
    ∃ (size : Nat) (records : List Record),
      totalSize ss = .ok size ∧ n = size ∧
      a.toBytes = records.flatMap Record.bytes ++ (texts ss).flatMap settings.stored ∧
      (records.flatMap Record.bytes).length = size ∧ (∀ r ∈ records, r.Fits) ∧
      (∀ s ∈ ss, s.literals = .ok s.arguments) ∧
      (∀ t ∈ texts ss, settings.encodeText t = .ok (settings.spelling t)) ∧
      (records.filter Record.isTextReference).length = (texts ss).length ∧
      ∀ (k : Nat) r t, (records.filter Record.isTextReference)[k]? = some r → (texts ss)[k]? = some t →
        ∃ offset : Nat, r.operand + 0x58 - start = offset ∧ offset = size + settings.poolOffset (texts ss) k ∧
          settings.stored t <+: a.toBytes.drop offset := by
  obtain ⟨hstorable, hfits, rfl, rfl⟩ := emit_eq_ok_iff.1 h
  refine ⟨codeSize ss, _, totalSize_eq_ok_iff.2 ⟨fun s hs => (hstorable s hs).1, rfl⟩, rfl,
    toBytes_listing settings _ ss, length_records_listing settings _ ss, List.forall_mem_map.2 hfits,
    fun s hs => literals_eq_ok_iff.2 ⟨(hstorable s hs).1, rfl⟩, ?_, length_filter_listing _ ss, ?_⟩
  · intro t ht
    obtain ⟨s, hs, ht⟩ := mem_texts_iff.1 ht
    exact Settings.encodeText_eq_ok_iff.2 ⟨(hstorable s hs).2 _ ht, rfl⟩
  · intro k r t hr ht
    refine ⟨codeSize ss + settings.poolOffset (texts ss) k, ?_, rfl, ?_⟩
    · have hoperand := operand_of_getElem? hr
      simp only [textOperandBias] at hoperand
      omega
    · rw [toBytes_listing, ← List.drop_drop, List.drop_left' (length_records_listing settings _ ss)]
      exact settings.stored_prefix_drop ht

theorem layout_of_emit_accented : ∃ (settings : Settings) (ss : List Statement) (a : Assembly) (records : List Record)
    (r : Record), emit settings 0x38 132 ss = .ok a ∧
    a.toBytes = records.flatMap Record.bytes ++ [0xC3, 0xA9, 0, 0x62, 0] ∧
    (records.filter Record.isTextReference)[1]? = some r ∧ r.operand + 0x58 - 0x38 = 135 ∧
    [0x62, 0] <+: a.toBytes.drop 135 := by
  let settings : Settings := ⟨some "utf-8", some 16⟩
  let ss : List Statement := [.sub 7 ["\"é\"".toList, "-3f".toList, "\"b\"".toList], .exit 0]
  obtain ⟨a, hemit⟩ : ∃ a, emit settings 0x38 132 ss = .ok a := exists_eq_ok (by decide +kernel)
  have htexts : texts ss = [['é'], ['b']] := by decide +kernel
  have hpool : (texts ss).flatMap settings.stored = [0xC3, 0xA9, 0, 0x62, 0] := by decide +kernel
  have hoffset : settings.poolOffset (texts ss) 1 = 3 := by decide +kernel
  have hstored : settings.stored ['b'] = [0x62, 0] := by decide +kernel
  obtain ⟨size, records, -, hsize, hbytes, -, -, -, -, hcount, hplaces⟩ := layout_of_emit hemit
  obtain ⟨r, hr⟩ : ∃ r, (records.filter Record.isTextReference)[1]? = some r :=
    ⟨_, List.getElem?_eq_getElem (by rw [hcount, htexts]; decide)⟩
  obtain ⟨offset, hoperand, rfl, hlies⟩ := hplaces 1 r ['b'] hr (by rw [htexts]; rfl)
  obtain rfl : 132 = size := Int.ofNat.inj hsize
  rw [hoffset] at hoperand hlies
  exact ⟨settings, ss, a, records, r, hemit, hpool ▸ hbytes, hr, hoperand, hstored ▸ hlies⟩

end Assembly
end Storyboard
