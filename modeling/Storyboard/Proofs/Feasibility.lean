/-
When assembling succeeds, and why it fails.

All numbers of statements that have been read fit their words (`Statement.wordSized_of_parse`), so nothing but the
texts is left that could fail once statements have been measured: making their records and texts ends as `storeTexts`
does, which only stores the texts (`Assembly.map_pool_ofStatements`). That succeeds exactly when the encoding has each
text and the place of each one fits a word (`Settings.storeTexts_eq_ok_iff`), which settles assembling
(`Assembly.exists_assemble_iff`).
-/
import Storyboard.Proofs.Faults
import Storyboard.Proofs.Pool

namespace Storyboard

/-! ## Storing texts -/

/-- The error is about a number that cannot be packed, or about a size. -/
def Error.ofPacking : Error → Bool
  | wordOverflow | floatOverflow | sizeMismatch .. => true
  | _ => false

theorem Text.Misread.not_ofPacking {t : Text} {e : Error} (h : t.Misread e) : e.ofPacking = false := by
  cases h with
  | inl hfile => cases e <;> first | rfl | contradiction
  | inr hlong => rw [hlong.1]; rfl

namespace Settings

variable (settings : Settings)

/-- Stores a text that is referred to by the operand `place`. -/
def storeText (place : Int) (t : Text) : Except Error (List UInt8) := do
  if ¬Word.Fits place then throw .wordOverflow
  return (← settings.encodeText t) ++ [0]

/-- Stores texts one behind another; the first one is referred to by the operand `place`. -/
def storeTexts (place : Int) : List Text → Except Error (List UInt8)
  | [] => .ok []
  | t :: ts => do
    let bytes ← settings.storeText place t
    return bytes ++ (← storeTexts (place + bytes.length) ts)

variable {settings} {ts ts' : List Text} {place : Int}

theorem storeText_eq_ok_iff {t : Text} {bytes : List UInt8} :
    settings.storeText place t = .ok bytes ↔
      Word.Fits place ∧ (∃ bytes, settings.encodeText t = .ok bytes) ∧ bytes = settings.stored t := by
  refine guard_eq_ok_iff.trans (and_congr Decidable.not_not (except_bind_eq_ok_iff.trans ⟨fun h => ?_, fun h => ?_⟩))
  · obtain ⟨spelled, hspelled, h⟩ := h
    obtain rfl := Except.ok.inj h
    obtain ⟨hencodes, rfl⟩ := encodeText_eq_ok_iff.1 hspelled
    exact ⟨hencodes, rfl⟩
  · obtain ⟨hencodes, rfl⟩ := h
    exact ⟨_, encodeText_eq_ok_iff.2 ⟨hencodes, rfl⟩, rfl⟩

/-- **Texts can be stored** exactly when the encoding has each of them and each place fits a word. -/
theorem storeTexts_eq_ok_iff {pool : List UInt8} :
    settings.storeTexts place ts = .ok pool ↔
      (∀ v ∈ settings.places place ts, Word.Fits v) ∧ (∀ t ∈ ts, ∃ bytes, settings.encodeText t = .ok bytes) ∧
        pool = ts.flatMap settings.stored := by
  induction ts generalizing place pool with
  | nil =>
    show Except.ok [] = .ok pool ↔ _
    simp [places, eq_comm]
  | cons t ts ih =>
    simp only [storeTexts, except_bind_eq_ok_iff, storeText_eq_ok_iff, ih, places, List.forall_mem_cons,
      List.flatMap_cons]
    refine ⟨fun h => ?_, fun h => ?_⟩
    · obtain ⟨_, ⟨hplace, ht, rfl⟩, _, ⟨hplaces, hts, rfl⟩, h⟩ := h
      exact ⟨⟨hplace, hplaces⟩, ⟨ht, hts⟩, (Except.ok.inj h).symm⟩
    · obtain ⟨⟨hplace, hplaces⟩, ⟨ht, hts⟩, rfl⟩ := h
      exact ⟨_, ⟨hplace, ht, rfl⟩, _, ⟨hplaces, hts, rfl⟩, rfl⟩

theorem storeTexts_append :
    settings.storeTexts place (ts ++ ts') = (do
      let bytes ← settings.storeTexts place ts
      return bytes ++ (← settings.storeTexts (place + bytes.length) ts')) := by
  induction ts generalizing place with
  | nil =>
    show _ = (settings.storeTexts (place + (0 : Nat)) ts' >>= fun rest => pure ([] ++ rest))
    simp
  | cons t ts ih =>
    simp only [List.cons_append, storeTexts, ih, bind_assoc, pure_bind, List.append_assoc, List.length_append,
      Int.natCast_add, Int.add_assoc]

/-- The place of some text does not fit a word, though the texts before it can be spelled. -/
def Misplaced (settings : Settings) (place : Int) (ts : List Text) : Prop :=
  ∃ k < ts.length, (∀ t ∈ ts.take k, ∃ bytes, settings.encodeText t = .ok bytes) ∧
    ¬Word.Fits (place + settings.poolOffset ts k)

theorem Misplaced.head {t : Text} (h : ¬Word.Fits place) : settings.Misplaced place (t :: ts) :=
  ⟨0, Nat.succ_pos _, by simp, by simpa [poolOffset] using h⟩

theorem Misplaced.cons {t : Text} (ht : ∃ bytes, settings.encodeText t = .ok bytes)
    (h : settings.Misplaced (place + (settings.stored t).length) ts) : settings.Misplaced place (t :: ts) := by
  obtain ⟨k, hk, hbefore, hplace⟩ := h
  refine ⟨k + 1, Nat.succ_lt_succ hk, List.forall_mem_cons.2 ⟨ht, hbefore⟩, ?_⟩
  simpa only [poolOffset, List.take_succ_cons, List.flatMap_cons, List.length_append, Int.natCast_add,
    Int.add_assoc] using hplace

/-- An encoding is never looked for or used in vain because of a number. -/
theorem not_ofPacking_of_encodeText (t : Text) : FailsOnly (·.ofPacking = false) (settings.encodeText t) := by
  have hname : FailsOnly (·.ofPacking = false) settings.encodingName := by
    unfold encodingName
    split
    · exact .error rfl
    · split
      · exact .error rfl
      · exact .ok _
  have hfind : ∀ name, FailsOnly (·.ofPacking = false) (findEncoding name) := by
    intro name
    unfold findEncoding
    split
    · exact .error rfl
    · exact .ok _
  refine hname.bind fun name _ => (hfind name).bind fun e _ => ?_
  cases e.encode t with
  | ok bytes => exact .ok bytes
  | error fault => exact .error rfl

/-- A number is too large for storing texts only if it is the place of a text. -/
theorem failsOnly_storeTexts (place : Int) (ts : List Text) :
    FailsOnly (fun e => e.ofPacking = false ∨ e = .wordOverflow ∧ settings.Misplaced place ts)
      (settings.storeTexts place ts) := by
  induction ts generalizing place with
  | nil => exact .ok _
  | cons t ts ih =>
    have hhead : FailsOnly (fun e => e.ofPacking = false ∨ e = .wordOverflow ∧ settings.Misplaced place (t :: ts))
        (settings.storeText place t) := by
      refine .guard (fun h => .inr ⟨rfl, .head h⟩) fun _ => ?_
      exact ((not_ofPacking_of_encodeText t).imp fun _ h => .inl h).bind fun _ _ => .ok _
    refine hhead.bind fun bytes hbytes => ?_
    obtain ⟨-, ht, rfl⟩ := storeText_eq_ok_iff.1 hbytes
    exact ((ih _).imp fun e h => h.imp_right fun h => ⟨h.1, h.2.cons ht⟩).bind fun _ _ => .ok _

end Settings

/-! ## Numbers of the right size -/

namespace Instruction

/-- The number that an instruction has, if it has one. -/
def number : Instruction → Int
  | pushInt v | pushFloat v | pushText v | pushCode v | callSub v => v
  | finish | pushTrue | pushNull | call | exit => 0

/-- The record of an instruction can be written if its number can. -/
theorem fits_toRecord_iff {i : Instruction} : i.toRecord.Fits ↔ Word.Fits i.number := by
  cases i <;> simp [toRecord, number, Record.Fits, Word.Fits]

end Instruction

namespace Literal

/-- The number of the literal fits a word, the bits of a fraction being its number. -/
def WordSized : Literal → Prop
  | int v _ => Word.Fits v
  | float x _ => x.narrow?.isSome = true
  | text _ => True

/-- **What has been read is of the right size.** -/
theorem wordSized_of_classify {source : Text} {l : Literal} (h : classify source = .ok l) : l.WordSized := by
  cases l with
  | int v marked => exact fits_of_classify h
  | float x marked => exact isSome_narrow?_of_classify h
  | text t => trivial

end Literal

namespace Statement

/-- All numbers of the statement itself fit words. -/
def WordSized : Statement → Prop
  | sub number args => Word.Fits number ∧ Word.Fits (args.length + 1)
  | runMacro code => Word.Fits code
  | time v => Word.Fits v
  | exit v => Word.Fits v

/-- A line that has been read has numbers of the right size, except that it may have too many arguments to count. -/
theorem wordSized_of_parse {number : Int} {line : Text} {s : Statement} (h : parse number line = .ok s)
    (hcount : ∀ n args, s = .sub n args → args.length < 0x7FFFFFFF) : s.WordSized := by
  cases readFrom_of_parse h with
  | sub _ _ hlimit =>
    have hargs := hcount _ _ rfl
    simp only [subLimit] at hlimit
    simp only [WordSized, Word.Fits]
    omega
  | runMacro hcode =>
    have hlt := macroCode?_lt hcode
    simp only [WordSized, Word.Fits]
    omega
  | time _ hread => exact Literal.fits_of_readInt hread
  | exit _ hread => exact Literal.fits_of_readInt hread

end Statement

/-! ## Assembling is storing texts -/

namespace Assembly

open Settings Statement

variable {settings : Settings} {place : Int} {ts ts' : List Text}

theorem fits_ofMark (marked : Bool) : ∀ i ∈ ofMark marked, Word.Fits i.number := by
  cases marked <;> decide

theorem ofInstructions_of_fits {is : List Instruction} (h : ∀ i ∈ is, Word.Fits i.number) :
    ofInstructions is = .ok ⟨codeOf is, []⟩ :=
  ofInstructions_eq_ok_iff.2 ⟨fun i hi => Instruction.fits_toRecord_iff.2 (h i hi), rfl⟩

theorem map_pool_ofInstructions {is : List Instruction} (h : ∀ i ∈ is, Word.Fits i.number) :
    (ofInstructions is).map pool = .ok [] := by
  rw [ofInstructions_of_fits h]
  rfl

theorem ofInstructions_pushText (place : Int) :
    ofInstructions [.pushText place]
      = if Word.Fits place then .ok ⟨codeOf [.pushText place], []⟩ else .error .wordOverflow := by
  split
  · next h => exact ofInstructions_of_fits (List.forall_mem_singleton.2 h)
  · next h =>
    have hrecord : (Instruction.pushText place).toRecord.toBytes = .error .wordOverflow :=
      if_neg fun hfits => h hfits.2.2
    unfold ofInstructions
    rw [List.mapM_cons, hrecord]
    rfl

/-- What pushes a literal of the right size stores its text, if it is one. -/
theorem map_pool_ofLiteral {l : Literal} (h : l.WordSized) :
    (ofLiteral settings place l).map pool = settings.storeTexts place l.text?.toList := by
  cases l with
  | int v marked => exact map_pool_ofInstructions (List.forall_mem_cons.2 ⟨h, fits_ofMark marked⟩)
  | float x marked =>
    obtain ⟨v, hoperand, hv⟩ : ∃ v, Literal.floatOperand x = .ok v ∧ Word.Fits v :=
      ⟨_, Literal.floatOperand_eq_ok_iff.2 ⟨h, rfl⟩, Word.fits_wrap _⟩
    unfold ofLiteral
    dsimp only
    rw [hoperand]
    exact map_pool_ofInstructions (List.forall_mem_cons.2 ⟨hv, fits_ofMark marked⟩)
  | text t =>
    show (ofInstructions [.pushText place] >>= fun push => settings.encodeText t >>= fun bytes =>
      pure { push with pool := bytes ++ [0] }).map pool
        = (settings.storeText place t >>= fun bytes => pure (bytes ++ []))
    unfold storeText
    rw [ofInstructions_pushText]
    by_cases hplace : Word.Fits place
    · rw [if_pos hplace, if_neg (not_not_intro hplace)]
      cases settings.encodeText t with
      | ok bytes => exact congrArg Except.ok (List.append_nil _).symm
      | error e => rfl
    · rw [if_neg hplace, if_pos hplace]
      rfl

/-- Two steps of assembling store the texts of both. -/
theorem map_pool_bind {first : Except Error Assembly} {rest : Int → Except Error Assembly}
    (hfirst : first.map pool = settings.storeTexts place ts)
    (hrest : ∀ place, (rest place).map pool = settings.storeTexts place ts') :
    (do
      let a ← first
      return a ++ (← rest (place + a.pool.length))).map pool = settings.storeTexts place (ts ++ ts') := by
  rw [storeTexts_append, ← hfirst]
  cases first with
  | error e => rfl
  | ok a =>
    show _ = (settings.storeTexts (place + a.pool.length) ts' >>= fun bytes => pure (a.pool ++ bytes))
    rw [← hrest]
    show (rest (place + a.pool.length) >>= fun b => pure (a ++ b)).map pool = _
    cases rest (place + a.pool.length) with
    | error e => rfl
    | ok b => rfl

theorem map_pool_ofLiterals {ls : List Literal} (h : ∀ l ∈ ls, l.WordSized) :
    (ofLiterals settings place ls).map pool = settings.storeTexts place (ls.filterMap Literal.text?) := by
  induction ls generalizing place with
  | nil => rfl
  | cons l ls ih =>
    obtain ⟨hl, hls⟩ := List.forall_mem_cons.1 h
    rw [Literal.filterMap_text?_cons]
    exact map_pool_bind (map_pool_ofLiteral hl) fun _ => ih hls

theorem map_pool_ofStatement {s : Statement} (h : s.WordSized) (hliterals : ∃ ls, s.literals = .ok ls) :
    (ofStatement settings place s).map pool = settings.storeTexts place (s.arguments.filterMap Literal.text?) := by
  cases s with
  | sub number args =>
    obtain ⟨ls, hls⟩ := hliterals
    have hsized : ∀ l ∈ ls, l.WordSized := by
      intro l hl
      obtain ⟨source, -, hsource⟩ := exists_of_mem_mapM hls l hl
      exact Literal.wordSized_of_classify hsource
    have hdescriptor : ∀ i ∈ [Instruction.pushInt descriptorMarker, .pushInt number, .pushTrue], Word.Fits i.number :=
      List.forall_mem_cons.2 ⟨by decide, List.forall_mem_cons.2 ⟨h.1, by decide⟩⟩
    have hcount : ∀ i ∈ [Instruction.callSub (ls.length + 1)], Word.Fits i.number := by
      rw [length_of_mapM hls]
      exact List.forall_mem_singleton.2 h.2
    obtain ⟨-, hargs⟩ := literals_eq_ok_iff.1 hls
    rw [← hargs, ← map_pool_ofLiterals hsized]
    unfold ofStatement
    dsimp only
    rw [hls]
    show (ofInstructions [.pushInt descriptorMarker, .pushInt number, .pushTrue] >>= fun descriptor =>
      ofLiterals settings place ls >>= fun pushes =>
      ofInstructions [.callSub (ls.length + 1)] >>= fun call => pure (descriptor ++ pushes ++ call)).map pool = _
    rw [ofInstructions_of_fits hdescriptor, ofInstructions_of_fits hcount]
    cases ofLiterals settings place ls with
    | ok pushes => exact congrArg Except.ok (List.append_nil _)
    | error e => rfl
  | runMacro code => exact map_pool_ofInstructions (List.forall_mem_cons.2 ⟨h, by decide⟩)
  | time v => exact map_pool_ofInstructions (List.forall_mem_cons.2 ⟨h, by decide⟩)
  | exit v => exact map_pool_ofInstructions (List.forall_mem_cons.2 ⟨h, by decide⟩)

/-- **Making records and texts** ends as storing the texts does. -/
theorem map_pool_ofStatements {ss : List Statement} (h : ∀ s ∈ ss, s.WordSized)
    (hliterals : ∀ s ∈ ss, ∃ ls, s.literals = .ok ls) :
    (ofStatements settings place ss).map pool = settings.storeTexts place (texts ss) := by
  induction ss generalizing place with
  | nil => rfl
  | cons s ss ih =>
    obtain ⟨hs, hss⟩ := List.forall_mem_cons.1 h
    obtain ⟨hfirst, hrest⟩ := List.forall_mem_cons.1 hliterals
    rw [texts_cons]
    exact map_pool_bind (map_pool_ofStatement hs hfirst) fun _ => ih hss hrest

/-- What has been measured is assembled by storing its texts behind its records. -/
theorem assemble_eq_storeTexts {lines : List Text} {ss : List Statement} {size : Nat} (start : Int)
    (hmeasure : measure lines = .ok (ss, size)) (h : ∀ s ∈ ss, s.WordSized) :
    assemble settings start lines
      = (settings.storeTexts (start + size - textOperandBias) (texts ss)).map fun stored =>
        codeOf (listing settings (start + size - textOperandBias) ss) ++ stored := by
  obtain ⟨hliterals, rfl⟩ := totalSize_eq_ok_iff.1 (measure_eq_ok_iff.1 hmeasure).2
  rw [assemble_eq settings hmeasure, ← map_pool_ofStatements h hliterals]
  unfold emit
  cases hstatements : ofStatements settings (start + codeSize ss - textOperandBias) ss with
  | error e => rfl
  | ok a =>
    obtain ⟨-, -, rfl⟩ := ofStatements_eq_ok_iff.1 hstatements
    show Except.map toBytes (if _ then _ else _) = _
    rw [if_pos (by rw [length_codeOf_listing])]
    rfl

/-- A number is too large for assembling only if it is the place of a text. -/
theorem failsOnly_assemble {lines : List Text} (start : Int)
    (h : ∀ ss, parseLines lines = .ok ss → ∀ s ∈ ss, s.WordSized) :
    FailsOnly (fun e => e.ofPacking = false ∨ e = .wordOverflow ∧ ∃ ss size, parseLines lines = .ok ss ∧
        totalSize ss = .ok size ∧ settings.Misplaced (start + size - textOperandBias) (texts ss))
      (assemble settings start lines) := by
  cases hmeasure : measure lines with
  | error e =>
    intro e' he'
    rw [assemble, hmeasure] at he'
    obtain ⟨line, -, hmisread⟩ := failsOnly_measure lines e hmeasure
    exact .inl (Except.error.inj he' ▸ hmisread.not_ofPacking)
  | ok measured =>
    obtain ⟨hparse, hsize⟩ := measure_eq_ok_iff.1 hmeasure
    rw [assemble_eq_storeTexts start hmeasure (h _ hparse)]
    exact ((failsOnly_storeTexts _ _).imp fun e h => h.imp_right fun h => ⟨h.1, _, _, hparse, hsize, h.2⟩).map

/-- **When assembling succeeds.** Lines without a call that has more arguments than can be counted are assembled
exactly when all of them are statements, all arguments are literals, the encoding has each text, and the operand that
refers to each text fits a word. It never fails because of the size of the code or of a fraction, and because of a
number only where the operand that refers to a text does not fit. -/
theorem exists_assemble_iff {start : Int} {lines : List Text}
    (hcount : ∀ ss, parseLines lines = .ok ss → ∀ n args, .sub n args ∈ ss → args.length < 0x7FFFFFFF) :
    ((∃ out, assemble settings start lines = .ok out) ↔
      ∃ ss size, parseLines lines = .ok ss ∧ (∀ s ∈ ss, ∃ ls, s.literals = .ok ls) ∧ totalSize ss = .ok size ∧
        (∀ t ∈ texts ss, ∃ bytes, settings.encodeText t = .ok bytes) ∧
        ∀ k < (texts ss).length, Word.Fits (start + size - 0x58 + settings.poolOffset (texts ss) k)) ∧
    ∀ e, assemble settings start lines = .error e →
      (∀ written announced, e ≠ .sizeMismatch written announced) ∧ e ≠ .floatOverflow ∧
        (e = .wordOverflow → ∃ ss size, parseLines lines = .ok ss ∧ totalSize ss = .ok size ∧
          settings.Misplaced (start + size - 0x58) (texts ss)) := by
  have hsized : ∀ ss, parseLines lines = .ok ss → ∀ s ∈ ss, s.WordSized := by
    intro ss hparse s hs
    obtain ⟨line, -, n, hline⟩ := exists_parse_of_mem hparse s hs
    exact wordSized_of_parse hline fun n args h => hcount ss hparse n args (h ▸ hs)
  refine ⟨⟨fun h => ?_, fun h => ?_⟩, fun e he => ?_⟩
  · obtain ⟨out, hout⟩ := h
    obtain ⟨⟨ss, size⟩, hmeasure, -⟩ := except_bind_eq_ok_iff.1 hout
    obtain ⟨hparse, hsize⟩ := measure_eq_ok_iff.1 hmeasure
    rw [assemble_eq_storeTexts start hmeasure (hsized ss hparse)] at hout
    obtain ⟨stored, hstored, -⟩ := except_map_eq_ok_iff.1 hout
    obtain ⟨hplaces, hencodes, -⟩ := storeTexts_eq_ok_iff.1 hstored
    exact ⟨ss, size, hparse, (totalSize_eq_ok_iff.1 hsize).1, hsize, hencodes,
      (forall_mem_places_iff settings).1 hplaces⟩
  · obtain ⟨ss, size, hparse, -, hsize, hencodes, hplaces⟩ := h
    rw [assemble_eq_storeTexts start (measure_eq_ok_iff.2 ⟨hparse, hsize⟩) (hsized ss hparse)]
    have hfits := (forall_mem_places_iff settings (P := Word.Fits)).2 hplaces
    exact ⟨_, except_map_eq_ok_iff.2 ⟨_, storeTexts_eq_ok_iff.2 ⟨hfits, hencodes, rfl⟩, rfl⟩⟩
  · cases failsOnly_assemble start hsized e he with
    | inl hother =>
      have hne : ∀ e', e'.ofPacking = true → e ≠ e' := by
        intro e' he' h
        rw [h, he'] at hother
        contradiction
      exact ⟨fun _ _ => hne _ rfl, hne _ rfl, fun h => absurd h (hne _ rfl)⟩
    | inr hword =>
      obtain ⟨rfl, hmisplaced⟩ := hword
      exact ⟨fun _ _ => nofun, nofun, fun _ => hmisplaced⟩

theorem exists_assemble_iff_call :
    let lines : List Text := ["sub007(\"a\", -3f, 1.25);".toList, "macro(0x00FE);".toList, "exit(0);".toList]
    (∃ out, assemble ⟨some "ascii", some 16⟩ 4 lines = .ok out) ∧
      ¬∃ out, assemble ⟨some "ascii", some 16⟩ 0x7FFFFFFF lines = .ok out := by
  intro lines
  let ss : List Statement := [.sub 7 ["\"a\"".toList, "-3f".toList, "1.25".toList], .runMacro 0xFE, .exit 0]
  have hparse : parseLines lines = .ok ss := by decide +kernel
  have hliterals : ∀ s ∈ ss, ∃ ls, s.literals = .ok ls := by
    intro s hs
    have hok : ∀ s ∈ ss, s.literals.isOk = true := by decide +kernel
    exact exists_eq_ok (hok s hs)
  have hsize : totalSize ss = .ok 156 := by decide +kernel
  have htexts : texts ss = [['a']] := by decide +kernel
  have hcount : ∀ ss, parseLines lines = .ok ss → ∀ n args, .sub n args ∈ ss → args.length < 0x7FFFFFFF := by
    intro ss' hss' n args hmem
    obtain rfl := Except.ok.inj (hparse.symm.trans hss')
    have hcall : n = 7 ∧ args = ["\"a\"".toList, "-3f".toList, "1.25".toList] := by simpa [ss] using hmem
    rw [hcall.2]
    decide
  refine ⟨(exists_assemble_iff hcount).1.2 ⟨ss, 156, hparse, hliterals, hsize, ?_, ?_⟩, fun h => ?_⟩
  · rw [htexts]
    exact List.forall_mem_singleton.2 ⟨[0x61], by decide +kernel⟩
  · rw [htexts]
    decide
  · obtain ⟨ss', size, hparse', -, hsize', -, hplaces⟩ := (exists_assemble_iff hcount).1.1 h
    obtain rfl := Except.ok.inj (hparse.symm.trans hparse')
    obtain rfl := Except.ok.inj (hsize.symm.trans hsize')
    exact absurd (hplaces 0 (by rw [htexts]; decide)) (by decide +kernel)

end Assembly
end Storyboard
