/-
Assembling the same lines somewhere else.

Only the operands that refer to texts depend on where a script is assembled, so its records elsewhere are its
records moved (`listing_add`). `assemble_add` says that moving the code of an assembled script gives what
assembling it at the new place gives, provided that no texts are pushed behind the record where moving stops.
-/
import Storyboard.Proofs.Injection
import Storyboard.Proofs.Listing

namespace Storyboard

/-- The records of some instructions. -/
def recordsOf (is : List Instruction) : List Record := is.map Instruction.toRecord

@[simp] theorem recordsOf_append (is is' : List Instruction) :
    recordsOf (is ++ is') = recordsOf is ++ recordsOf is' := List.map_append

/-! ## Listings elsewhere -/

namespace Literal

/-- The literal is a text. -/
def isText : Literal → Bool
  | text _ => true
  | _ => false

/-- The operand of a text is where the text is, and nothing else about a literal's records is. -/
theorem instructions_add (place d : Int) (l : Literal) :
    recordsOf (l.instructions (place + d)) = (recordsOf (l.instructions place)).map (Record.moved d) := by
  cases l with
  | int v marked => cases marked <;> rfl
  | float x marked => cases marked <;> rfl
  | text t => rfl

theorem pushes_add (settings : Settings) (place d : Int) (ls : List Literal) :
    recordsOf (pushes settings (place + d) ls) = (recordsOf (pushes settings place ls)).map (Record.moved d) := by
  induction ls generalizing place with
  | nil => rfl
  | cons l ls ih =>
    have hnext : place + d + (l.pool settings).length = place + (l.pool settings).length + d := by omega
    rw [pushes, recordsOf_append, instructions_add, hnext, ih, pushes, recordsOf_append, List.map_append]

end Literal

namespace Statement

/-- The statement leaves the script. -/
def leaves : Statement → Bool
  | exit _ => true
  | _ => false

/-- None of the arguments of the statement is a text. -/
def Textless (s : Statement) : Prop := ∀ l ∈ s.arguments, l.isText = false

instance (s : Statement) : Decidable s.Textless := inferInstanceAs (Decidable (∀ l ∈ s.arguments, _))

theorem instructions_add (settings : Settings) (place d : Int) (s : Statement) :
    recordsOf (s.instructions settings (place + d))
      = (recordsOf (s.instructions settings place)).map (Record.moved d) := by
  cases s with
  | sub number texts =>
    simp only [instructions, recordsOf_append, List.map_append, Literal.pushes_add]
    rfl
  | _ => rfl

/-- **Elsewhere, statements become the same records moved.** -/
theorem listing_add (settings : Settings) (place d : Int) (ss : List Statement) :
    recordsOf (listing settings (place + d) ss)
      = (recordsOf (listing settings place ss)).map (Record.moved d) := by
  induction ss generalizing place with
  | nil => rfl
  | cons s ss ih =>
    have hnext : place + d + (s.pool settings).length = place + (s.pool settings).length + d := by omega
    rw [listing, recordsOf_append, instructions_add, hnext, ih, listing, recordsOf_append, List.map_append]

end Statement

/-! ## What instructions a listing has -/

namespace Instruction

/-- The instruction pushes a text. -/
def pushesText : Instruction → Bool
  | pushText _ => true
  | _ => false

@[simp] theorem isTextReference_toRecord (i : Instruction) :
    i.toRecord.isTextReference = i.pushesText := by
  cases i <;> rfl

@[simp] theorem isExit_toRecord (i : Instruction) : i.toRecord.isExit = (i == exit) := by
  cases i <;> simp [toRecord, Record.isExit]

end Instruction

/-- Literals become pushes, and only texts push a text. -/
theorem Literal.of_mem_instructions {place : Int} {l : Literal} {i : Instruction}
    (h : i ∈ l.instructions place) : i ≠ .exit ∧ (i.pushesText = true → l.isText = true) := by
  have hmark : ∀ marked, i ∈ Assembly.ofMark marked → i = .pushNull := by
    intro marked hi
    cases marked with
    | true => exact List.mem_singleton.1 hi
    | false => contradiction
  cases l with
  | int v marked | float x marked =>
    rcases List.mem_cons.1 h with rfl | h
    · exact ⟨by simp, by simp [Instruction.pushesText]⟩
    · rw [hmark marked h]
      exact ⟨by simp, by simp [Instruction.pushesText]⟩
  | text t =>
    rw [List.mem_singleton.1 h]
    exact ⟨by simp, fun _ => rfl⟩

theorem Literal.of_mem_pushes {settings : Settings} {place : Int} {ls : List Literal} {i : Instruction}
    (h : i ∈ pushes settings place ls) :
    i ≠ .exit ∧ (i.pushesText = true → ∃ l ∈ ls, l.isText = true) := by
  induction ls generalizing place with
  | nil => contradiction
  | cons l ls ih =>
    rcases List.mem_append.1 h with h | h
    · obtain ⟨hexit, htext⟩ := of_mem_instructions h
      exact ⟨hexit, fun href => ⟨l, List.mem_cons_self, htext href⟩⟩
    · obtain ⟨hexit, htext⟩ := ih h
      refine ⟨hexit, fun href => ?_⟩
      obtain ⟨l', hl', h'⟩ := htext href
      exact ⟨l', List.mem_cons_of_mem _ hl', h'⟩

namespace Statement

/-- Only the statement that leaves the script has an exit, and textless statements push no text. -/
theorem of_mem_instructions {settings : Settings} {place : Int} {s : Statement} {i : Instruction}
    (h : i ∈ s.instructions settings place) :
    (s.leaves = false → i ≠ .exit) ∧ (s.Textless → i.pushesText = false) := by
  cases s with
  | sub number texts =>
    simp only [instructions, List.mem_append, List.mem_cons, List.not_mem_nil, or_false] at h
    rcases h with ((rfl | rfl | rfl) | h) | rfl
    · exact ⟨by simp, fun _ => rfl⟩
    · exact ⟨by simp, fun _ => rfl⟩
    · exact ⟨by simp, fun _ => rfl⟩
    · obtain ⟨hexit, htext⟩ := Literal.of_mem_pushes h
      refine ⟨fun _ => hexit, fun hs => Bool.eq_false_iff.2 fun href => ?_⟩
      obtain ⟨l, hl, htext⟩ := htext href
      rw [hs l hl] at htext
      contradiction
    · exact ⟨by simp, fun _ => rfl⟩
  | runMacro code | time v | exit v =>
    simp only [instructions, List.mem_cons, List.not_mem_nil, or_false] at h
    grind [Statement.leaves, Instruction.pushesText]

theorem exists_of_mem_listing {settings : Settings} {place : Int} {ss : List Statement} {i : Instruction}
    (h : i ∈ listing settings place ss) : ∃ s ∈ ss, ∃ place, i ∈ s.instructions settings place := by
  induction ss generalizing place with
  | nil => contradiction
  | cons s ss ih =>
    rcases List.mem_append.1 h with h | h
    · exact ⟨s, List.mem_cons_self, place, h⟩
    · obtain ⟨s', hs', h'⟩ := ih h
      exact ⟨s', List.mem_cons_of_mem _ hs', h'⟩

/-- Records without text references are the same elsewhere. -/
theorem listing_add_of_textless {settings : Settings} {ss : List Statement} (h : ∀ s ∈ ss, s.Textless)
    (place d : Int) :
    recordsOf (listing settings (place + d) ss) = recordsOf (listing settings place ss) := by
  rw [listing_add]
  refine List.map_congr_left (fun r hr => ?_) |>.trans (List.map_id _)
  obtain ⟨i, hi, rfl⟩ := List.mem_map.1 hr
  obtain ⟨s, hs, place', hi⟩ := exists_of_mem_listing hi
  have href : i.toRecord.isTextReference = false := by
    rw [Instruction.isTextReference_toRecord]
    exact (of_mem_instructions hi).2 (h s hs)
  simp [Record.moved, href]

end Statement

namespace Assembly

/-! ## Assembling elsewhere -/

/-- The lines leave the script somewhere, and behind the first line that does there are no texts. -/
def Leaves (lines : List Text) : Prop :=
  ∃ body v rest, Statement.parseLines lines = .ok (body ++ .exit v :: rest) ∧
    (∀ s ∈ body, s.leaves = false) ∧ ∀ s ∈ rest, s.Textless

theorem placeOf_add (start d : Int) (ss : List Statement) : placeOf (start + d) ss = placeOf start ss + d := by
  simp only [placeOf]
  omega

/-- Lines that are assembled at two places are the same statements there, each time with their listing and the same
pool. -/
theorem exists_statements {settings : Settings} {start start' : Int} {lines : List Text} {out out' : List UInt8}
    (h : assemble settings start lines = .ok out) (h' : assemble settings start' lines = .ok out') :
    ∃ ss, Statement.parseLines lines = .ok ss ∧ (∀ s ∈ ss, s.Storable settings) ∧
      (∀ i ∈ Statement.listing settings (placeOf start ss) ss, i.toRecord.Fits) ∧
      (∀ i ∈ Statement.listing settings (placeOf start' ss) ss, i.toRecord.Fits) ∧
      out = codeOf (Statement.listing settings (placeOf start ss) ss) ++ ss.flatMap (Statement.pool settings) ∧
      out' = codeOf (Statement.listing settings (placeOf start' ss) ss) ++ ss.flatMap (Statement.pool settings) := by
  obtain ⟨ss, hparse, hstorable, hfits, hout⟩ := assemble_eq_ok_iff.1 h
  obtain ⟨ss', hparse', -, hfits', hout'⟩ := assemble_eq_ok_iff.1 h'
  obtain rfl := Except.ok.inj (hparse.symm.trans hparse')
  exact ⟨ss, hparse, hstorable, hfits, hfits', hout, hout'⟩

/-- How long assembled code is does not depend on where it is assembled. -/
theorem length_assemble {settings : Settings} {start start' : Int} {lines : List Text}
    {out out' : List UInt8} (h : assemble settings start lines = .ok out)
    (h' : assemble settings start' lines = .ok out') : out'.length = out.length := by
  obtain ⟨ss, -, -, -, -, rfl, rfl⟩ := exists_statements h h'
  simp only [List.length_append, Statement.length_codeOf_listing]

/-- **Assembled elsewhere, lines that leave the script become the code whose scanned records have moved**,
whatever follows the code. -/
theorem assemble_add {settings : Settings} {start d : Int} {lines : List Text} {out out' : List UInt8}
    (hleaves : Leaves lines) (h : assemble settings start lines = .ok out)
    (h' : assemble settings (start + d) lines = .ok out') (after : List UInt8) :
    ∃ rs rest, scan (out ++ after) = (rs, rest) ∧
      out' ++ after = (rs.map (Record.moved d)).flatMap Record.bytes ++ rest ∧
      ∀ r ∈ rs.map (Record.moved d), r.Fits := by
  obtain ⟨body, v, rest, hparse, hbody, hrest⟩ := hleaves
  obtain ⟨_, hparse', -, hfits, hfits', rfl, rfl⟩ := exists_statements h h'
  obtain rfl := Except.ok.inj (hparse.symm.trans hparse')
  rw [placeOf_add] at hfits' ⊢
  generalize placeOf start (body ++ .exit v :: rest) = place at hfits hfits' ⊢
  let init (place : Int) : List Instruction := Statement.listing settings place body ++ [.pushInt v]
  let behind (place : Int) : List Instruction :=
    .finish :: Statement.listing settings (place + (body.flatMap (Statement.pool settings)).length) rest
  -- Moving stops behind the exit, and what stands there is the same elsewhere.
  have hlisting : ∀ place, Statement.listing settings place (body ++ .exit v :: rest)
      = (init place ++ [.exit]) ++ behind place := by
    intro place
    rw [Statement.listing_append, Statement.listing]
    simp [init, behind, Statement.instructions, Statement.pool, Statement.arguments, Statement.literals,
      Except.toOption]
  have hcode : ∀ place, codeOf (Statement.listing settings place (body ++ .exit v :: rest))
      = (recordsOf (init place) ++ [Instruction.exit.toRecord]).flatMap Record.bytes
        ++ codeOf (behind place) := by
    intro place
    rw [hlisting, codeOf_append, codeOf_eq, List.map_append]
    rfl
  have hinit : recordsOf (init (place + d)) ++ [Instruction.exit.toRecord]
      = (recordsOf (init place) ++ [Instruction.exit.toRecord]).map (Record.moved d) := by
    simp only [init, recordsOf_append, Statement.listing_add, List.map_append]
    rfl
  have hbehind : codeOf (behind (place + d)) = codeOf (behind place) := by
    have hplace : place + d + (body.flatMap (Statement.pool settings)).length
        = place + (body.flatMap (Statement.pool settings)).length + d := by omega
    have hlater : recordsOf (behind (place + d)) = recordsOf (behind place) := by
      simp only [behind, hplace]
      exact congrArg (Instruction.finish.toRecord :: ·) (Statement.listing_add_of_textless hrest _ _)
    rw [codeOf_eq, codeOf_eq]
    exact congrArg (List.flatMap Record.bytes) hlater
  have hmem : ∀ place, (∀ i ∈ Statement.listing settings place (body ++ .exit v :: rest), i.toRecord.Fits) →
      ∀ r ∈ recordsOf (init place) ++ [Instruction.exit.toRecord], r.Fits := by
    intro place hfits r hr
    have hr' : r ∈ recordsOf (init place ++ [.exit]) := by
      rw [recordsOf_append]
      exact hr
    obtain ⟨i, hi, rfl⟩ := List.mem_map.1 hr'
    refine hfits i ?_
    rw [hlisting]
    exact List.mem_append_left _ hi
  refine ⟨recordsOf (init place) ++ [Instruction.exit.toRecord], codeOf (behind place)
    ++ ((body ++ .exit v :: rest).flatMap (Statement.pool settings) ++ after), ?_, ?_, ?_⟩
  · rw [hcode, List.append_assoc, List.append_assoc]
    refine scan_records (hmem place hfits) ?_ rfl _
    intro r hr
    obtain ⟨i, hi, rfl⟩ := List.mem_map.1 hr
    rw [Instruction.isExit_toRecord, beq_eq_false_iff_ne]
    rcases List.mem_append.1 hi with hi | hi
    · obtain ⟨s, hs, place', hi⟩ := Statement.exists_of_mem_listing hi
      exact (Statement.of_mem_instructions hi).1 (hbody s hs)
    · rw [List.mem_singleton.1 hi]
      simp
  · rw [hcode, hinit, hbehind, List.append_assoc, List.append_assoc]
  · rw [← hinit]
    exact hmem _ hfits'

/-- Assembled elsewhere, lines that leave the script become the same code moved, up to the alignment. -/
theorem moveCode_padded {settings : Settings} {start d : Int} {lines : List Text} {out out' : List UInt8}
    (hleaves : Leaves lines) (h : assemble settings start lines = .ok out)
    (h' : assemble settings (start + d) lines = .ok out') :
    padded out' = moveCode d (padded out) ∧ ∀ r ∈ (scan (padded out)).1.map (Record.moved d), r.Fits := by
  obtain ⟨rs, rest, hscan, hmoved, hfits⟩ :=
    assemble_add hleaves h h' (List.replicate (Stream.paddingOf out.length 4) 0)
  refine ⟨?_, by rw [padded, hscan]; exact hfits⟩
  rw [moveCode, padded, padded, length_assemble h h', hscan, hmoved]

end Assembly
end Storyboard
