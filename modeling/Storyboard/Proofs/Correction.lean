/-
Correcting the segments that move and their table entries, in terms of pieces.

`Workspace.Gives` says what work on a container gives, whatever it reports. A loop over segments moves
their pieces (`gives_correctSegments_iff`), and a loop over table entries moves these
(`gives_moveEntries_iff`); both work exactly when every moved number fits its word.
-/
import Storyboard.Proofs.Layout

namespace Storyboard

/-- The bytes of a piece with its own offset raised and other code. -/
def Piece.raisedBytes (change : Int) (p : Piece) (code : List UInt8) : List UInt8 :=
  Word.toBytes (p.own + change) ++ (p.filler ++ code)

theorem Piece.bytes_moved (change : Int) (p : Piece) :
    (p.moved change).bytes = p.raisedBytes change (moveCode change p.code) := by
  rw [Piece.bytes]
  simp only [Piece.moved, Word.toBytes_wrap]
  rfl

/-- The piece can be moved to where it is `change` further on. -/
def Piece.Movable (change : Int) (start : Nat) (p : Piece) : Prop :=
  (start : Int) < Stream.offsetLimit ∧ Word.Fits (p.own + change) ∧
    ((start + segmentHeaderSize : Nat) : Int) < Stream.offsetLimit ∧
    Storyboard.Movable change (start + segmentHeaderSize) (scan p.code).1

instance (change : Int) (start : Nat) (p : Piece) : Decidable (p.Movable change start) :=
  inferInstanceAs (Decidable (_ ∧ _ ∧ _ ∧ _))

/-- A piece can be moved where it is within reach and its moved numbers fit. -/
theorem Piece.movable_of_fits {change : Int} {start : Nat} {p : Piece} (hreach : start + p.size ≤ Stream.lengthLimit)
    (hown : Word.Fits (p.own + change)) (hfits : ∀ r ∈ (scan p.code).1.map (Record.moved change), r.Fits) :
    p.Movable change start := by
  have hscan := congrArg List.length (flatMap_bytes_scan p.code)
  rw [List.length_append, Record.length_flatMap_bytes] at hscan
  simp only [size, Stream.lengthLimit] at hreach
  refine ⟨by simp only [Stream.offsetLimit]; omega, hown, by simp only [Stream.offsetLimit]; omega,
    Storyboard.movable_of_fits ?_ hfits⟩
  simp only [Stream.lengthLimit]
  omega

/-- Pieces one behind another can all be moved. -/
def Piece.AllMovable (change : Int) : (start : Nat) → List Piece → Prop
  | _, [] => True
  | start, p :: ps => p.Movable change start ∧ AllMovable change (start + p.size) ps

instance Piece.AllMovable.decidable (change : Int) : (start : Nat) → (ps : List Piece) →
    Decidable (AllMovable change start ps)
  | _, [] => isTrue trivial
  | start, p :: ps =>
    have := AllMovable.decidable change (start + p.size) ps
    inferInstanceAs (Decidable (_ ∧ _))

theorem Piece.AllMovable.movable {change : Int} {start : Nat} {front back : List Piece} {p : Piece}
    (h : AllMovable change start (front ++ p :: back)) :
    p.Movable change (start + totalSize front) := by
  induction front generalizing start with
  | nil => exact h.1
  | cons q front ih =>
    have := ih h.2
    rwa [totalSize_cons, ← Nat.add_assoc]

/-- Table entries that stand from a position on can all be moved. -/
def Segment.AllMovable (change : Int) : (position : Nat) → List Segment → Prop
  | _, [] => True
  | position, s :: segments =>
    (position + 4 : Int) < Stream.offsetLimit ∧ Word.Fits (s.offset + change) ∧
      AllMovable change (position + tableEntrySize) segments

instance Segment.AllMovable.decidable (change : Int) : (position : Nat) → (segments : List Segment) →
    Decidable (AllMovable change position segments)
  | _, [] => isTrue trivial
  | position, _ :: segments =>
    have := AllMovable.decidable change (position + tableEntrySize) segments
    inferInstanceAs (Decidable (_ ∧ _ ∧ _))

/-- Table entries can be moved where the table is within reach and the moved entries fit. -/
theorem Segment.allMovable_of_fits {change : Int} {position : Nat} {segments : List Segment}
    (hreach : position + tableEntrySize * segments.length ≤ Stream.lengthLimit)
    (hfits : ∀ segment ∈ segments.map (Segment.moved change), segment.Fits) :
    AllMovable change position segments := by
  induction segments generalizing position with
  | nil => trivial
  | cons segment segments ih =>
    obtain ⟨hsegment, hsegments⟩ := List.forall_mem_cons.1 hfits
    simp only [List.length_cons, tableEntrySize, Stream.lengthLimit] at hreach
    refine ⟨by simp only [Stream.offsetLimit]; omega, hsegment.2, ih ?_ hsegments⟩
    simp only [tableEntrySize, Stream.lengthLimit]
    omega

theorem Segment.AllMovable.fits {change : Int} {position : Nat} {segments : List Segment}
    (h : AllMovable change position segments) : ∀ s ∈ segments, Word.Fits (s.offset + change) := by
  induction segments generalizing position with
  | nil => simp
  | cons s segments ih =>
    obtain ⟨-, hs, hsegments⟩ := h
    exact List.forall_mem_cons.2 ⟨hs, ih hsegments⟩

namespace Workspace

variable {α β : Type} {w : Workspace} {c : Container}

/-! ## Editing -/

/-- Work succeeds with a value and leaves a container, whatever it reports. -/
def Gives (work : Editing α) (w : Workspace) (a : α) (c : Container) : Prop :=
  ∃ notices, work w = .ok a ⟨c, notices⟩

theorem gives_pure_iff {a b : α} : Gives (pure a) w b c ↔ b = a ∧ c = w.container := by
  constructor
  · rintro ⟨_, h⟩
    injection h with h h'
    exact ⟨h.symm, by rw [h']⟩
  · rintro ⟨rfl, rfl⟩
    exact ⟨w.notices, rfl⟩

theorem gives_bind_iff {x : Editing α} {f : α → Editing β} {b : β} :
    Gives (x >>= f) w b c ↔ ∃ a w', x w = .ok a w' ∧ Gives (f a) w' b c := by
  constructor
  · rintro ⟨notices, h⟩
    obtain ⟨a, w', hx, hf⟩ := Attempt.bind_eq_ok.1 h
    exact ⟨a, w', hx, notices, hf⟩
  · rintro ⟨a, w', hx, notices, hf⟩
    exact ⟨notices, Attempt.bind_eq_ok.2 ⟨a, w', hx, hf⟩⟩

/-- Where what follows does not look at what has been reported, only the container is passed on. -/
theorem gives_bind_of_iff {x : Editing α} {f : α → Editing β} {b : β} {P Q : α → Container → Prop}
    (hx : ∀ a c', Gives x w a c' ↔ P a c')
    (hf : ∀ a c' notices, P a c' → (Gives (f a) ⟨c', notices⟩ b c ↔ Q a c')) :
    Gives (x >>= f) w b c ↔ ∃ a c', P a c' ∧ Q a c' := by
  rw [gives_bind_iff]
  constructor
  · rintro ⟨a, ⟨c', notices⟩, h, h'⟩
    have hP := (hx a c').1 ⟨notices, h⟩
    exact ⟨a, c', hP, (hf a c' notices hP).1 h'⟩
  · rintro ⟨a, c', hP, hQ⟩
    obtain ⟨notices, h⟩ := (hx a c').2 hP
    exact ⟨a, ⟨c', notices⟩, h, (hf a c' notices hP).2 hQ⟩

/-- Work after work that leaves one certain container, if any. -/
theorem gives_then_iff {x : Editing Unit} {f : Unit → Editing β} {b : β} {c₁ : Container} {P Q : Prop}
    (hx : ∀ {u c'}, Gives x w u c' ↔ P ∧ c' = c₁)
    (hf : ∀ {notices}, P → (Gives (f ()) ⟨c₁, notices⟩ b c ↔ Q)) :
    Gives (x >>= f) w b c ↔ P ∧ Q := by
  rw [gives_bind_iff]
  constructor
  · rintro ⟨u, ⟨c', notices⟩, h, h'⟩
    obtain ⟨hP, rfl⟩ := hx.1 ⟨notices, h⟩
    exact ⟨hP, (hf hP).1 h'⟩
  · rintro ⟨hP, hQ⟩
    obtain ⟨notices, h⟩ := (@hx () c₁).2 ⟨hP, rfl⟩
    exact ⟨(), ⟨c₁, notices⟩, h, (hf hP).2 hQ⟩

theorem gives_report_iff {n : Notice} {u : Unit} : Gives (report n) w u c ↔ c = w.container := by
  constructor
  · rintro ⟨_, h⟩
    injection h with _ h
    exact (congrArg Workspace.container h).symm
  · rintro rfl
    exact ⟨w.notices ++ [n], rfl⟩

theorem gives_onBytes_iff {work : Streaming α} {a : α} :
    Gives (onBytes work) w a c ↔
      ∃ s, work ⟨w.container.bytes, 0⟩ = .ok a s ∧ c = { w.container with bytes := s.bytes } := by
  unfold Gives onBytes Attempt.within
  dsimp only
  cases work ⟨w.container.bytes, 0⟩ with
  | ok b s =>
    constructor
    · rintro ⟨_, h⟩
      injection h with h h'
      exact ⟨s, by rw [h], (congrArg Workspace.container h').symm⟩
    · rintro ⟨_, h, rfl⟩
      injection h with h h'
      exact ⟨w.notices, by rw [h, h']⟩
  | error e s =>
    constructor
    · rintro ⟨_, h⟩
      contradiction
    · rintro ⟨_, h, -⟩
      contradiction

/-! ## Segments -/

/-- Correcting a piece between others goes on with the references of its code once its own offset has been raised. -/
theorem correction_eq {left : List UInt8} {offset change : Int} {p : Piece} (right : List UInt8) (position : Nat)
    (stop : Int) (hoffset : offset = left.length)
    (hreach : ((left.length + segmentHeaderSize : Nat) : Int) < Stream.offsetLimit) (hown : Word.Fits (p.own + change)) :
    ∃ head : List UInt8, head.length = left.length + segmentHeaderSize ∧
      (∀ code, left ++ (p.raisedBytes change code ++ right) = head ++ (code ++ right)) ∧
      (do
        let own ← Stream.readWordAt offset
        Stream.writeWordAt offset (own + change)
        Stream.jump (codeStart offset)
        moveReferences change stop (codeStart offset).toNat) ⟨left ++ (p.bytes ++ right), position⟩
        = moveReferences change stop head.length ⟨head ++ (p.code ++ right), head.length⟩ := by
  let head := left ++ (Word.toBytes (p.own + change) ++ p.filler)
  have hbytes : ∀ code, left ++ (p.raisedBytes change code ++ right) = head ++ (code ++ right) := by
    intro code
    simp [Piece.raisedBytes, head]
  have hlength : head.length = left.length + segmentHeaderSize := by
    have := p.length_filler
    simp only [head, List.length_append, Word.length_toBytes]
    omega
  have hcode : (codeStart offset).toNat = head.length := by
    rw [hlength, hoffset, codeStart]
    omega
  have hread : Stream.readWordAt offset ⟨left ++ (p.bytes ++ right), position⟩
      = .ok p.own ⟨left ++ (p.bytes ++ right), position⟩ := by
    rw [Piece.bytes, List.append_assoc]
    exact (Stream.readWordAt_eq_ok_iff p.own_fits hoffset).2 ⟨by omega, rfl, rfl⟩
  have hwrite : Stream.writeWordAt offset (p.own + change) ⟨left ++ (p.bytes ++ right), position⟩
      = .ok () ⟨head ++ (p.code ++ right), position⟩ := by
    rw [Piece.bytes, List.append_assoc, ← hbytes, Piece.raisedBytes, List.append_assoc (Word.toBytes _)]
    exact (Stream.writeWordAt_eq_ok_iff (Word.length_toBytes _) hoffset).2 ⟨by omega, hown, rfl⟩
  have hjump : Stream.jump (codeStart offset) ⟨head ++ (p.code ++ right), position⟩
      = .ok () ⟨head ++ (p.code ++ right), (codeStart offset).toNat⟩ :=
    Stream.jump_eq_ok_iff.2 ⟨by rw [codeStart]; omega, by rw [codeStart]; omega, rfl⟩
  refine ⟨head, hlength, hbytes, ?_⟩
  rw [Attempt.bind_of_ok hread, Attempt.bind_of_ok hwrite, Attempt.bind_of_ok hjump, hcode]

/-- The bytes of a piece between others, from its own offset to the end of its code. -/
theorem leaves_correction_iff {left right bytes : List UInt8} {offset stop change : Int} {p : Piece}
    {position : Nat} (hoffset : offset = left.length) (hstop : stop = left.length + p.size) :
    Stream.Leaves (do
        let own ← Stream.readWordAt offset
        Stream.writeWordAt offset (own + change)
        Stream.jump (codeStart offset)
        moveReferences change stop (codeStart offset).toNat)
        ⟨left ++ (p.bytes ++ right), position⟩ bytes ↔
      p.Movable change left.length ∧ bytes = left ++ ((p.moved change).bytes ++ right) := by
  have hend : ∀ {head : List UInt8}, head.length = left.length + segmentHeaderSize →
      stop = head.length + p.code.length := by
    intro head hlength
    rw [hlength, hstop, Piece.size]
    omega
  constructor
  · rintro ⟨a, position', h⟩
    have hlast := h
    rw [Piece.bytes, List.append_assoc] at h
    obtain ⟨own, s, hread, h⟩ := Attempt.bind_eq_ok.1 h
    obtain ⟨hlt, rfl, rfl⟩ := (Stream.readWordAt_eq_ok_iff p.own_fits hoffset).1 hread
    obtain ⟨_, s, hwrite, h⟩ := Attempt.bind_eq_ok.1 h
    obtain ⟨-, hfits, -⟩ := (Stream.writeWordAt_eq_ok_iff (Word.length_toBytes _) hoffset).1 hwrite
    obtain ⟨_, s, hjump, -⟩ := Attempt.bind_eq_ok.1 h
    obtain ⟨-, hreach, -⟩ := Stream.jump_eq_ok_iff.1 hjump
    rw [codeStart, hoffset] at hreach
    obtain ⟨head, hlength, hbytes, hcorrection⟩ := correction_eq right position stop hoffset (by omega) hfits
    rw [hcorrection] at hlast
    obtain ⟨hmovable, rfl⟩ := (leaves_moveReferences_iff (hend hlength)).1 ⟨a, position', hlast⟩
    rw [hlength] at hmovable
    exact ⟨⟨by omega, hfits, by omega, hmovable⟩, by rw [Piece.bytes_moved, hbytes]⟩
  · rintro ⟨⟨-, hfits, hreach, hmovable⟩, rfl⟩
    obtain ⟨head, hlength, hbytes, hcorrection⟩ := correction_eq right position stop hoffset hreach hfits
    rw [← hlength] at hmovable
    unfold Stream.Leaves
    rw [hcorrection, Piece.bytes_moved, hbytes]
    exact (leaves_moveReferences_iff (hend hlength)).2 ⟨hmovable, rfl⟩

/-- **Correcting a segment** moves its piece, and works exactly when that can be moved. -/
theorem gives_correctSegment_iff {left right : List UInt8} {segment : Segment} {stop change : Int}
    {p : Piece} {u : Unit} (hbytes : w.container.bytes = left ++ (p.bytes ++ right))
    (hoffset : segment.offset = left.length) (hstop : stop = left.length + p.size) :
    Gives (correctSegment segment stop change) w u c ↔
      p.Movable change left.length ∧
        c = { w.container with bytes := left ++ ((p.moved change).bytes ++ right) } := by
  have hleaves := @leaves_correction_iff left right
  unfold correctSegment
  refine (gives_bind_of_iff (Q := fun _ c' => c = c') (fun _ _ => gives_onBytes_iff) ?_).trans ?_
  · rintro ⟨count, unfinished⟩ c' notices -
    cases unfinished with
    | none => exact gives_report_iff
    | some position =>
      have hfirst : ∀ {u c''}, Gives (report (.missingExit segment.id position)) ⟨c', notices⟩ u c'' ↔
          True ∧ c'' = c' := by
        intro u c''
        rw [true_and]
        exact gives_report_iff
      refine (gives_then_iff (Q := c = c') hfirst fun _ => ?_).trans (by rw [true_and])
      exact gives_report_iff
  rw [hbytes]
  constructor
  · rintro ⟨found, _, ⟨s, hs, rfl⟩, rfl⟩
    obtain ⟨hmovable, hs⟩ := (hleaves hoffset hstop).1 ⟨found, s.position, hs⟩
    exact ⟨hmovable, by rw [hs]⟩
  · rintro ⟨hmovable, rfl⟩
    obtain ⟨found, position, hs⟩ := (hleaves hoffset hstop).2 ⟨hmovable, rfl⟩
    exact ⟨found, _, ⟨_, hs, rfl⟩, rfl⟩

/-- `stop` tells of the numbers from `number` on where the pieces from `start` on end. -/
def EndsOf (stop : Nat → Int) : (number start : Nat) → List Piece → Prop
  | _, _, [] => True
  | number, start, p :: ps => stop number = start + p.size ∧ EndsOf stop (number + 1) (start + p.size) ps

/-- A segment of a container ends where the next piece starts, or with the bytes. -/
theorem endsOf_segmentEnd {before : List Segment} {start : Nat} {ps : List Piece}
    (hsegments : c.segments = before ++ Piece.entries start ps)
    (hbytes : c.bytes.length = start + Piece.totalSize ps) :
    EndsOf c.segmentEnd before.length start ps := by
  induction ps generalizing before start with
  | nil => trivial
  | cons p ps ih =>
    constructor
    · unfold Container.segmentEnd
      cases ps with
      | nil => simp [hsegments, hbytes, Piece.entries, Piece.totalSize]
      | cons p' ps => simp [hsegments, Piece.entries]
    · have hnext := @ih (before ++ [⟨p.id, start⟩]) (start + p.size)
        (by rw [hsegments, Piece.entries, List.append_assoc]; rfl)
        (by rw [hbytes, Piece.totalSize_cons, Nat.add_assoc])
      rwa [List.length_append] at hnext

/-- Correcting segments one after another moves their pieces. -/
theorem gives_correctSegments_iff {stop : Nat → Int} {left : List UInt8} {number : Nat} {ps : List Piece}
    {change : Int} {u : Unit} (hbytes : w.container.bytes = left ++ ps.flatMap Piece.bytes)
    (hstop : EndsOf stop number left.length ps) :
    Gives (((Piece.entries left.length ps).zipIdx number).forM fun (segment, number) =>
        correctSegment segment (stop number) change) w u c ↔
      Piece.AllMovable change left.length ps ∧
        c = { w.container with bytes := left ++ (ps.map (Piece.moved change)).flatMap Piece.bytes } := by
  induction ps generalizing left number w with
  | nil =>
    refine gives_pure_iff.trans ?_
    obtain ⟨container, _⟩ := w
    have hcontainer : ({ container with bytes := left } : Container) = container := by
      rw [show left = container.bytes from by rw [hbytes]; simp]
    simp [Piece.AllMovable, hcontainer]
  | cons p ps ih =>
    obtain ⟨hend, hends⟩ := hstop
    rw [List.flatMap_cons] at hbytes
    have hleft : (left ++ (p.moved change).bytes).length = left.length + p.size := by simp
    rw [Piece.entries, List.zipIdx_cons, List.forM]
    have hrest : ∀ (c' : Container) (notices : List Notice),
        c'.bytes = left ++ ((p.moved change).bytes ++ ps.flatMap Piece.bytes) →
        (Gives (((Piece.entries (left.length + p.size) ps).zipIdx (number + 1)).forM
            fun (segment, number) => correctSegment segment (stop number) change) ⟨c', notices⟩ u c ↔
          Piece.AllMovable change (left.length + p.size) ps ∧
            c = { c' with bytes := left ++ ((p.moved change).bytes
              ++ (ps.map (Piece.moved change)).flatMap Piece.bytes) }) := by
      intro c' notices hc'
      have h := @ih ⟨c', notices⟩ (left ++ (p.moved change).bytes) (number + 1)
        (by rw [hc', List.append_assoc]) (by rw [hleft]; exact hends)
      rw [hleft, List.append_assoc] at h
      exact h
    refine (gives_then_iff (gives_correctSegment_iff hbytes rfl hend) fun _ => hrest _ _ rfl).trans ?_
    rw [← and_assoc]
    rfl

/-! ## The table -/

/-- Moving the table entry of an index. -/
theorem gives_moveEntry_iff {h : Header} {lead rest : List UInt8} {front back : List Segment}
    {s : Segment} {change : Int} {u : Unit} (htable : h.tableStart = lead.length)
    (hcontainer : w.container = ⟨h, front ++ s :: back,
      lead ++ ((front ++ s :: back).flatMap Segment.bytes ++ rest)⟩) :
    Gives (moveEntry change front.length) w u c ↔
      ((lead.length + tableEntrySize * front.length + 4 : Int) < Stream.offsetLimit ∧
          Word.Fits (s.offset + change)) ∧
        c = ⟨h, front ++ s.moved change :: back,
          lead ++ ((front ++ s.moved change :: back).flatMap Segment.bytes ++ rest)⟩ := by
  obtain ⟨container, notices⟩ := w
  subst hcontainer
  have hlookup : (front ++ s :: back)[front.length]? = some s := by simp
  have hset : (front ++ s :: back).set front.length (s.moved change) = front ++ s.moved change :: back := by
    simp
  -- The offset is the second word of its entry.
  have hbytes : ∀ offset, lead ++ ((front ++ { s with offset } :: back).flatMap Segment.bytes ++ rest)
      = (lead ++ (front.flatMap Segment.bytes ++ Word.toBytes s.id))
        ++ (Word.toBytes offset ++ (back.flatMap Segment.bytes ++ rest)) := by
    intro offset
    simp [Segment.bytes]
  have hposition : h.tableStart + front.length * tableEntrySize + 4
      = (lead ++ (front.flatMap Segment.bytes ++ Word.toBytes s.id)).length := by
    simp only [List.length_append, Segment.length_flatMap_bytes, Word.length_toBytes, htable,
      tableEntrySize]
    omega
  have hwork : moveEntry change front.length ⟨⟨h, front ++ s :: back,
        lead ++ ((front ++ s :: back).flatMap Segment.bytes ++ rest)⟩, notices⟩
      = onBytes (Stream.writeWordAt (h.tableStart + front.length * tableEntrySize + 4) (s.offset + change))
        ⟨⟨h, front ++ s.moved change :: back,
          lead ++ ((front ++ s :: back).flatMap Segment.bytes ++ rest)⟩, notices⟩ := by
    have hget : (get : Editing Workspace) = fun w => .ok w w := rfl
    simp only [moveEntry, bind, EStateM.bind, hget, hlookup]
    rw [← hset]
    rfl
  unfold Gives
  rw [hwork]
  refine gives_onBytes_iff.trans ?_
  have hold : lead ++ ((front ++ s :: back).flatMap Segment.bytes ++ rest) = _ := hbytes s.offset
  have hnew : lead ++ ((front ++ s.moved change :: back).flatMap Segment.bytes ++ rest) = _ :=
    hbytes (s.offset + change)
  have hreach : h.tableStart + front.length * tableEntrySize + 4 < Stream.offsetLimit ↔
      (lead.length + tableEntrySize * front.length + 4 : Int) < Stream.offsetLimit := by
    rw [htable, Int.mul_comm]
  rw [hold, hnew, ← hreach]
  constructor
  · rintro ⟨_, hwrite, rfl⟩
    obtain ⟨hlt, hfits, rfl⟩ :=
      (Stream.writeWordAt_eq_ok_iff (Word.length_toBytes s.offset) hposition).1 hwrite
    exact ⟨⟨hlt, hfits⟩, rfl⟩
  · rintro ⟨⟨hlt, hfits⟩, rfl⟩
    exact ⟨_, (Stream.writeWordAt_eq_ok_iff (Word.length_toBytes s.offset) hposition).2
      ⟨hlt, hfits, rfl⟩, rfl⟩

/-- Moving table entries one after another. -/
theorem gives_moveEntries_iff {h : Header} {lead rest : List UInt8} {front back : List Segment}
    {change : Int} {u : Unit} (htable : h.tableStart = lead.length)
    (hcontainer : w.container = ⟨h, front ++ back, lead ++ ((front ++ back).flatMap Segment.bytes ++ rest)⟩) :
    Gives ((back.zipIdx front.length).forM fun (_, number) => moveEntry change number) w u c ↔
      Segment.AllMovable change (lead.length + tableEntrySize * front.length) back ∧
        c = ⟨h, front ++ back.map (Segment.moved change),
          lead ++ ((front ++ back.map (Segment.moved change)).flatMap Segment.bytes ++ rest)⟩ := by
  induction back generalizing front w with
  | nil =>
    refine gives_pure_iff.trans ?_
    simp [hcontainer, Segment.AllMovable]
  | cons s back ih =>
    have hrest : ∀ (c' : Container) (notices : List Notice),
        c' = ⟨h, front ++ s.moved change :: back,
          lead ++ ((front ++ s.moved change :: back).flatMap Segment.bytes ++ rest)⟩ →
        (Gives ((back.zipIdx (front.length + 1)).forM fun (_, number) => moveEntry change number)
            ⟨c', notices⟩ u c ↔
          Segment.AllMovable change (lead.length + tableEntrySize * front.length + tableEntrySize) back ∧
            c = ⟨h, front ++ (s :: back).map (Segment.moved change),
              lead ++ ((front ++ (s :: back).map (Segment.moved change)).flatMap Segment.bytes
                ++ rest)⟩) := by
      intro c' notices hc'
      have hnext := @ih ⟨c', notices⟩ (front ++ [s.moved change]) (by simp [hc'])
      simp only [List.length_append, List.length_cons, List.length_nil, Nat.mul_add, Nat.mul_one,
        List.append_assoc, List.cons_append, List.nil_append, Nat.zero_add] at hnext
      rw [List.map_cons, Nat.add_assoc]
      exact hnext
    rw [List.zipIdx_cons, List.forM]
    refine (gives_then_iff (gives_moveEntry_iff htable hcontainer) fun _ => hrest _ _ rfl).trans ?_
    rw [and_assoc, ← and_assoc (b := Segment.AllMovable ..), ← and_assoc (a := _ < _)]
    rfl

end Workspace
end Storyboard
