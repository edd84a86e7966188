/-
What injecting does to a container, in terms of its pieces.

`Image.injected` replaces the code of one piece and moves the pieces behind it. `gives_inject_iff` says that
injecting a script into the container of an image gives the container of that image and how far the
pieces moved, and when it succeeds.
-/
import Storyboard.Proofs.Correction
import Storyboard.Proofs.Padding

namespace Storyboard

/-! ## Padding -/

/-- Zeros behind some bytes up to the alignment. -/
def padded (bytes : List UInt8) : List UInt8 :=
  bytes ++ List.replicate (Stream.paddingOf bytes.length 4) 0

theorem length_padded (bytes : List UInt8) : ((padded bytes).length : Int) = align bytes.length alignment := by
  rw [align_eq, padded, List.length_append, List.length_replicate]

theorem length_padded_mod (bytes : List UInt8) : (padded bytes).length % 4 = 0 := by
  simp only [padded, List.length_append, List.length_replicate, Stream.paddingOf]
  omega

/-- The piece with another script as its code. -/
def Piece.withScript (p : Piece) (script : List UInt8) : Piece := { p with code := padded script }

/-- How much longer a piece gets with another script. -/
def Piece.growth (p : Piece) (script : List UInt8) : Int := (padded script).length - p.code.length

/-- The image with another script in the piece between `front` and `back`. -/
def Image.injected (i : Image) (front : List Piece) (p : Piece) (back : List Piece)
    (script : List UInt8) : Image :=
  { i with pieces := front ++ p.withScript script :: back.map (Piece.moved (p.growth script)) }

namespace Workspace

/-- **A script is placed** behind an aligned position with its padding, over as many bytes as these
are. -/
theorem placeScript_eq_ok_iff {start : Int} {left right script : List UInt8} {position : Nat}
    {u : Unit} {s' : Stream} (hstart : start = left.length) (haligned : left.length % 4 = 0) :
    placeScript start script ⟨left ++ right, position⟩ = .ok u s' ↔
      start < Stream.offsetLimit ∧
        s' = ⟨(left ++ padded script) ++ right.drop (padded script).length,
          (left ++ padded script).length⟩ := by
  have hpadding : Stream.paddingOf (left ++ script).length 4 = Stream.paddingOf script.length 4 := by
    simp only [Stream.paddingOf, List.length_append]
    omega
  have hplace : (Stream.write script >>= fun _ => Stream.pad alignment : Streaming Unit)
      ⟨left ++ right, left.length⟩
      = .ok () ⟨(left ++ padded script) ++ right.drop (padded script).length,
          (left ++ padded script).length⟩ := by
    refine Attempt.bind_eq_ok.2 ⟨(), _, Stream.write_append left right script, ?_⟩
    rw [Stream.pad_append, hpadding]
    simp only [padded, List.append_assoc, List.length_append, List.length_replicate, List.drop_drop,
      Nat.add_assoc]
  subst hstart
  unfold placeScript
  rw [Attempt.bind_eq_ok]
  constructor
  · rintro ⟨_, s, hjump, h⟩
    obtain ⟨-, hlt, rfl⟩ := Stream.jump_eq_ok_iff.1 hjump
    refine ⟨hlt, ?_⟩
    have h' := hplace.symm.trans h
    injection h' with _ h'
    exact h'.symm
  · rintro ⟨hlt, rfl⟩
    exact ⟨(), _, Stream.jump_eq_ok_iff.2 ⟨Int.natCast_nonneg _, hlt, rfl⟩, hplace⟩

/-- What is behind the script, when that is moved: the bytes from the first segment there on. -/
def readTail (length : Nat) : List (Segment × Nat) → Streaming (List UInt8)
  | [] => pure []
  | (first, _) :: _ => do
    Stream.jump first.offset
    Stream.read (length - first.offset)

/-- The bytes behind the script can be read in one go. -/
def Readable (start : Nat) (back : List Piece) : Prop :=
  back ≠ [] → (start : Int) < Stream.offsetLimit ∧ (Piece.totalSize back : Int) < Stream.offsetLimit

instance (start : Nat) (back : List Piece) : Decidable (Readable start back) :=
  inferInstanceAs (Decidable (_ → _))

theorem readTail_eq_ok_iff {length number position : Nat} {left right tail : List UInt8}
    {back : List Piece} {s' : Stream} (hlength : length = left.length + Piece.totalSize back)
    (hright : right.length = Piece.totalSize back) :
    readTail length ((Piece.entries left.length back).zipIdx number) ⟨left ++ right, position⟩
        = .ok tail s' ↔
      Readable left.length back ∧ tail = right ∧
        s' = ⟨left ++ right, if back.isEmpty then position else left.length + right.length⟩ := by
  cases back with
  | nil =>
    obtain rfl : right = [] := List.eq_nil_of_length_eq_zero hright
    constructor
    · intro h
      injection h with h h'
      exact ⟨fun h => absurd rfl h, h.symm, h'.symm⟩
    · rintro ⟨-, rfl, rfl⟩
      rfl
  | cons p back =>
    have hcount : (length : Int) - (left.length : Int) = right.length := by omega
    have hread : Stream.read right.length ⟨left ++ right, left.length⟩ = .ok tail s' ↔
        (right.length : Int) < Stream.offsetLimit ∧ tail = right ∧
          s' = ⟨left ++ right, left.length + right.length⟩ := by
      have hneg : ¬(right.length : Int) < -Stream.offsetLimit := by
        simp only [Stream.offsetLimit]
        omega
      unfold Stream.read
      simp only [hneg, false_or, Stream.rest, List.drop_left, Int.toNat_natCast, List.take_length,
        if_neg (Int.not_lt.2 (Int.natCast_nonneg right.length))]
      by_cases hlt : (right.length : Int) < Stream.offsetLimit
      · rw [if_neg (by omega), EStateM.Result.ok.injEq]
        exact ⟨fun h => ⟨hlt, h.1.symm, h.2.symm⟩, fun h => ⟨h.2.1.symm, h.2.2.symm⟩⟩
      · rw [if_pos (by omega)]
        refine ⟨fun h => ?_, fun h => absurd h.1 hlt⟩
        contradiction
    show (Stream.jump left.length >>= fun _ =>
      Stream.read (length - (left.length : Int)) : Streaming _) _ = _ ↔ _
    rw [hcount, Attempt.bind_eq_ok]
    unfold Readable
    rw [← hright]
    constructor
    · rintro ⟨_, _, hjump, h⟩
      obtain ⟨-, hstart, rfl⟩ := Stream.jump_eq_ok_iff.1 hjump
      obtain ⟨hlt, h⟩ := hread.1 h
      exact ⟨fun _ => ⟨hstart, hlt⟩, h⟩
    · rintro ⟨hreadable, h⟩
      obtain ⟨hstart, hlt⟩ := hreadable (List.cons_ne_nil _ _)
      exact ⟨(), _, Stream.jump_eq_ok_iff.2 ⟨Int.natCast_nonneg _, hstart, rfl⟩, hread.2 ⟨hlt, h⟩⟩

/-- Replacing the code of the script: what is behind it is read before and written after. -/
def replaceCode (length : Nat) (trailing : List (Segment × Nat)) (start : Int) (script : List UInt8) :
    Streaming Unit := do
  let tail ← match trailing with
    | [] => pure []
    | (first, _) :: _ => do
      Stream.jump first.offset
      Stream.read (length - first.offset)
  placeScript start script
  Stream.write tail
  Stream.truncate

theorem replaceCode_eq (length : Nat) (trailing : List (Segment × Nat)) (start : Int)
    (script : List UInt8) :
    replaceCode length trailing start script =
      readTail length trailing >>= fun tail => placeScript start script >>= fun _ =>
        Stream.write tail >>= fun _ => Stream.truncate := by
  cases trailing with
  | nil => rfl
  | cons first trailing => exact (bind_assoc _ _ _).symm

theorem leaves_replaceCode_iff {length number position : Nat} {left old right script bytes : List UInt8}
    {back : List Piece} {start : Int} (hstart : start = left.length) (haligned : left.length % 4 = 0)
    (hlength : length = (left ++ old).length + Piece.totalSize back)
    (hright : right.length = Piece.totalSize back) :
    Stream.Leaves (replaceCode length ((Piece.entries (left ++ old).length back).zipIdx number) start script)
        ⟨(left ++ old) ++ right, position⟩ bytes ↔
      Readable (left ++ old).length back ∧ start < Stream.offsetLimit ∧
        bytes = left ++ (padded script ++ right) := by
  have hfinish : ∀ rest, (Stream.write right >>= fun _ => Stream.truncate : Streaming Unit)
      ⟨(left ++ padded script) ++ rest, (left ++ padded script).length⟩
      = .ok () ⟨left ++ (padded script ++ right), (left ++ (padded script ++ right)).length⟩ := by
    intro rest
    refine Attempt.bind_eq_ok.2 ⟨(), _, Stream.write_append _ _ _, ?_⟩
    unfold Stream.truncate
    simp only [List.take_left]
    rw [List.append_assoc]
  rw [replaceCode_eq]
  constructor
  · rintro ⟨_, position', h⟩
    obtain ⟨tail, s, htail, h⟩ := Attempt.bind_eq_ok.1 h
    obtain ⟨hreadable, rfl, rfl⟩ := (readTail_eq_ok_iff hlength hright).1 htail
    obtain ⟨_, s, hplace, h⟩ := Attempt.bind_eq_ok.1 h
    rw [List.append_assoc] at hplace
    obtain ⟨hlt, rfl⟩ := (placeScript_eq_ok_iff hstart haligned).1 hplace
    have h' := h.symm.trans (hfinish _)
    injection h' with _ h'
    injection h' with h'
    exact ⟨hreadable, hlt, h'⟩
  · rintro ⟨hreadable, hlt, rfl⟩
    refine ⟨(), (left ++ (padded script ++ right)).length, Attempt.bind_eq_ok.2 ⟨right, _,
      (readTail_eq_ok_iff hlength hright).2 ⟨hreadable, rfl, rfl⟩, ?_⟩⟩
    rw [List.append_assoc]
    exact Attempt.bind_eq_ok.2 ⟨(), _,
      (placeScript_eq_ok_iff hstart haligned).2 ⟨hlt, rfl⟩, hfinish _⟩

/-! ## Injecting -/

/-- What injecting does once it is known by how much the script grows. -/
def resize (c : Container) (script : List UInt8) (index : Nat) (change : Int) : Editing Int :=
  let trailing := c.segments.zipIdx.drop (index + 1)
  let start := codeStart c.header.scriptStart
  if change = 0 then onBytes (placeScript start script) >>= fun _ => pure 0
  else
    (trailing.forM fun (segment, number) => correctSegment segment (c.segmentEnd number) change)
      >>= fun _ => onBytes (replaceCode c.bytes.length trailing start script)
      >>= fun _ => (trailing.forM fun (_, number) => moveEntry change number)
      >>= fun _ => pure change

theorem inject_eq {script : List UInt8} {w : Workspace} {index : Nat} {length : Int}
    (hindex : w.container.findSegment w.container.header.scriptStart = .ok index)
    (hlength : w.container.codeLength index = .ok length) :
    inject script w =
      (report (.resizing index ((w.container.segments[index]?).elim 0 Segment.id)
          (align script.length alignment - length)) >>= fun _ =>
        resize w.container script index (align script.length alignment - length)) w := by
  unfold inject
  show EStateM.bind _ _ w = _
  unfold EStateM.bind
  show EStateM.bind _ _ w = _
  unfold EStateM.bind
  rw [hindex]
  show EStateM.bind _ _ w = _
  unfold EStateM.bind
  rw [hlength]
  rfl

variable {i : Image} {front back : List Piece} {p : Piece} {script : List UInt8}

/-- The entries of a table up to that of a piece. -/
def tableFront (i : Image) (front : List Piece) (p : Piece) : List Segment :=
  Piece.entries i.base front ++ [⟨p.id, (i.base + Piece.totalSize front : Nat)⟩]

@[simp] theorem length_tableFront (i : Image) (front : List Piece) (p : Piece) :
    (tableFront i front p).length = front.length + 1 := by
  simp [tableFront]

theorem segments_eq (hpieces : i.pieces = front ++ p :: back) :
    i.segments = tableFront i front p
      ++ Piece.entries (i.base + Piece.totalSize front + p.size) back := by
  rw [Image.segments, hpieces, Piece.entries_append, Piece.entries, tableFront, List.append_assoc]
  rfl

theorem segments_getElem? (hpieces : i.pieces = front ++ p :: back) :
    i.container.segments[front.length]? = some ⟨p.id, (i.base + Piece.totalSize front : Nat)⟩ := by
  show i.segments[front.length]? = _
  simp [segments_eq hpieces, tableFront]

/-- The first segment that starts where a piece does is that of the piece. -/
theorem findSegment_eq (hpieces : i.pieces = front ++ p :: back) :
    i.container.findSegment ((i.base + Piece.totalSize front : Nat) : Int) = .ok front.length := by
  have hnone : (Piece.entries i.base front).findIdx?
      (·.offset = ((i.base + Piece.totalSize front : Nat) : Int)) = none := by
    refine List.findIdx?_eq_none_iff.2 fun s hs => ?_
    have := Piece.offset_lt_of_mem_entries hs
    simp only [decide_eq_false_iff_not]
    omega
  unfold Container.findSegment
  simp only [Image.container, segments_eq hpieces, tableFront, List.append_assoc, List.singleton_append,
    List.findIdx?_append, hnone, Option.none_or, List.findIdx?_cons, decide_true, if_true,
    Option.map_some, Piece.length_entries, Nat.zero_add]

theorem segmentEnd_eq (hpieces : i.pieces = front ++ p :: back) :
    i.container.segmentEnd front.length = (i.base + Piece.totalSize front + p.size : Nat) := by
  have hends : EndsOf i.container.segmentEnd (Piece.entries i.base front).length
      (i.base + Piece.totalSize front) (p :: back) := by
    refine endsOf_segmentEnd ?_ ?_
    · rw [← Piece.entries_append, ← hpieces]
      rfl
    · show i.bytes.length = _
      rw [Image.length_bytes, hpieces, Piece.totalSize_append]
      omega
  rw [Piece.length_entries] at hends
  rw [hends.1]
  rfl

theorem codeLength_eq (hpieces : i.pieces = front ++ p :: back) :
    i.container.codeLength front.length = .ok (p.code.length : Int) := by
  have hsegment : i.container.segments[front.length]?
      = some ⟨p.id, (i.base + Piece.totalSize front : Nat)⟩ := by
    show i.segments[front.length]? = _
    simp [segments_eq hpieces, tableFront]
  unfold Container.codeLength
  rw [hsegment]
  simp only [segmentEnd_eq hpieces, codeStart, Piece.size, Except.ok.injEq]
  omega

/-- What injecting needs: the code is within reach, and when the script changes its size, the segments
behind it can be moved, and so can their table entries. -/
structure Injectable (i : Image) (front : List Piece) (p : Piece) (back : List Piece)
    (script : List UInt8) : Prop where
  reachable : ((i.base + Piece.totalSize front + segmentHeaderSize : Nat) : Int) < Stream.offsetLimit
  pieces : p.growth script ≠ 0 →
    Piece.AllMovable (p.growth script) (i.base + Piece.totalSize front + p.size) back
  tail : p.growth script ≠ 0 → Readable (i.base + Piece.totalSize front + p.size) back
  entries : p.growth script ≠ 0 →
    Segment.AllMovable (p.growth script) (i.lead.length + tableEntrySize * (front.length + 1))
      (Piece.entries (i.base + Piece.totalSize front + p.size) back)

instance : Decidable (Injectable i front p back script) :=
  decidable_of_iff (_ ∧ _ ∧ _ ∧ _)
    ⟨fun ⟨reachable, pieces, tail, entries⟩ => ⟨reachable, pieces, tail, entries⟩,
      fun h => ⟨h.reachable, h.pieces, h.tail, h.entries⟩⟩

/-- Everything of an image up to the code of a piece. -/
def codeFront (i : Image) (front : List Piece) (p : Piece) : List UInt8 :=
  i.front ++ (front.flatMap Piece.bytes ++ (Word.toBytes p.own ++ p.filler))

theorem length_codeFront (i : Image) (front : List Piece) (p : Piece) :
    (codeFront i front p).length = i.base + Piece.totalSize front + segmentHeaderSize := by
  have := p.length_filler
  simp only [codeFront, List.length_append, Image.length_front, Piece.length_flatMap_bytes,
    Word.length_toBytes]
  omega

theorem bytes_eq_codeFront (hpieces : i.pieces = front ++ p :: back) :
    i.bytes = (codeFront i front p ++ p.code) ++ back.flatMap Piece.bytes := by
  rw [Image.bytes_eq, hpieces]
  simp [codeFront, Piece.bytes]

theorem base_injected (hpieces : i.pieces = front ++ p :: back) :
    (i.injected front p back script).base = i.base := by
  simp [Image.base, Image.injected, hpieces]

/-- The table of the new image: only the entries behind the script have moved. -/
theorem segments_injected (hpieces : i.pieces = front ++ p :: back) :
    (i.injected front p back script).segments =
      tableFront i front p
        ++ (Piece.entries (i.base + Piece.totalSize front + p.size) back).map
          (Segment.moved (p.growth script)) := by
  have hstart : ((i.base + Piece.totalSize front + (p.withScript script).size : Nat) : Int)
      = (i.base + Piece.totalSize front + p.size : Nat) + p.growth script := by
    simp only [Piece.size, Piece.withScript, Piece.growth]
    omega
  rw [Image.segments, base_injected hpieces]
  show Piece.entries i.base (front ++ p.withScript script :: back.map _) = _
  rw [Piece.entries_append, Piece.entries, Piece.entries_moved hstart, tableFront, List.append_assoc]
  rfl

theorem bytes_injected :
    (i.injected front p back script).bytes =
      i.lead ++ ((i.injected front p back script).segments.flatMap Segment.bytes
        ++ (i.gap ++ (front.flatMap Piece.bytes ++ (Word.toBytes p.own ++ (p.filler
          ++ (padded script ++ (back.map (Piece.moved (p.growth script))).flatMap Piece.bytes)))))) := by
  rw [Image.bytes]
  simp [Image.injected, Piece.bytes, Piece.withScript]

/-- A script of the size it had before changes its own code only. -/
theorem gives_placeScript_iff (hpieces : i.pieces = front ++ p :: back)
    (hscript : i.header.scriptStart = (i.base + Piece.totalSize front : Nat))
    (haligned : (i.base + Piece.totalSize front) % 4 = 0) (hgrowth : p.growth script = 0)
    {notices : List Notice} {u : Unit} :
    Gives (onBytes (placeScript (codeStart i.header.scriptStart) script)) ⟨i.container, notices⟩ u c ↔
      ((i.base + Piece.totalSize front + segmentHeaderSize : Nat) : Int) < Stream.offsetLimit ∧
        c = (i.injected front p back script).container := by
  have hstart : codeStart i.header.scriptStart = (codeFront i front p).length := by
    rw [length_codeFront, hscript, codeStart]
    omega
  have hlength : (padded script).length = p.code.length := by
    simp only [Piece.growth] at hgrowth
    omega
  have haligned' : (codeFront i front p).length % 4 = 0 := by
    rw [length_codeFront, segmentHeaderSize]
    omega
  have hresult : ({ i.container with
        bytes := (codeFront i front p ++ padded script)
          ++ (p.code ++ back.flatMap Piece.bytes).drop (padded script).length } : Container)
      = (i.injected front p back script).container := by
    have hsegments : (i.injected front p back script).segments = i.segments := by
      rw [segments_injected hpieces, segments_eq hpieces, hgrowth, Segment.map_moved_zero]
    have hdrop : (p.code ++ back.flatMap Piece.bytes).drop (padded script).length
        = back.flatMap Piece.bytes := by
      rw [hlength, List.drop_left]
    rw [Image.container, Image.container, bytes_injected, hsegments, hgrowth, Piece.map_moved_zero,
      hdrop]
    simp only [codeFront, Image.front, List.append_assoc]
    rfl
  rw [gives_onBytes_iff, ← length_codeFront i front p, ← hstart, ← hresult]
  show (∃ s, placeScript _ script ⟨i.bytes, 0⟩ = _ ∧ _) ↔ _
  rw [bytes_eq_codeFront hpieces, List.append_assoc]
  constructor
  · rintro ⟨_, h, rfl⟩
    obtain ⟨hlt, rfl⟩ := (placeScript_eq_ok_iff hstart haligned').1 h
    exact ⟨hlt, rfl⟩
  · rintro ⟨hlt, rfl⟩
    exact ⟨_, (placeScript_eq_ok_iff hstart haligned').2 ⟨hlt, rfl⟩, rfl⟩

theorem trailing_eq (hpieces : i.pieces = front ++ p :: back) :
    i.segments.zipIdx.drop (front.length + 1)
      = (Piece.entries (i.base + Piece.totalSize front + p.size) back).zipIdx (front.length + 1) := by
  have hlength : (tableFront i front p).zipIdx.length = front.length + 1 := by simp
  rw [segments_eq hpieces, List.zipIdx_append, List.drop_left' hlength, length_tableFront, Nat.zero_add]

/-- A script of another size moves what is behind it. -/
theorem gives_moveAll_iff (hpieces : i.pieces = front ++ p :: back)
    (htable : i.header.tableStart = i.lead.length)
    (hscript : i.header.scriptStart = (i.base + Piece.totalSize front : Nat))
    (haligned : (i.base + Piece.totalSize front) % 4 = 0)
    {notices : List Notice} {u : Unit} :
    Gives (((i.segments.zipIdx.drop (front.length + 1)).forM fun (segment, number) =>
          correctSegment segment (i.container.segmentEnd number) (p.growth script))
        >>= fun _ => onBytes (replaceCode i.bytes.length (i.segments.zipIdx.drop (front.length + 1))
          (codeStart i.header.scriptStart) script)
        >>= fun _ => (i.segments.zipIdx.drop (front.length + 1)).forM fun (_, number) =>
          moveEntry (p.growth script) number) ⟨i.container, notices⟩ u c ↔
      (Piece.AllMovable (p.growth script) (i.base + Piece.totalSize front + p.size) back ∧
        (Readable (i.base + Piece.totalSize front + p.size) back ∧
          ((i.base + Piece.totalSize front + segmentHeaderSize : Nat) : Int) < Stream.offsetLimit) ∧
        Segment.AllMovable (p.growth script) (i.lead.length + tableEntrySize * (front.length + 1))
          (Piece.entries (i.base + Piece.totalSize front + p.size) back)) ∧
        c = (i.injected front p back script).container := by
  have hstart : codeStart i.header.scriptStart = (codeFront i front p).length := by
    rw [length_codeFront, hscript, codeStart]
    omega
  have haligned' : (codeFront i front p).length % 4 = 0 := by
    rw [length_codeFront, segmentHeaderSize]
    omega
  have hleft : (codeFront i front p ++ p.code).length = i.base + Piece.totalSize front + p.size := by
    rw [List.length_append, length_codeFront, Piece.size]
    omega
  have hlength : i.bytes.length = (codeFront i front p ++ p.code).length + Piece.totalSize back := by
    rw [bytes_eq_codeFront hpieces, List.length_append, Piece.length_flatMap_bytes]
  have hright : ((back.map (Piece.moved (p.growth script))).flatMap Piece.bytes).length = Piece.totalSize back := by
    rw [Piece.length_flatMap_bytes, Piece.totalSize_map_moved]
  have hends : EndsOf i.container.segmentEnd (front.length + 1)
      (i.base + Piece.totalSize front + p.size) back := by
    rw [← length_tableFront i front p]
    refine endsOf_segmentEnd (segments_eq hpieces) ?_
    show i.bytes.length = _
    rw [Image.length_bytes, hpieces, Piece.totalSize_append, Piece.totalSize_cons]
    omega
  let back' := Piece.entries (i.base + Piece.totalSize front + p.size) back
  let rest := i.gap ++ (front.flatMap Piece.bytes ++ (Word.toBytes p.own ++ (p.filler
    ++ (padded script ++ (back.map (Piece.moved (p.growth script))).flatMap Piece.bytes))))
  have hcorrect : ∀ {u c}, Gives
      (((Piece.entries (i.base + Piece.totalSize front + p.size) back).zipIdx (front.length + 1)).forM
        fun (segment, number) => correctSegment segment (i.container.segmentEnd number) (p.growth script))
      ⟨i.container, notices⟩ u c ↔
        Piece.AllMovable (p.growth script) (i.base + Piece.totalSize front + p.size) back ∧
          c = { i.container with bytes := (codeFront i front p ++ p.code)
            ++ (back.map (Piece.moved (p.growth script))).flatMap Piece.bytes } := by
    intro u c
    rw [← hleft]
    exact gives_correctSegments_iff (bytes_eq_codeFront hpieces) (by rw [hleft]; exact hends)
  have hreplace : ∀ {u c notices}, Gives (onBytes (replaceCode i.bytes.length
        ((Piece.entries (i.base + Piece.totalSize front + p.size) back).zipIdx (front.length + 1))
        (codeStart i.header.scriptStart) script))
      ⟨{ i.container with bytes := (codeFront i front p ++ p.code)
        ++ (back.map (Piece.moved (p.growth script))).flatMap Piece.bytes }, notices⟩ u c ↔
      (Readable (i.base + Piece.totalSize front + p.size) back ∧
        ((i.base + Piece.totalSize front + segmentHeaderSize : Nat) : Int) < Stream.offsetLimit) ∧
      c = { i.container with bytes := codeFront i front p
        ++ (padded script ++ (back.map (Piece.moved (p.growth script))).flatMap Piece.bytes) } := by
    intro u c notices
    rw [← hleft, ← length_codeFront i front p, ← hstart, gives_onBytes_iff]
    constructor
    · rintro ⟨s, h, rfl⟩
      obtain ⟨hreadable, hlt, hs⟩ :=
        (leaves_replaceCode_iff hstart haligned' hlength hright).1 ⟨u, s.position, h⟩
      exact ⟨⟨hreadable, hlt⟩, by rw [hs]⟩
    · rintro ⟨⟨hreadable, hlt⟩, rfl⟩
      obtain ⟨u, position, h⟩ :=
        (leaves_replaceCode_iff hstart haligned' hlength hright).2 ⟨hreadable, hlt, rfl⟩
      exact ⟨_, h, rfl⟩
  have hentries : ∀ {u c notices}, Gives
      (((Piece.entries (i.base + Piece.totalSize front + p.size) back).zipIdx (front.length + 1)).forM
        fun (_, number) => moveEntry (p.growth script) number)
      ⟨{ i.container with bytes := codeFront i front p
        ++ (padded script ++ (back.map (Piece.moved (p.growth script))).flatMap Piece.bytes) }, notices⟩ u c ↔
      Segment.AllMovable (p.growth script) (i.lead.length + tableEntrySize * (front.length + 1))
          (Piece.entries (i.base + Piece.totalSize front + p.size) back) ∧
        c = (i.injected front p back script).container := by
    intro u c notices
    have hcontainer : ({ i.container with bytes := codeFront i front p
          ++ (padded script ++ (back.map (Piece.moved (p.growth script))).flatMap Piece.bytes) } : Container)
        = ⟨i.header, tableFront i front p ++ back', i.lead ++ ((tableFront i front p ++ back').flatMap
            Segment.bytes ++ rest)⟩ := by
      rw [Image.container, segments_eq hpieces]
      simp only [codeFront, Image.front, segments_eq hpieces, List.append_assoc, rest, back']
    have hresult : (i.injected front p back script).container
        = ⟨i.header, tableFront i front p ++ back'.map (Segment.moved (p.growth script)),
          i.lead ++ ((tableFront i front p ++ back'.map (Segment.moved (p.growth script))).flatMap Segment.bytes
            ++ rest)⟩ := by
      rw [Image.container, bytes_injected, segments_injected hpieces]
      rfl
    rw [← length_tableFront i front p, hresult]
    exact gives_moveEntries_iff htable hcontainer
  rw [trailing_eq hpieces]
  refine (gives_then_iff hcorrect fun _ => gives_then_iff hreplace fun _ => hentries).trans ?_
  simp only [and_assoc]

/-- **What injecting gives.** In the container of an image whose script is the piece between `front` and
`back`, a script takes the place of that piece's code, and what is behind moves along. -/
theorem gives_inject_iff {change : Int} (hpieces : i.pieces = front ++ p :: back)
    (htable : i.header.tableStart = i.lead.length)
    (hscript : i.header.scriptStart = (i.base + Piece.totalSize front : Nat))
    (haligned : (i.base + Piece.totalSize front) % 4 = 0) (hw : w.container = i.container) :
    Gives (inject script) w change c ↔
      Injectable i front p back script ∧ change = p.growth script ∧
        c = (i.injected front p back script).container := by
  obtain ⟨_, notices⟩ := w
  subst hw
  have hindex : i.container.findSegment i.header.scriptStart = .ok front.length := by
    rw [hscript]
    exact findSegment_eq hpieces
  have hgrowth : align script.length alignment - (p.code.length : Int) = p.growth script := by
    rw [Piece.growth, length_padded]
  have hresize : ∀ {notices}, Gives (resize i.container script front.length (p.growth script))
      ⟨i.container, notices⟩ change c ↔
        Injectable i front p back script ∧ change = p.growth script ∧
          c = (i.injected front p back script).container := by
    intro notices
    unfold resize
    by_cases hzero : p.growth script = 0
    · rw [if_pos hzero]
      refine (gives_then_iff (Q := change = 0 ∧ c = (i.injected front p back script).container)
        (gives_placeScript_iff hpieces hscript haligned hzero) fun _ => gives_pure_iff).trans ?_
      rw [hzero]
      exact and_congr_left fun _ =>
        ⟨fun h => ⟨h, (absurd hzero ·), (absurd hzero ·), (absurd hzero ·)⟩, fun h => h.reachable⟩
    · rw [if_neg hzero]
      have hall := gives_then_iff (w := ⟨i.container, notices⟩) (f := fun _ => pure (p.growth script))
        (Q := change = p.growth script ∧ c = (i.injected front p back script).container)
        (gives_moveAll_iff hpieces htable hscript haligned) fun _ => gives_pure_iff
      simp only [bind_assoc] at hall
      refine hall.trans (and_congr_left fun _ => ?_)
      constructor
      · rintro ⟨hpieces, ⟨htail, hreach⟩, hentries⟩
        exact ⟨hreach, fun _ => hpieces, fun _ => htail, fun _ => hentries⟩
      · rintro ⟨hreach, hpieces, htail, hentries⟩
        exact ⟨hpieces hzero, ⟨htail hzero, hreach⟩, hentries hzero⟩
  have hreport : ∀ {u c'} {n : Notice}, Gives (report n) ⟨i.container, notices⟩ u c' ↔
      True ∧ c' = i.container := by
    intro u c' n
    rw [true_and]
    exact gives_report_iff
  unfold Gives
  rw [inject_eq hindex (codeLength_eq hpieces), hgrowth]
  exact (gives_then_iff hreport fun _ => hresize).trans (by rw [true_and])

end Workspace
end Storyboard
