/-
Containers as the pieces they are made of.

A `Piece` is a segment with its bytes, and an `Image` is what a container consists of: the bytes before the
table, the table, the bytes behind it, and one piece after another. `Image.container` puts the parts
together, the offsets of the table being where the pieces start.
-/
import Mathlib.Algebra.Ring.Nat
import Storyboard.Proofs.Relocation

namespace Storyboard

/-! ## Segments -/

namespace Segment

/-- Both numbers of a table entry fit a word. -/
def Fits (s : Segment) : Prop := Word.Fits s.id ∧ Word.Fits s.offset

instance (s : Segment) : Decidable s.Fits := inferInstanceAs (Decidable (_ ∧ _))

/-- The bytes of a table entry. -/
def bytes (s : Segment) : List UInt8 := Word.toBytes s.id ++ Word.toBytes s.offset

@[simp] theorem length_bytes (s : Segment) : s.bytes.length = tableEntrySize := by
  simp [bytes, tableEntrySize]

@[simp] theorem length_flatMap_bytes (segments : List Segment) :
    (segments.flatMap Segment.bytes).length = tableEntrySize * segments.length := by
  induction segments with
  | nil => rfl
  | cons s segments ih => simp [ih, Nat.mul_succ, Nat.add_comm]

/-- The table entry of a segment after it has moved. -/
def moved (change : Int) (s : Segment) : Segment := { s with offset := s.offset + change }

theorem moved_zero (s : Segment) : s.moved 0 = s := by simp [moved]

theorem map_moved_zero (segments : List Segment) : segments.map (moved 0) = segments :=
  List.map_id'' moved_zero segments

end Segment

/-- A segment with its bytes: its identifier, which only the table has; its own offset, with which it
starts; the rest of its header; and its records and texts. -/
structure Piece where
  id : Int
  own : Int
  filler : List UInt8
  code : List UInt8
  id_fits : Word.Fits id
  own_fits : Word.Fits own
  length_filler : filler.length + 4 = segmentHeaderSize

namespace Piece

def bytes (p : Piece) : List UInt8 := Word.toBytes p.own ++ (p.filler ++ p.code)

def size (p : Piece) : Nat := segmentHeaderSize + p.code.length

/-- How many bytes several pieces have. -/
def totalSize (ps : List Piece) : Nat := (ps.map size).sum

/-- The piece after it has moved by `change`. -/
def moved (change : Int) (p : Piece) : Piece :=
  { p with
    own := Word.wrap (p.own + change)
    code := moveCode change p.code
    own_fits := Word.fits_wrap _ }

@[simp] theorem length_bytes (p : Piece) : p.bytes.length = p.size := by
  have h := p.length_filler
  simp only [bytes, size, List.length_append, Word.length_toBytes]
  omega

/-- A segment header's worth of bytes or more are those of a piece. -/
theorem exists_bytes {id : Int} {bytes : List UInt8} (hid : Word.Fits id)
    (h : segmentHeaderSize ≤ bytes.length) : ∃ p : Piece, p.id = id ∧ p.bytes = bytes := by
  simp only [segmentHeaderSize] at h
  obtain ⟨own, rest, hown, rfl⟩ := Word.exists_toBytes (show 4 ≤ bytes.length by omega)
  simp only [List.length_append, Word.length_toBytes] at h
  refine ⟨⟨id, own, rest.take 0x34, rest.drop 0x34, hid, hown, ?_⟩, rfl, ?_⟩
  · simp only [List.length_take, segmentHeaderSize]
    omega
  · rw [Piece.bytes, List.take_append_drop]

@[simp] theorem size_moved (change : Int) (p : Piece) : (p.moved change).size = p.size := by
  simp [size, moved]

theorem size_pos (p : Piece) : 0 < p.size := by
  simp only [size, segmentHeaderSize]
  omega

theorem moved_zero (p : Piece) : p.moved 0 = p := by
  have hown : Word.wrap (p.own + 0) = p.own := by rw [Int.add_zero, Word.wrap_of_fits p.own_fits]
  simp only [moved, hown, moveCode_zero]

theorem map_moved_zero (ps : List Piece) : ps.map (moved 0) = ps := List.map_id'' moved_zero ps

/-- Moving a piece by one amount and then by another moves it by both. -/
theorem moved_moved (a b : Int) (p : Piece) : (p.moved a).moved b = p.moved (a + b) := by
  have hown : Word.wrap (Word.wrap (p.own + a) + b) = Word.wrap (p.own + (a + b)) := by
    rw [Word.wrap_wrap_add, Int.add_assoc]
  simp only [moved, hown, moveCode_moveCode]

@[simp] theorem totalSize_cons (p : Piece) (ps : List Piece) : totalSize (p :: ps) = p.size + totalSize ps := by
  simp [totalSize]

@[simp] theorem totalSize_append (ps ps' : List Piece) :
    totalSize (ps ++ ps') = totalSize ps + totalSize ps' := by
  simp [totalSize]

@[simp] theorem totalSize_map_moved (change : Int) (ps : List Piece) :
    totalSize (ps.map (moved change)) = totalSize ps := by
  induction ps with
  | nil => rfl
  | cons p ps ih => simp [ih]

@[simp] theorem length_flatMap_bytes (ps : List Piece) : (ps.flatMap bytes).length = totalSize ps := by
  induction ps with
  | nil => rfl
  | cons p ps ih => simp [ih]

/-- Pieces start with the own offset of the first one. -/
theorem take_flatMap_bytes {ps ps' : List Piece} (h : ps'.head?.map own = ps.head?.map own) :
    (ps'.flatMap bytes).take 4 = (ps.flatMap bytes).take 4 := by
  have hcons : ∀ (p : Piece) ps, ((p :: ps).flatMap bytes).take 4 = Word.toBytes p.own := by
    intro p ps
    rw [List.flatMap_cons, bytes, List.append_assoc]
    exact List.take_left' (Word.length_toBytes _)
  cases ps with
  | nil =>
    obtain rfl := List.head?_eq_none_iff.1 (Option.map_eq_none_iff.1 h)
    rfl
  | cons p ps =>
    cases ps' with
    | nil => contradiction
    | cons p' ps' => rw [hcons, hcons, Option.some.inj h]

theorem le_length_flatMap_bytes {ps : List Piece} (h : ps ≠ []) :
    segmentHeaderSize ≤ (ps.flatMap bytes).length := by
  obtain ⟨p, ps, rfl⟩ := List.exists_cons_of_ne_nil h
  rw [length_flatMap_bytes, totalSize_cons, size]
  omega

/-- The table entries of pieces of which the first one starts at `start`. -/
def entries : (start : Nat) → List Piece → List Segment
  | _, [] => []
  | start, p :: ps => ⟨p.id, start⟩ :: entries (start + p.size) ps

@[simp] theorem length_entries (start : Nat) (ps : List Piece) : (entries start ps).length = ps.length := by
  induction ps generalizing start with
  | nil => rfl
  | cons p ps ih => simp [entries, ih]

theorem entries_append (start : Nat) (ps ps' : List Piece) :
    entries start (ps ++ ps') = entries start ps ++ entries (start + totalSize ps) ps' := by
  induction ps generalizing start with
  | nil => simp [entries, totalSize]
  | cons p ps ih => simp [entries, ih, Nat.add_assoc]

theorem le_offset_of_mem_entries {start : Nat} {ps : List Piece} {s : Segment} (h : s ∈ entries start ps) :
    start ≤ s.offset := by
  induction ps generalizing start with
  | nil => simp [entries] at h
  | cons p ps ih =>
    rcases List.mem_cons.1 h with rfl | h
    · exact Int.le_refl _
    · have := ih h
      omega

/-- Behind the start of a piece there is room for its segment header. -/
theorem room_of_mem_entries {start : Nat} {ps : List Piece} {s : Segment} (h : s ∈ entries start ps) :
    s.offset + segmentHeaderSize ≤ (start + totalSize ps : Nat) := by
  induction ps generalizing start with
  | nil => simp [entries] at h
  | cons p ps ih =>
    rw [totalSize_cons, size]
    rcases List.mem_cons.1 h with rfl | h
    · simp only
      omega
    · have := ih h
      rw [size] at this
      omega

/-- A piece starts before those behind it. -/
theorem offset_lt_of_mem_entries {start : Nat} {ps : List Piece} {s : Segment} (h : s ∈ entries start ps) :
    s.offset < (start + totalSize ps : Nat) := by
  have := room_of_mem_entries h
  simp only [segmentHeaderSize] at this
  omega

/-- A table entry tells where its piece starts. -/
theorem exists_of_getElem?_entries {start j : Nat} {ps : List Piece} {s : Segment}
    (h : (entries start ps)[j]? = some s) :
    ∃ front p back, ps = front ++ p :: back ∧ front.length = j ∧
      s = ⟨p.id, (start + totalSize front : Nat)⟩ := by
  induction ps generalizing start j with
  | nil => simp [entries] at h
  | cons p ps ih =>
    cases j with
    | zero =>
      simp only [entries, List.getElem?_cons_zero, Option.some.injEq] at h
      exact ⟨[], p, ps, rfl, rfl, h.symm⟩
    | succ j =>
      obtain ⟨front, p', back, rfl, rfl, rfl⟩ := ih (by simpa [entries] using h)
      exact ⟨p :: front, p', back, rfl, rfl, by simp [Nat.add_assoc]⟩

/-- Of two different pieces, one is before the other. -/
theorem before_or_behind {ps ps' qs qs' : List Piece} {p q : Piece} (h : ps ++ p :: qs = ps' ++ q :: qs')
    (hlength : ps'.length ≠ ps.length) :
    (∃ mid, ps = ps' ++ q :: mid ∧ qs' = mid ++ p :: qs) ∨
      ∃ mid, ps' = ps ++ p :: mid ∧ qs = mid ++ q :: qs' := by
  rcases List.append_eq_append_iff.1 h with ⟨mid, rfl, hrest⟩ | ⟨mid, rfl, hrest⟩
  · cases mid with
    | nil => simp at hlength
    | cons _ mid =>
      injection hrest with hp hqs
      exact .inr ⟨mid, by rw [hp], hqs⟩
  · cases mid with
    | nil => simp at hlength
    | cons _ mid =>
      injection hrest with hq hqs
      exact .inl ⟨mid, by rw [hq], hqs⟩

/-- Where pieces move, so do their table entries. -/
theorem entries_moved {start start' : Nat} {change : Int} (h : (start' : Int) = start + change)
    (ps : List Piece) :
    entries start' (ps.map (moved change)) = (entries start ps).map (Segment.moved change) := by
  induction ps generalizing start start' with
  | nil => rfl
  | cons p ps ih =>
    have hnext : ((start' + p.size : Nat) : Int) = (start + p.size : Nat) + change := by omega
    simp only [List.map_cons, entries, size_moved, ih hnext, Segment.moved, h]
    rfl

end Piece

/-! ## Images -/

/-- What a container consists of: its header fields, the bytes before the table, those between the table
and the first segment, and the segments. -/
structure Image where
  header : Header
  lead : List UInt8
  gap : List UInt8
  pieces : List Piece

namespace Image

/-- Where the first segment starts. -/
def base (i : Image) : Nat := i.lead.length + tableEntrySize * i.pieces.length + i.gap.length

def segments (i : Image) : List Segment := Piece.entries i.base i.pieces

def bytes (i : Image) : List UInt8 :=
  i.lead ++ (i.segments.flatMap Segment.bytes ++ (i.gap ++ i.pieces.flatMap Piece.bytes))

def container (i : Image) : Container := ⟨i.header, i.segments, i.bytes⟩

/-- Everything before the first segment. -/
def front (i : Image) : List UInt8 := i.lead ++ (i.segments.flatMap Segment.bytes ++ i.gap)

theorem bytes_eq (i : Image) : i.bytes = i.front ++ i.pieces.flatMap Piece.bytes := by
  simp [bytes, front]

@[simp] theorem length_front (i : Image) : i.front.length = i.base := by
  simp only [front, base, segments, List.length_append, Segment.length_flatMap_bytes, Piece.length_entries]
  omega

theorem length_bytes (i : Image) : i.bytes.length = i.base + Piece.totalSize i.pieces := by
  rw [bytes_eq, List.length_append, length_front, Piece.length_flatMap_bytes]

/-- The bytes of an image from one of its pieces on. -/
theorem bytes_eq_from {i : Image} {front back : List Piece} {p : Piece} (h : i.pieces = front ++ p :: back) :
    ∃ left, i.bytes = left ++ (p.bytes ++ back.flatMap Piece.bytes) ∧
      left.length = i.base + Piece.totalSize front := by
  refine ⟨i.front ++ front.flatMap Piece.bytes, ?_, ?_⟩
  · rw [bytes_eq, h]
    simp
  · rw [List.length_append, length_front, Piece.length_flatMap_bytes]

/-- The bytes of an image around one of its pieces. -/
theorem bytes_eq_around {i : Image} {front back : List Piece} {p : Piece}
    (h : i.pieces = front ++ p :: back) :
    ∃ left right, i.bytes = left ++ (p.bytes ++ right) ∧ left.length = i.base + Piece.totalSize front := by
  obtain ⟨left, hbytes, hleft⟩ := bytes_eq_from h
  exact ⟨left, _, hbytes, hleft⟩

end Image
end Storyboard
