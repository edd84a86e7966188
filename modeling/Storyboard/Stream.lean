/-
A stream of bytes with a position, read and written in place.

The position may lie beyond the end: nothing is read there, and a write fills the gap with zeros.
An operation that fails leaves the stream as it is by then. The operations "elsewhere" come back to
the position they started from whether they fail or not.

What bounds a stream is that its offsets are signed words of 64 bits. Memory is taken to have room for
whatever they allow.
-/
import Storyboard.Attempt
import Storyboard.Settings
import Storyboard.Word

namespace Storyboard

/-- Bytes, and how many of them are behind the reader. -/
structure Stream where
  bytes : List UInt8
  position : Nat := 0
deriving DecidableEq

/-- Work on a stream that may fail. -/
abbrev Streaming (α : Type) := Attempt Stream α

namespace Stream

variable {α : Type}

/-- Offsets and counts lie below this in either direction. -/
def offsetLimit : Int := 0x8000000000000000

/-- Goes to a position, which must not be negative. -/
def jump (target : Int) : Streaming Unit := fun s =>
  if target < 0 then .error (.negativeOffset target) s
  else if offsetLimit ≤ target then .error .offsetOverflow s
  else .ok () { s with position := target.toNat }

/-- Works somewhere and comes back. -/
def returning (work : Streaming α) : Streaming α := fun s =>
  Attempt.within id (fun _ s' => { s' with position := s.position }) work s

/-- Works at a given position and comes back. -/
def elsewhere (target : Int) (work : Streaming α) : Streaming α :=
  returning do jump target; work

/-- The bytes from the position on. -/
def rest (s : Stream) : List UInt8 := s.bytes.drop s.position

/-- Reads up to `count` bytes, or all that is left when `count` is negative. -/
def read (count : Int) : Streaming (List UInt8) := fun s =>
  if count < -offsetLimit ∨ offsetLimit ≤ count then .error .offsetOverflow s
  else
    let found := if count < 0 then s.rest else s.rest.take count.toNat
    .ok found { s with position := s.position + found.length }

/-- Reads `count` bytes, all of which must be there. -/
def readExactly (count : Int) : Streaming (List UInt8) := do
  let start := (← get).position
  let found ← read count
  if (found.length : Int) = count then return found
  else throw (.endOfStream start count found.length)

/-- Reads a word. -/
def readWord : Streaming Int := do
  let found ← readExactly 4
  return Word.ofList found

def readWordAt (target : Int) : Streaming Int := elsewhere target readWord

/-- Reads a text up to its final zero, which must be among the next bytes that are looked at; it is decoded
with one of `decoders`. -/
def readTextWith (decoders : Settings.Decoders) (settings : Settings) : Streaming Text := fun s =>
  match settings.scanLimit with
  | none => .error .settingMissing s
  | some limit =>
    let window := s.rest.take limit.toNat
    let spelled := window.takeWhile (· ≠ 0)
    if spelled.length = window.length then
      .error (.unterminatedText s.position limit) { s with position := s.position + window.length }
    else
      let after := { s with position := s.position + spelled.length + 1 }
      match settings.decodeTextWith decoders spelled with
      | .ok t => .ok t after
      | .error e => .error e after

def readTextAtWith (decoders : Settings.Decoders) (settings : Settings) (target : Int) : Streaming Text :=
  elsewhere target (readTextWith decoders settings)

def readText (settings : Settings) : Streaming Text := readTextWith Settings.decoders settings

def readTextAt (settings : Settings) (target : Int) : Streaming Text :=
  elsewhere target (readText settings)

/-- Zeros at the end of a list up to a length. -/
def padTo (length : Nat) (bytes : List UInt8) : List UInt8 :=
  bytes ++ List.replicate (length - bytes.length) 0

/-- Replaces the bytes from `position` on with `data`, over the end if need be. -/
def overwrite (bytes : List UInt8) (position : Nat) (data : List UInt8) : List UInt8 :=
  (padTo position bytes).take position ++ data ++ bytes.drop (position + data.length)

/-- No stream has more bytes than this: of what can be addressed, 34 bytes are needed beside them. -/
def lengthLimit : Nat := 0x7FFFFFFFFFFFFFDD

/-- Why no stream ends at `stop`, which is beyond the limit. -/
def gapFault (stop : Nat) : Error :=
  if (stop : Int) + 1 = offsetLimit then .endOverflow else .offsetOverflow

/-- Writes bytes; writing none changes nothing. Behind a gap, they must not end beyond the limit. -/
def write (data : List UInt8) : Streaming Unit := fun s =>
  if data.isEmpty then .ok () s
  else if s.bytes.length < s.position ∧ lengthLimit < s.position + data.length then
    .error (gapFault (s.position + data.length)) s
  else .ok () ⟨overwrite s.bytes s.position data, s.position + data.length⟩

/-- Writes so many zeros; a negative count asks for none. -/
def writeZeros (count : Int) : Streaming Unit :=
  if count < -offsetLimit ∨ offsetLimit ≤ count then throw .offsetOverflow
  else if (lengthLimit : Int) < count then throw .outOfMemory
  else write (List.replicate count.toNat 0)

/-- Writes a word, which the number must fit. -/
def writeWord (v : Int) : Streaming Unit :=
  if Word.Fits v then write (Word.toBytes v) else throw .wordOverflow

def writeWordAt (target v : Int) : Streaming Unit := elsewhere target (writeWord v)

/-- Writes a text and its final zero, and tells how many bytes that took. -/
def writeText (settings : Settings) (t : Text) : Streaming Nat := do
  let data ← Attempt.ofExcept (settings.encodeText t)
  write data
  write [0]
  return data.length + 1

/-- How many bytes `position` lacks to a multiple of `amount`. -/
def paddingOf (position amount : Nat) : Nat := (amount - position % amount) % amount

theorem paddingOf_eq_zero {position amount : Nat} (h : position % amount = 0) : paddingOf position amount = 0 := by
  rw [paddingOf, h, Nat.sub_zero, Nat.mod_self]

theorem paddingOf_eq_sub {position amount : Nat} (hamount : 0 < amount) (h : position % amount ≠ 0) :
    paddingOf position amount = amount - position % amount :=
  Nat.mod_eq_of_lt (Nat.sub_lt hamount (Nat.pos_of_ne_zero h))

/-- One byte further on one byte less is lacking, except at a multiple. -/
theorem paddingOf_succ {position amount : Nat} (hamount : 0 < amount) (h : position % amount ≠ 0) :
    paddingOf position amount = paddingOf (position + 1) amount + 1 := by
  have hlt : position % amount < amount := Nat.mod_lt position hamount
  have hnext : (position + 1) % amount = (position % amount + 1) % amount := (Nat.mod_add_mod ..).symm
  rw [paddingOf_eq_sub hamount h]
  by_cases hlast : position % amount + 1 = amount
  · rw [hlast, Nat.mod_self] at hnext
    rw [paddingOf_eq_zero hnext]
    omega
  · rw [Nat.mod_eq_of_lt (show position % amount + 1 < amount by omega)] at hnext
    rw [paddingOf_eq_sub hamount (by omega), hnext]
    omega

/-- Counts on, zero by zero, up to a multiple of `amount`. -/
def countPadding (position amount : Nat) (hamount : 0 < amount) (count : Nat) : Nat :=
  if h : (position + count) % amount = 0 then count else countPadding position amount hamount (count + 1)
  termination_by paddingOf (position + count) amount
  decreasing_by exact (paddingOf_succ hamount h).symm ▸ Nat.lt_succ_self _

/-- Counting finds how many bytes are lacking. -/
theorem countPadding_eq (position amount : Nat) (hamount : 0 < amount) (count : Nat) :
    countPadding position amount hamount count = count + paddingOf (position + count) amount := by
  fun_induction countPadding position amount hamount count with
  | case1 count h => rw [paddingOf_eq_zero h, Nat.add_zero]
  | case2 count h ih => rw [ih, paddingOf_succ hamount h, Nat.add_assoc, Nat.add_comm 1, Nat.add_assoc]

/-- Writes zeros up to the next multiple of `amount`; amounts below one ask for nothing. -/
def pad (amount : Int) : Streaming Unit := fun s =>
  if h : amount < 1 then .ok () s
  else writeZeros (countPadding s.position amount.toNat (by omega) 0) s

/-- Cuts off what follows the position. -/
def truncate : Streaming Unit := fun s => .ok () { s with bytes := s.bytes.take s.position }

theorem bytes_jump (target : Int) (s : Stream) : (Attempt.final (jump target s)).bytes = s.bytes := by
  unfold jump
  split
  · rfl
  · split <;> rfl

/-- All bytes are there, or it is told how many are. -/
theorem readExactly_eq {count : Nat} (hcount : (count : Int) < offsetLimit) (s : Stream) :
    readExactly count s =
      if count ≤ s.rest.length then .ok (s.rest.take count) { s with position := s.position + count }
      else .error (.endOfStream s.position count s.rest.length) { s with position := s.position + s.rest.length } := by
  have hread : read count s
      = .ok (s.rest.take count) { s with position := s.position + (s.rest.take count).length } := by
    simp only [offsetLimit] at hcount
    unfold read
    rw [if_neg (by simp only [offsetLimit]; omega)]
    dsimp only
    rw [if_neg (Int.not_lt.2 (Int.natCast_nonneg _)), Int.toNat_natCast]
  show EStateM.bind (read count) _ s = _
  unfold EStateM.bind
  rw [hread]
  dsimp only
  by_cases h : count ≤ s.rest.length
  · rw [if_pos h, List.length_take_of_le h, if_pos rfl]
    rfl
  · have hshort : s.rest.take count = s.rest := List.take_of_length_le (by omega)
    rw [if_neg h, hshort, if_neg (by omega)]
    rfl

/-- A word takes four bytes. -/
theorem readWord_eq (s : Stream) :
    readWord s =
      match s.rest with
      | b₀ :: b₁ :: b₂ :: b₃ :: _ => .ok (Word.ofBytes b₀ b₁ b₂ b₃) { s with position := s.position + 4 }
      | short =>
        .error (.endOfStream s.position 4 short.length) { s with position := s.position + short.length } := by
  have hexact := @readExactly_eq 4 (by decide) s
  show EStateM.bind (readExactly (4 : Nat)) _ s = _
  unfold EStateM.bind
  rw [hexact]
  match s.rest with
  | b₀ :: b₁ :: b₂ :: b₃ :: tail =>
    have hlong : 4 ≤ (b₀ :: b₁ :: b₂ :: b₃ :: tail).length := Nat.le_add_left 4 tail.length
    rw [if_pos hlong]
    show EStateM.Result.ok (Word.ofList [b₀, b₁, b₂, b₃]) _ = _
    rw [Word.ofList_eq_ofBytes]
  | [] | [_] | [_, _] | [_, _, _] => rfl

theorem bytes_readWord (s : Stream) : (Attempt.final (readWord s)).bytes = s.bytes := by
  rw [readWord_eq]
  split <;> rfl

theorem bytes_readTextWith (decoders : Settings.Decoders) (settings : Settings) (s : Stream) :
    (Attempt.final (readTextWith decoders settings s)).bytes = s.bytes := by
  unfold readTextWith
  split
  · rfl
  · dsimp only
    split
    · rfl
    · split <;> rfl

/-- Work elsewhere that leaves the bytes as they are leaves the stream as it was. -/
theorem final_elsewhere {work : Streaming α} (hwork : ∀ s, (Attempt.final (work s)).bytes = s.bytes)
    (target : Int) (s : Stream) : Attempt.final (elsewhere target work s) = s := by
  unfold elsewhere returning
  rw [Attempt.final_within]
  have hbytes : (Attempt.final ((do jump target; work : Streaming α) s)).bytes = s.bytes := by
    show (Attempt.final (EStateM.bind _ _ s)).bytes = s.bytes
    unfold EStateM.bind
    have hj := bytes_jump target s
    cases hs : jump target s with
    | ok a t =>
      rw [hs] at hj
      exact (hwork t).trans hj
    | error e t =>
      rw [hs] at hj
      exact hj
  simp only [id_eq, hbytes]

/-- Looking at a word somewhere leaves the stream as it was. -/
theorem final_readWordAt (target : Int) (s : Stream) : Attempt.final (readWordAt target s) = s :=
  final_elsewhere bytes_readWord target s

/-- Looking at a text somewhere leaves the stream as it was. -/
theorem final_readTextAtWith (decoders : Settings.Decoders) (settings : Settings) (target : Int) (s : Stream) :
    Attempt.final (readTextAtWith decoders settings target s) = s :=
  final_elsewhere (bytes_readTextWith decoders settings) target s

theorem final_readTextAt (settings : Settings) (target : Int) (s : Stream) :
    Attempt.final (readTextAt settings target s) = s :=
  final_readTextAtWith Settings.decoders settings target s

end Stream
end Storyboard
