/-
Words: the four-byte numbers a storyboard is made of, least significant byte first, negative
numbers in two's complement.

`toBytes` writes any integer modulo 2^32, `ofBytes` reads the signed number back, and `wrap` is
what a number becomes on that round trip.
-/
namespace Storyboard.Word

/-- The numbers that one word holds without loss. -/
def Fits (v : Int) : Prop := -0x80000000 ≤ v ∧ v ≤ 0x7FFFFFFF

instance (v : Int) : Decidable (Fits v) := inferInstanceAs (Decidable (_ ∧ _))

/-- The number that fits a word and is congruent to `v` modulo 2^32. -/
def wrap (v : Int) : Int := (v + 0x80000000) % 0x100000000 - 0x80000000

/-- The bits of `v` modulo 2^32, read without a sign. -/
def pattern (v : Int) : Nat := (v % 0x100000000).toNat

/-- The four bytes of `v` modulo 2^32, least significant first. -/
def toBytes (v : Int) : List UInt8 :=
  let n := pattern v
  [.ofNat n, .ofNat (n / 0x100), .ofNat (n / 0x10000), .ofNat (n / 0x1000000)]

/-- The signed number that four bytes spell, least significant first. -/
def ofBytes (b₀ b₁ b₂ b₃ : UInt8) : Int :=
  wrap (b₀.toNat + 0x100 * b₁.toNat + 0x10000 * b₂.toNat + 0x1000000 * b₃.toNat : Nat)

/-- The signed number that bytes spell, least significant first. -/
def ofList (bytes : List UInt8) : Int := wrap (bytes.foldr (fun b n => b.toNat + 0x100 * n) 0 : Nat)

theorem ofList_eq_ofBytes (b₀ b₁ b₂ b₃ : UInt8) : ofList [b₀, b₁, b₂, b₃] = ofBytes b₀ b₁ b₂ b₃ := by
  simp only [ofList, ofBytes, List.foldr_cons, List.foldr_nil]
  congr 2
  omega

@[simp] theorem length_toBytes (v : Int) : (toBytes v).length = 4 := rfl

theorem fits_wrap (v : Int) : Fits (wrap v) := by
  simp only [Fits, wrap]
  omega

theorem wrap_of_fits {v : Int} (h : Fits v) : wrap v = v := by
  simp only [Fits] at h
  simp only [wrap]
  omega

/-- A number becomes the one that fits a word and is congruent to it. -/
theorem eq_wrap_iff {v w : Int} : v = wrap w ↔ Fits v ∧ 0x100000000 ∣ v - w := by
  simp only [Fits, wrap]
  omega

/-- Numbers that are congruent modulo 2^32 become the same one. -/
theorem wrap_wrap_add (v w : Int) : wrap (wrap v + w) = wrap (v + w) := by
  simp only [wrap]
  omega

/-- A number is written like the one it becomes. -/
theorem toBytes_wrap (v : Int) : toBytes (wrap v) = toBytes v := by
  have h : pattern (wrap v) = pattern v := by
    simp only [pattern, wrap]
    omega
  simp only [toBytes, h]

theorem pattern_lt (v : Int) : pattern v < 0x100000000 := by
  simp only [pattern]
  omega

theorem fits_ofBytes (b₀ b₁ b₂ b₃ : UInt8) : Fits (ofBytes b₀ b₁ b₂ b₃) := fits_wrap _

/-- Reading what was written gives the number modulo 2^32. -/
theorem ofBytes_toBytes (v : Int) :
    ofBytes (.ofNat (pattern v)) (.ofNat (pattern v / 0x100)) (.ofNat (pattern v / 0x10000))
      (.ofNat (pattern v / 0x1000000)) = wrap v := by
  have hlt := pattern_lt v
  simp only [ofBytes, wrap, UInt8.toNat_ofNat']
  simp only [pattern] at hlt ⊢
  omega

/-- Writing what was read gives the four bytes back. -/
theorem toBytes_ofBytes (b₀ b₁ b₂ b₃ : UInt8) : toBytes (ofBytes b₀ b₁ b₂ b₃) = [b₀, b₁, b₂, b₃] := by
  have h₀ := b₀.toNat_lt; have h₁ := b₁.toNat_lt; have h₂ := b₂.toNat_lt; have h₃ := b₃.toNat_lt
  have hp : pattern (ofBytes b₀ b₁ b₂ b₃)
      = b₀.toNat + 0x100 * b₁.toNat + 0x10000 * b₂.toNat + 0x1000000 * b₃.toNat := by
    simp only [pattern, ofBytes, wrap]
    omega
  simp only [toBytes, hp, List.cons.injEq, and_true, ← UInt8.toNat_inj, UInt8.toNat_ofNat']
  omega

end Storyboard.Word
