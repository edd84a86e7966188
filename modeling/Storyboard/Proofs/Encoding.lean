/-
Zero bytes in encoded text, and text that is decoded from what it was encoded to.

In each encoding a zero byte is the character U+0000 and never a part of another one: bytes that spell a text hold a
zero exactly if the text holds U+0000 (`zero_mem_iff_of_decode`), and so do the bytes that a text is encoded to
(`zero_notMem_of_encode`). So a text without U+0000 ends where the zero behind it stands. In all encodings but code
page 932 every text is decoded from what it was encoded to (`decode_encode`).
-/
import Storyboard.Settings
import Storyboard.Proofs.Attempt

namespace Storyboard

namespace Encoding

/-- A decoder that puts a character in front of what the rest spells. -/
theorem decode_cons_eq_ok_iff {x : Except DecodeFault Text} {c : Char} {t : Text} :
    (do return c :: (← x)) = Except.ok t ↔ ∃ t', x = .ok t' ∧ t = c :: t' := by
  simp only [except_bind_eq_ok_iff]
  constructor
  · rintro ⟨t', h, h'⟩
    injection h' with h'
    exact ⟨t', h, h'.symm⟩
  · rintro ⟨t', h, rfl⟩
    exact ⟨t', h, rfl⟩

/-- Only zero is the number of U+0000, among the numbers of characters. -/
theorem ofNat_ne_zero {n : Nat} (h : 0 < n ∧ n < 0xD800 ∨ 0xDFFF < n ∧ n < 0x110000) : '\x00' ≠ Char.ofNat n := by
  have hvalid : n.isValidChar := h.imp And.right id
  have hnat : (Char.ofNat n).toNat = n := by
    rw [Char.ofNat, dif_pos hvalid]
    rfl
  intro hzero
  rw [← hzero] at hnat
  change 0 = n at hnat
  omega

theorem zero_eq_ofNat_iff {b : UInt8} : '\x00' = Char.ofNat b.toNat ↔ 0 = b := by
  refine ⟨fun h => ?_, fun h => h ▸ rfl⟩
  have hlt := b.toNat_lt
  refine UInt8.toNat_inj.1 (Decidable.byContradiction fun hne => ofNat_ne_zero (.inl ?_) h)
  rw [UInt8.toNat_zero] at hne
  omega

/-! ## One byte for each character -/

theorem toNat_ofNat {n : Nat} (h : n < 0x100) : (UInt8.ofNat n).toNat = n := by
  rw [UInt8.toNat_ofNat']
  omega

section

variable {bytes : List UInt8} {start limit : Nat} {encoding : Encoding} {t : Text}

theorem zero_mem_iff_of_decodeAscii (h : decodeAscii start bytes = .ok t) : '\x00' ∈ t ↔ 0 ∈ bytes := by
  induction bytes generalizing start t with
  | nil =>
    obtain rfl := Except.ok.inj h
    simp
  | cons b bytes ih =>
    simp only [decodeAscii] at h
    split at h
    · obtain ⟨t', ht', rfl⟩ := decode_cons_eq_ok_iff.1 h
      rw [List.mem_cons, List.mem_cons, zero_eq_ofNat_iff, ih ht']
    · contradiction

theorem zero_mem_decodeLatin1_iff : '\x00' ∈ decodeLatin1 bytes ↔ 0 ∈ bytes := by
  rw [decodeLatin1, List.mem_map]
  simp only [eq_comm (b := '\x00'), zero_eq_ofNat_iff, exists_eq_right']

theorem encodeBelow_cons_eq_ok_iff {c : Char} :
    encodeBelow limit encoding start (c :: t) = .ok bytes ↔
      c.toNat < limit ∧ ∃ rest, encodeBelow limit encoding (start + 1) t = .ok rest ∧
        bytes = .ofNat c.toNat :: rest := by
  rw [encodeBelow]
  split
  · next hc =>
    simp only [except_bind_eq_ok_iff, hc, true_and]
    refine exists_congr fun rest => and_congr_right fun _ => ?_
    exact ⟨fun h => (Except.ok.inj h).symm, fun h => congrArg Except.ok h.symm⟩
  · next hc =>
    refine iff_of_false (fun h => ?_) fun h => hc h.1
    contradiction

theorem decodeAscii_encodeBelow {start' : Nat} (hlimit : limit ≤ 0x80)
    (h : encodeBelow limit encoding start t = .ok bytes) : decodeAscii start' bytes = .ok t := by
  induction t generalizing start start' bytes with
  | nil =>
    obtain rfl := Except.ok.inj h
    rfl
  | cons c t ih =>
    obtain ⟨hc, rest, hrest, rfl⟩ := encodeBelow_cons_eq_ok_iff.1 h
    have hbyte : (UInt8.ofNat c.toNat).toNat = c.toNat := toNat_ofNat (by omega)
    have hlow : UInt8.ofNat c.toNat < 0x80 := by
      rw [UInt8.lt_iff_toNat_lt, hbyte]
      exact Nat.lt_of_lt_of_le hc hlimit
    rw [decodeAscii, if_pos hlow, ih hrest, hbyte, Char.ofNat_toNat]
    rfl

theorem decodeLatin1_encodeBelow (hlimit : limit ≤ 0x100) (h : encodeBelow limit encoding start t = .ok bytes) :
    decodeLatin1 bytes = t := by
  induction t generalizing start bytes with
  | nil =>
    obtain rfl := Except.ok.inj h
    rfl
  | cons c t ih =>
    obtain ⟨hc, rest, hrest, rfl⟩ := encodeBelow_cons_eq_ok_iff.1 h
    have hbyte : (UInt8.ofNat c.toNat).toNat = c.toNat := toNat_ofNat (by omega)
    show Char.ofNat (UInt8.ofNat c.toNat).toNat :: decodeLatin1 rest = _
    rw [ih hrest, hbyte, Char.ofNat_toNat]

end

/-! ## UTF-8 -/

namespace Utf8

theorem ne_zero_of_isContinuation {b : UInt8} (h : isContinuation b = true) : 0 ≠ b := by
  rintro rfl
  exact absurd h (by decide)

theorem ne_zero_of_mayFollow {a b : UInt8} (h : mayFollow a b = true) : 0 ≠ b := by
  simp only [mayFollow, Bool.and_eq_true] at h
  exact ne_zero_of_isContinuation h.1

theorem ne_zero_of_lead {a : UInt8} (h : ¬a < 0x80) : 0 ≠ a := by
  rintro rfl
  exact h (by decide)

theorem of_isContinuation {b : UInt8} (h : isContinuation b = true) : 0x80 ≤ b.toNat ∧ b.toNat < 0xC0 := by
  simpa only [isContinuation, Bool.and_eq_true, decide_eq_true_eq, UInt8.le_iff_toNat_le, UInt8.lt_iff_toNat_lt,
    UInt8.reduceToNat] using h

theorem of_mayFollow {a b : UInt8} (h : mayFollow a b = true) :
    0x80 ≤ b.toNat ∧ b.toNat < 0xC0 ∧ (a.toNat = 0xE0 → 0xA0 ≤ b.toNat) ∧ (a.toNat = 0xED → b.toNat < 0xA0) ∧
      (a.toNat = 0xF0 → 0x90 ≤ b.toNat) ∧ (a.toNat = 0xF4 → b.toNat < 0x90) := by
  simp only [mayFollow, Bool.and_eq_true, ← UInt8.toNat_inj, UInt8.le_iff_toNat_le, UInt8.lt_iff_toNat_lt,
    UInt8.reduceToNat] at h
  obtain ⟨hlow, hhigh⟩ := of_isContinuation h.1
  grind

/-- Behind the first byte of a character all its bytes are at least 0x80, and so is its number if there are any. -/
theorem zero_mem_iff_of_decode {bytes : List UInt8} {start : Nat} {t : Text} (h : decode start bytes = .ok t) :
    '\x00' ∈ t ↔ 0 ∈ bytes := by
  fun_induction decode start bytes generalizing t with
  | case1 =>
    obtain rfl := Except.ok.inj h
    simp
  | case2 start a rest hlow ih =>
    obtain ⟨t', ht', rfl⟩ := decode_cons_eq_ok_iff.1 h
    rw [List.mem_cons, List.mem_cons, zero_eq_ofNat_iff, ih ht']
  | case6 start a hlead hrange b rest hb hshort ih =>
    obtain ⟨t', ht', rfl⟩ := decode_cons_eq_ok_iff.1 h
    simp only [Bool.not_eq_true, Bool.not_eq_false'] at hb
    have hchar : '\x00' ≠ character 0xC0 a [b] := by
      simp only [UInt8.lt_iff_toNat_lt, UInt8.reduceToNat] at hrange hshort
      obtain ⟨hlow, hhigh, -⟩ := of_mayFollow hb
      simp only [character, List.foldl_cons, List.foldl_nil]
      exact ofNat_ne_zero (by omega)
    simp only [List.mem_cons, hchar, ne_zero_of_lead hlead, ne_zero_of_mayFollow hb, false_or]
    exact ih ht'
  | case9 start a hlead hrange b hb hlong c rest hc hshort ih =>
    obtain ⟨t', ht', rfl⟩ := decode_cons_eq_ok_iff.1 h
    simp only [Bool.not_eq_true, Bool.not_eq_false'] at hb hc
    have hchar : '\x00' ≠ character 0xE0 a [b, c] := by
      simp only [UInt8.lt_iff_toNat_lt, UInt8.reduceToNat] at hrange hlong hshort
      obtain ⟨hlow, hhigh, hthree, hsurrogate, -⟩ := of_mayFollow hb
      obtain ⟨hlow', hhigh'⟩ := of_isContinuation hc
      simp only [character, List.foldl_cons, List.foldl_nil]
      exact ofNat_ne_zero (by omega)
    simp only [List.mem_cons, hchar, ne_zero_of_lead hlead, ne_zero_of_mayFollow hb, ne_zero_of_isContinuation hc,
      false_or]
    exact ih ht'
  | case12 start a hlead hrange b hb hlong c hc hlong' d rest hd ih =>
    obtain ⟨t', ht', rfl⟩ := decode_cons_eq_ok_iff.1 h
    simp only [Bool.not_eq_true, Bool.not_eq_false'] at hb hc hd
    have hchar : '\x00' ≠ character 0xF0 a [b, c, d] := by
      simp only [UInt8.lt_iff_toNat_lt, UInt8.reduceToNat] at hrange hlong hlong'
      obtain ⟨hlow, hhigh, -, -, hfour, hlast⟩ := of_mayFollow hb
      obtain ⟨hlow', hhigh'⟩ := of_isContinuation hc
      obtain ⟨hlow'', hhigh''⟩ := of_isContinuation hd
      simp only [character, List.foldl_cons, List.foldl_nil]
      exact ofNat_ne_zero (by omega)
    simp only [List.mem_cons, hchar, ne_zero_of_lead hlead, ne_zero_of_mayFollow hb, ne_zero_of_isContinuation hc,
      ne_zero_of_isContinuation hd, false_or]
    exact ih ht'
  | _ => contradiction

section Encode

variable {n : Nat}

/-- A byte that goes on with a character holds six bits of it. -/
theorem toNat_continuation (n : Nat) : (UInt8.ofNat (0x80 + n % 0x40)).toNat = 0x80 + n % 0x40 :=
  toNat_ofNat (by omega)

theorem isContinuation_ofNat (n : Nat) : isContinuation (.ofNat (0x80 + n % 0x40)) = true := by
  simp only [isContinuation, Bool.and_eq_true, decide_eq_true_eq, UInt8.le_iff_toNat_le, UInt8.lt_iff_toNat_lt,
    toNat_continuation, UInt8.reduceToNat]
  omega

/-- Which bits may be behind a lead byte: the character has no shorter form, is no surrogate and lies in Unicode. -/
theorem mayFollow_ofNat {a : Nat} (ha : a < 0x100) (hthree : a = 0xE0 → 0x20 ≤ n % 0x40)
    (hsurrogate : a = 0xED → n % 0x40 < 0x20) (hfour : a = 0xF0 → 0x10 ≤ n % 0x40)
    (hlast : a = 0xF4 → n % 0x40 < 0x10) : mayFollow (.ofNat a) (.ofNat (0x80 + n % 0x40)) = true := by
  simp only [mayFollow, isContinuation_ofNat, Bool.true_and, ← UInt8.toNat_inj, UInt8.le_iff_toNat_le,
    UInt8.lt_iff_toNat_lt, toNat_ofNat ha, toNat_continuation, UInt8.reduceToNat]
  grind

variable {start : Nat} {rest : List UInt8}

theorem decode_one (h : n < 0x80) :
    decode start (.ofNat n :: rest) = (do return .ofNat n :: (← decode (start + 1) rest)) := by
  have hlead : (UInt8.ofNat n).toNat = n := toNat_ofNat (by omega)
  rw [decode.eq_def]
  simp only [UInt8.lt_iff_toNat_lt, hlead, UInt8.reduceToNat]
  rw [if_pos h]

theorem decode_two (hlow : 0x80 ≤ n) (hhigh : n < 0x800) :
    decode start (.ofNat (0xC0 + n / 0x40) :: .ofNat (0x80 + n % 0x40) :: rest)
      = (do return .ofNat n :: (← decode (start + 2) rest)) := by
  have hlead : (UInt8.ofNat (0xC0 + n / 0x40)).toNat = 0xC0 + n / 0x40 := toNat_ofNat (by omega)
  have hfollows : mayFollow (.ofNat (0xC0 + n / 0x40)) (.ofNat (0x80 + n % 0x40)) = true :=
    mayFollow_ofNat (by omega) (by omega) (by omega) (by omega) (by omega)
  have hchar : character 0xC0 (.ofNat (0xC0 + n / 0x40)) [.ofNat (0x80 + n % 0x40)] = .ofNat n := by
    simp only [character, List.foldl_cons, List.foldl_nil, hlead, toNat_continuation]
    exact congrArg Char.ofNat (by omega)
  rw [decode.eq_def]
  simp only [hfollows, hchar, UInt8.lt_iff_toNat_lt, hlead, UInt8.reduceToNat]
  rw [if_neg (by omega), if_neg (by omega), if_neg (by decide), if_pos (by omega)]

theorem decode_three (hlow : 0x800 ≤ n) (hhigh : n < 0x10000) (hvalid : n.isValidChar) :
    decode start (.ofNat (0xE0 + n / 0x1000) :: .ofNat (0x80 + n / 0x40 % 0x40) :: .ofNat (0x80 + n % 0x40) :: rest)
      = (do return .ofNat n :: (← decode (start + 3) rest)) := by
  unfold Nat.isValidChar at hvalid
  have hlead : (UInt8.ofNat (0xE0 + n / 0x1000)).toNat = 0xE0 + n / 0x1000 := toNat_ofNat (by omega)
  have hfollows : mayFollow (.ofNat (0xE0 + n / 0x1000)) (.ofNat (0x80 + n / 0x40 % 0x40)) = true :=
    mayFollow_ofNat (by omega) (by omega) (by omega) (by omega) (by omega)
  have hchar : character 0xE0 (.ofNat (0xE0 + n / 0x1000))
      [.ofNat (0x80 + n / 0x40 % 0x40), .ofNat (0x80 + n % 0x40)] = .ofNat n := by
    simp only [character, List.foldl_cons, List.foldl_nil, hlead, toNat_continuation]
    exact congrArg Char.ofNat (by omega)
  rw [decode.eq_def]
  simp only [hfollows, isContinuation_ofNat, hchar, UInt8.lt_iff_toNat_lt, hlead, UInt8.reduceToNat]
  rw [if_neg (by omega), if_neg (by omega), if_neg (by decide), if_neg (by omega), if_neg (by decide),
    if_pos (by omega)]

theorem decode_four (hlow : 0x10000 ≤ n) (hvalid : n.isValidChar) :
    decode start (.ofNat (0xF0 + n / 0x40000) :: .ofNat (0x80 + n / 0x1000 % 0x40)
        :: .ofNat (0x80 + n / 0x40 % 0x40) :: .ofNat (0x80 + n % 0x40) :: rest)
      = (do return .ofNat n :: (← decode (start + 4) rest)) := by
  unfold Nat.isValidChar at hvalid
  have hlead : (UInt8.ofNat (0xF0 + n / 0x40000)).toNat = 0xF0 + n / 0x40000 := toNat_ofNat (by omega)
  have hfollows : mayFollow (.ofNat (0xF0 + n / 0x40000)) (.ofNat (0x80 + n / 0x1000 % 0x40)) = true :=
    mayFollow_ofNat (by omega) (by omega) (by omega) (by omega) (by omega)
  have hchar : character 0xF0 (.ofNat (0xF0 + n / 0x40000))
      [.ofNat (0x80 + n / 0x1000 % 0x40), .ofNat (0x80 + n / 0x40 % 0x40), .ofNat (0x80 + n % 0x40)] = .ofNat n := by
    simp only [character, List.foldl_cons, List.foldl_nil, hlead, toNat_continuation]
    exact congrArg Char.ofNat (by omega)
  rw [decode.eq_def]
  simp only [hfollows, isContinuation_ofNat, hchar, UInt8.lt_iff_toNat_lt, hlead, UInt8.reduceToNat]
  rw [if_neg (by omega), if_neg (by omega), if_neg (by decide), if_neg (by omega), if_neg (by decide),
    if_neg (by omega), if_neg (by decide)]

/-- The bytes of a character are decoded to it. -/
theorem decode_encodeChar_append (c : Char) (start : Nat) (rest : List UInt8) :
    ∃ next, decode start (encodeChar c ++ rest) = (do return c :: (← decode next rest)) := by
  have hvalid : c.toNat.isValidChar := c.valid
  have hc : Char.ofNat c.toNat = c := Char.ofNat_toNat c
  unfold encodeChar
  dsimp only
  generalize c.toNat = n at hvalid hc
  subst hc
  split
  · next hone => exact ⟨_, decode_one hone⟩
  split
  · next hone htwo => exact ⟨_, decode_two (by omega) htwo⟩
  split
  · next hone htwo hthree => exact ⟨_, decode_three (by omega) hthree hvalid⟩
  · next hone htwo hthree => exact ⟨_, decode_four (by omega) hvalid⟩

/-- **What is encoded is decoded again.** -/
theorem decode_encode (start : Nat) (t : Text) : decode start (encode t) = .ok t := by
  induction t generalizing start with
  | nil => rw [encode, List.flatMap_nil, decode]
  | cons c t ih =>
    obtain ⟨next, hnext⟩ := decode_encodeChar_append c start (encode t)
    exact hnext.trans (except_bind_eq_ok_iff.2 ⟨t, ih next, rfl⟩)

end Encode

end Utf8

/-! ## Code page 932 -/

namespace CodePage932

/-- `Spells pieces cs`: the pieces of a row are the characters `cs`. It stands between the table and its characters
because a piece is known to be `String.ofList` of its own, while taking it apart would have to decode it. -/
inductive Spells : List String → List Char → Prop where
  | nil : Spells [] []
  | cons {pieces : List String} {cs : List Char} (piece : List Char) :
      Spells pieces cs → Spells (String.ofList piece :: pieces) (piece ++ cs)

theorem Spells.flatMap_eq {pieces : List String} {cs : List Char} (h : Spells pieces cs) :
    pieces.flatMap String.toList = cs := by
  induction h with
  | nil => rfl
  | cons piece _ ih => rw [List.flatMap_cons, ih, String.toList_ofList]

theorem spells_of_mem_rowTexts : ∀ row ∈ rowTexts, row.1 % 0x100 ≠ 0 ∧
    ∃ cs, Spells row.2 cs ∧ cs.length ≤ 188 ∧ cs.all (· ≠ '\x00') = true := by
  unfold rowTexts
  dsimp only
  repeat' first | exact List.forall_mem_nil _ | refine List.forall_mem_cons.2 ⟨?_, ?_⟩
  all_goals exact ⟨by decide, _, by repeat constructor, by decide +kernel, by decide +kernel⟩

/-- **What the table has**: lead bytes other than zero, rows that are no longer than a trail byte reaches, and in them
no U+0000. -/
theorem of_mem_rows {row : Nat × List Char} (h : row ∈ rows) :
    row.1 % 0x100 ≠ 0 ∧ row.2.length ≤ 188 ∧ '\x00' ∉ row.2 := by
  obtain ⟨source, hsource, rfl⟩ := List.mem_map.1 h
  obtain ⟨hlead, cs, hcs, hlength, hzero⟩ := spells_of_mem_rowTexts source hsource
  dsimp only
  rw [hcs.flatMap_eq]
  refine ⟨hlead, hlength, fun hmem => ?_⟩
  have := List.all_eq_true.1 hzero _ hmem
  contradiction

theorem zero_eq_iff_of_single? {b : UInt8} {c : Char} (h : single? b = some c) : '\x00' = c ↔ 0 = b := by
  have hne : ∀ {n : Nat}, 0x80 < b.toNat → 0 < n ∧ n < 0xD800 ∨ 0xDFFF < n ∧ n < 0x110000 → Char.ofNat n = c →
      ('\x00' = c ↔ 0 = b) := by
    intro n hb hn hc
    refine iff_of_false (hc ▸ ofNat_ne_zero hn) fun hzero => ?_
    rw [← hzero] at hb
    contradiction
  have hlt := b.toNat_lt
  unfold single? at h
  dsimp only at h
  split at h
  · obtain rfl := Option.some.inj h
    exact zero_eq_ofNat_iff
  · next hhigh =>
    have hhigh := Nat.lt_of_not_le hhigh
    split at h
    · exact hne hhigh (by omega) (Option.some.inj h)
    · split at h
      · exact hne hhigh (by omega) (Option.some.inj h)
      · split at h
        · exact hne hhigh (by omega) (Option.some.inj h)
        · contradiction

theorem ne_zero_of_pair? {lead trail : UInt8} {c : Char} (h : pair? lead trail = some c) :
    '\x00' ≠ c ∧ 0 ≠ trail := by
  obtain ⟨cell, hcell, h⟩ := Option.bind_eq_some_iff.1 h
  have hlimit : cell < 188 := by
    unfold cell? at hcell
    grind
  refine ⟨?_, ?_⟩
  · split at h
    · next hlead =>
      obtain rfl := Option.some.inj h
      simp only [UInt8.le_iff_toNat_le, UInt8.reduceToNat] at hlead
      exact ofNat_ne_zero (by omega)
    · obtain ⟨row, hrow, h⟩ := Option.bind_eq_some_iff.1 h
      obtain ⟨c', hc, h⟩ := Option.bind_eq_some_iff.1 h
      split at h
      · contradiction
      · obtain rfl := Option.some.inj h
        obtain ⟨-, -, hzero⟩ := of_mem_rows (List.mem_of_find?_eq_some hrow)
        exact fun hc' => hzero (List.mem_of_getElem? (hc' ▸ hc))
  · intro htrail
    rw [← htrail] at hcell
    contradiction

theorem zero_mem_iff_of_decode {bytes : List UInt8} {start : Nat} {t : Text} (h : decode start bytes = .ok t) :
    '\x00' ∈ t ↔ 0 ∈ bytes := by
  fun_induction decode start bytes generalizing t with
  | case1 =>
    obtain rfl := Except.ok.inj h
    simp
  | case2 start b bytes c hb ih =>
    obtain ⟨t', ht', rfl⟩ := decode_cons_eq_ok_iff.1 h
    rw [List.mem_cons, List.mem_cons, zero_eq_iff_of_single? hb, ih ht']
  | case4 start b hb trail bytes c hpair ih =>
    obtain ⟨t', ht', rfl⟩ := decode_cons_eq_ok_iff.1 h
    have hlead : 0 ≠ b := by
      rintro rfl
      exact absurd hb (by decide)
    obtain ⟨hchar, htrail⟩ := ne_zero_of_pair? hpair
    simp only [List.mem_cons, hlead, htrail, hchar, false_or]
    exact ih ht'
  | _ => contradiction

theorem zero_ne_ofNat {n : Nat} (h : n % 0x100 ≠ 0) : 0 ≠ UInt8.ofNat n := by
  intro hzero
  have hnat := congrArg UInt8.toNat hzero
  rw [UInt8.toNat_ofNat'] at hnat
  exact h hnat.symm

theorem zero_ne_trail {cell : Nat} (h : cell < 188) : 0 ≠ trail cell := by
  refine zero_ne_ofNat ?_
  split <;> omega

theorem zero_ne_of_singleByte? {c : Char} {b : UInt8} (h : singleByte? c = some b) (hc : '\x00' ≠ c) : 0 ≠ b := by
  have hnat : c.toNat ≠ 0 := by
    intro hnat
    rw [← Char.ofNat_toNat c, hnat] at hc
    contradiction
  unfold singleByte? at h
  dsimp only at h
  split at h
  · obtain rfl := Option.some.inj h
    exact zero_ne_ofNat (by omega)
  · split at h
    · obtain rfl := Option.some.inj h
      decide
    · split at h
      · obtain rfl := Option.some.inj h
        exact zero_ne_ofNat (by omega)
      · split at h
        · obtain rfl := Option.some.inj h
          exact zero_ne_ofNat (by omega)
        · contradiction

theorem zero_notMem_of_pairBytes? {c : Char} {bytes : List UInt8} (h : pairBytes? c = some bytes) : 0 ∉ bytes := by
  have hpair : ∀ {a b : UInt8}, 0 ≠ a → 0 ≠ b → 0 ∉ [a, b] := by
    intro a b ha hb
    simp [ha, hb]
  unfold pairBytes? at h
  split at h
  · next hprivate =>
    obtain rfl := Option.some.inj h
    exact hpair (zero_ne_ofNat (by omega)) (zero_ne_trail (Nat.mod_lt _ (by decide)))
  · split at h
    · cases h
    · obtain ⟨row, hrow, h⟩ := List.exists_of_findSome?_eq_some h
      obtain ⟨cell, hcell, rfl⟩ := Option.map_eq_some_iff.1 h
      obtain ⟨hlead, hlength, -⟩ := of_mem_rows hrow
      obtain ⟨hlt, -⟩ := List.idxOf?_eq_some_iff.1 hcell
      exact hpair (zero_ne_ofNat hlead) (zero_ne_trail (Nat.lt_of_lt_of_le hlt hlength))

theorem zero_notMem_of_encodeChar? {c : Char} {bytes : List UInt8} (h : encodeChar? c = some bytes)
    (hc : '\x00' ≠ c) : 0 ∉ bytes := by
  unfold encodeChar? at h
  split at h
  · next b hb =>
    obtain rfl := Option.some.inj h
    simpa using zero_ne_of_singleByte? hb hc
  · exact zero_notMem_of_pairBytes? h

theorem zero_notMem_of_encode {start : Nat} {t : Text} {bytes : List UInt8} (h : encode start t = .ok bytes)
    (ht : '\x00' ∉ t) : 0 ∉ bytes := by
  induction t generalizing start bytes with
  | nil =>
    obtain rfl := Except.ok.inj h
    exact List.not_mem_nil
  | cons c t ih =>
    rw [encode] at h
    split at h
    · next spelled hspelled =>
      obtain ⟨rest, hrest, h⟩ := except_bind_eq_ok_iff.1 h
      obtain rfl := Except.ok.inj h
      obtain ⟨hc, ht⟩ := List.ne_and_not_mem_of_not_mem_cons ht
      exact List.not_mem_append (zero_notMem_of_encodeChar? hspelled hc) (ih hrest ht)
    · contradiction

end CodePage932

/-! ## All encodings -/

section

variable {e : Encoding} {bytes : List UInt8} {t : Text}

/-- **Zero bytes are the characters U+0000.** -/
theorem zero_mem_iff_of_decode (h : e.decode bytes = .ok t) : '\x00' ∈ t ↔ 0 ∈ bytes := by
  cases e with
  | ascii => exact zero_mem_iff_of_decodeAscii h
  | latin1 =>
    obtain rfl := Except.ok.inj h
    exact zero_mem_decodeLatin1_iff
  | utf8 => exact Utf8.zero_mem_iff_of_decode h
  | codePage932 => exact CodePage932.zero_mem_iff_of_decode h

/-- **What is encoded is decoded again**, except in code page 932. -/
theorem decode_encode (he : e ≠ .codePage932) (h : e.encode t = .ok bytes) : e.decode bytes = .ok t := by
  cases e with
  | ascii => exact decodeAscii_encodeBelow (Nat.le_refl _) h
  | latin1 => exact congrArg Except.ok (decodeLatin1_encodeBelow (Nat.le_refl _) h)
  | utf8 =>
    obtain rfl := Except.ok.inj h
    exact Utf8.decode_encode 0 t
  | codePage932 => contradiction

/-- **A text without U+0000 is encoded without a zero.** -/
theorem zero_notMem_of_encode (h : e.encode t = .ok bytes) (ht : '\x00' ∉ t) : 0 ∉ bytes := by
  by_cases he : e = .codePage932
  · subst he
    exact CodePage932.zero_notMem_of_encode h ht
  · rwa [← zero_mem_iff_of_decode (decode_encode he h)]

end

end Encoding

namespace Settings

variable {settings : Settings} {bytes : List UInt8} {t : Text} {name : String} {e : Encoding}

/-- A text is encoded in an encoding that has a name. -/
theorem encodeText_eq_ok_iff_encode :
    settings.encodeText t = .ok bytes ↔
      ∃ name e, settings.encodingName = .ok name ∧ findEncoding name = .ok e ∧ e.encode t = .ok bytes := by
  simp only [encodeText, except_bind_eq_ok_iff, except_mapError_eq_ok_iff, exists_and_left]

/-- No bytes are no text in every encoding. -/
theorem decodeText_eq_ok_iff (hname : settings.encodingName = .ok name) (he : findEncoding name = .ok e) :
    settings.decodeText bytes = .ok t ↔ e.decode bytes = .ok t := by
  have hnil : e.decode [] = .ok [] := by
    cases e with
    | ascii | latin1 => rfl
    | utf8 => exact Encoding.Utf8.decode_encode 0 []
    | codePage932 =>
      show Encoding.CodePage932.decode 0 [] = _
      rw [Encoding.CodePage932.decode]
  rw [decodeText_eq, hname]
  show (if bytes.isEmpty = true then pure [] else findEncoding name >>= fun e => _) = _ ↔ _
  rw [he]
  split
  · next hempty =>
    rw [List.isEmpty_iff.1 hempty, hnil]
    exact ⟨fun h => congrArg Except.ok (Except.ok.inj h), fun h => congrArg Except.ok (Except.ok.inj h)⟩
  · exact except_mapError_eq_ok_iff

/-- Bytes that spell a text hold a zero exactly if it holds U+0000. -/
theorem zero_mem_iff_of_decodeText (h : settings.decodeText bytes = .ok t) : '\x00' ∈ t ↔ 0 ∈ bytes := by
  simp only [decodeText_eq, except_bind_eq_ok_iff] at h
  obtain ⟨name, -, h⟩ := h
  split at h
  · next hempty =>
    obtain rfl := Except.ok.inj h
    rw [List.isEmpty_iff.1 hempty]
    simp
  · obtain ⟨e, -, h⟩ := except_bind_eq_ok_iff.1 h
    exact Encoding.zero_mem_iff_of_decode (except_mapError_eq_ok_iff.1 h)

theorem zero_notMem_of_decodeText (h : settings.decodeText bytes = .ok t) (ht : '\x00' ∉ t) : 0 ∉ bytes :=
  fun hz => ht ((zero_mem_iff_of_decodeText h).2 hz)

end Settings

end Storyboard
