/-
Which texts are read back from where they were written.

A text is written as its bytes and a zero behind them, whatever it is, and read up to the first zero, which must be
among the bytes that are looked at. So it is read back exactly if it has no U+0000, its bytes and the zero are within
the limit, and the bytes are decoded to it (`readTextAt_of_writeText`).
-/
import Storyboard.Proofs.Encoding
import Storyboard.Proofs.Refinement
import Storyboard.Proofs.Writing

namespace Storyboard

namespace Stream

variable {settings : Settings} {limit target : Int} {t : Text} {s s' : Stream} {n : Nat} {data : List UInt8}

/-! ## What has been written -/

/-- Bytes that are written stand where the position was, which is behind them then. -/
theorem exists_of_write {u : Unit} (hdata : data ≠ []) (h : write data s = .ok u s') :
    ∃ left right, left.length = s.position ∧ s' = ⟨left ++ data ++ right, (left ++ data).length⟩ := by
  have hlength : ((padTo s.position s.bytes).take s.position).length = s.position := by
    simp only [padTo, List.length_take, List.length_append, List.length_replicate]
    omega
  unfold write at h
  rw [if_neg (by simpa using hdata)] at h
  split at h
  · contradiction
  · injection h with _ h
    refine ⟨_, s.bytes.drop (s.position + data.length), hlength, ?_⟩
    rw [← h, List.length_append, hlength]
    rfl

/-- **A text lies where it was written**, with a zero behind its bytes. -/
theorem lies_of_writeText (h : writeText settings t s = .ok n s') :
    ∃ data, settings.encodeText t = .ok data ∧ n = data.length + 1 ∧ data ++ [0] <+: s'.bytes.drop s.position := by
  obtain ⟨data, s₁, hencode, hwrites⟩ := Attempt.bind_eq_ok.1 h
  obtain ⟨hdata, rfl⟩ := Attempt.ofExcept_eq_ok_iff.1 hencode
  obtain ⟨_, s₂, hwrite, hwrites⟩ := Attempt.bind_eq_ok.1 hwrites
  obtain ⟨_, s₃, hzero, hreturn⟩ := Attempt.bind_eq_ok.1 hwrites
  injection hreturn with hn hs
  subst hn hs
  refine ⟨data, hdata, rfl, ?_⟩
  by_cases hempty : data = []
  · subst hempty
    injection hwrite with _ hwrite
    subst hwrite
    obtain ⟨left, right, hleft, rfl⟩ := exists_of_write (List.cons_ne_nil _ _) hzero
    rw [← hleft, List.append_assoc, List.drop_left]
    exact List.prefix_append _ _
  · obtain ⟨left, right, hleft, rfl⟩ := exists_of_write hempty hwrite
    rw [write_append] at hzero
    injection hzero with _ hzero
    subst hzero
    rw [← hleft, List.append_assoc, List.append_assoc, List.drop_left, ← List.append_assoc]
    exact List.prefix_append _ _

/-! ## Reading it back -/

/-- Where no zero is among the bytes that are looked at, no text is read. -/
theorem readTextAt_of_unterminated (hlimit : settings.scanLimit = some limit) (h0 : 0 ≤ target)
    (hlt : target < offsetLimit) (h : 0 ∉ (s.bytes.drop target.toNat).take limit.toNat) :
    readTextAt settings target s = .error (.unterminatedText target.toNat limit) s := by
  have hnone : ((s.bytes.drop target.toNat).take limit.toNat).findIdx? (· = 0) = none := by
    refine List.findIdx?_eq_none_iff.2 fun b hb => decide_eq_false fun hzero => ?_
    exact h (hzero ▸ hb)
  rw [Machine.readTextAt_eq, Machine.outcome_readTextAt_eq, if_neg (Int.not_lt.2 h0), if_neg (Int.not_le.2 hlt),
    readText, Machine.outcome_readTextWith, hlimit]
  dsimp only
  rw [hnone]

/-- Bytes without a zero are what is read where they lie. -/
theorem eq_of_textAt {spelled : List UInt8} (h : TextAt settings s.bytes target spelled t)
    (hlies : data ++ [0] <+: s.bytes.drop target.toNat) (hdata : 0 ∉ data) : spelled = data := by
  have heq : ∀ {xs : List UInt8}, xs ++ [0] <+: s.bytes.drop target.toNat → 0 ∉ xs →
      (s.bytes.drop target.toNat).takeWhile (· ≠ 0) = xs := by
    intro xs hlies hxs
    obtain ⟨tail, htail⟩ := hlies
    rw [← htail, List.append_assoc]
    exact takeWhile_nonzero_append hxs
  exact (heq h.lies h.zeroFree).symm.trans (heq hlies hdata)

/-- **Which texts can be read back.** A text that was written at a place is read there in the same encoding exactly
if it has no U+0000, its bytes and the zero behind them are no more than are looked at, and they are decoded to it,
which they always are except in code page 932. If it has no U+0000 and is too long, its end is missed. -/
theorem readTextAt_of_writeText (hlimit : settings.scanLimit = some limit)
    (h : (do jump target; writeText settings t : Streaming Nat) s = .ok n s') :
    ∃ (name : String) (e : Encoding) (data : List UInt8),
      settings.encodingName = .ok name ∧ Settings.findEncoding name = .ok e ∧ e.encode t = .ok data ∧
      n = data.length + 1 ∧
      (readTextAt settings target s' = .ok t s' ↔
        '\x00' ∉ t ∧ (data.length : Int) + 1 ≤ limit ∧ e.decode data = .ok t) ∧
      (e ≠ .codePage932 → e.decode data = .ok t) ∧
      ('\x00' ∉ t → limit < (data.length : Int) + 1 →
        readTextAt settings target s' = .error (.unterminatedText target.toNat limit) s') := by
  obtain ⟨_, s₁, hjump, hwrite⟩ := Attempt.bind_eq_ok.1 h
  obtain ⟨h0, hlt, rfl⟩ := jump_eq_ok_iff.1 hjump
  obtain ⟨data, hencode, hn, hlies⟩ := lies_of_writeText hwrite
  obtain ⟨name, e, hname, he, hdata⟩ := Settings.encodeText_eq_ok_iff_encode.1 hencode
  have hzero : '\x00' ∉ t → 0 ∉ data := Encoding.zero_notMem_of_encode hdata
  have hdecode : settings.decodeText data = .ok t ↔ _ := Settings.decodeText_eq_ok_iff hname he
  refine ⟨name, e, data, hname, he, hdata, hn, ?_, fun hne => Encoding.decode_encode hne hdata, fun ht hlong => ?_⟩
  · rw [readTextAt_eq_ok_iff, and_iff_left rfl]
    refine ⟨fun hread => ?_, fun hread => ?_⟩
    · obtain ⟨spelled, hspelled⟩ := hread
      have ht : '\x00' ∉ t := fun hmem =>
        hspelled.zeroFree ((Settings.zero_mem_iff_of_decodeText hspelled.decoded).1 hmem)
      obtain rfl := eq_of_textAt hspelled hlies (hzero ht)
      obtain ⟨limit', hlimit', hwithin⟩ := hspelled.limited
      obtain rfl := Option.some.inj (hlimit.symm.trans hlimit')
      exact ⟨ht, hwithin, hdecode.1 hspelled.decoded⟩
    · obtain ⟨ht, hwithin, hdecoded⟩ := hread
      exact ⟨data, h0, hlt, hlies, hzero ht, ⟨limit, hlimit, hwithin⟩, hdecode.2 hdecoded⟩
  · refine readTextAt_of_unterminated hlimit h0 hlt fun hmem => hzero ht ?_
    have hprefix : (s'.bytes.drop target.toNat).take limit.toNat <+: data := by
      refine List.prefix_of_prefix_length_le (List.take_prefix _ _) ((List.prefix_append _ _).trans hlies) ?_
      rw [List.length_take]
      omega
    exact hprefix.subset hmem

/-- An accented letter takes two bytes, and with the zero as many as are looked at. -/
theorem readTextAt_of_writeText_accented : ∃ s' : Stream,
    (do jump 5; writeText ⟨some "utf-8", some 3⟩ ['é'] : Streaming Nat) ⟨[1, 2], 0⟩ = .ok 3 s' ∧
      s'.bytes = [1, 2, 0, 0, 0, 0xC3, 0xA9, 0] ∧
      readTextAt ⟨some "utf-8", some 3⟩ 5 s' = .ok ['é'] s' := by
  have hencode : Settings.encodeText ⟨some "utf-8", some 3⟩ ['é'] = .ok [0xC3, 0xA9] := by decide +kernel
  have hfind : Settings.findEncoding "utf-8" = .ok .utf8 := by decide +kernel
  have hwrite : (do jump 5; writeText ⟨some "utf-8", some 3⟩ ['é'] : Streaming Nat) ⟨[1, 2], 0⟩
      = .ok 3 ⟨[1, 2, 0, 0, 0, 0xC3, 0xA9, 0], 8⟩ :=
    Attempt.bind_eq_ok.2 ⟨(), ⟨[1, 2], 5⟩, rfl,
      Attempt.bind_eq_ok.2 ⟨_, _, Attempt.ofExcept_eq_ok_iff.2 ⟨hencode, rfl⟩, rfl⟩⟩
  obtain ⟨name, e, data, hname, he, -, hlength, hiff, hdecode, -⟩ := readTextAt_of_writeText rfl hwrite
  obtain rfl : "utf-8" = name := Except.ok.inj hname
  obtain rfl := Except.ok.inj (hfind.symm.trans he)
  refine ⟨_, hwrite, rfl, hiff.2 ⟨by decide, ?_, hdecode (by decide)⟩⟩
  omega

end Stream
end Storyboard
