import TxScope.Proofs.Trimming
import TxScope.Transaction.Decode

/-!
# Hexadecimal text read back

The digits of a byte string are read back as that byte string (`Hex.decode_encode`). There is no
blank among them, so trimming leaves them alone (`Text.trim_encode`).
-/

namespace TxScope

namespace Hex

/-- A digit is one byte of UTF-8, with the value of the digit. -/
theorem map_digitValue_digitChar : ∀ n < 16,
    (String.utf8EncodeChar (Nat.digitChar n)).map digitValue? = [some n] := by
  decide

theorem digitChar_not_blank : ∀ n < 16, Text.isBlank (Nat.digitChar n) = false := by
  decide

theorem exists_digitByte {n : Nat} (hn : n < 16) :
    ∃ b, String.utf8EncodeChar (Nat.digitChar n) = [b] ∧ digitValue? b = some n := by
  obtain ⟨b, hb, hv⟩ := List.map_eq_singleton_iff.1 (map_digitValue_digitChar n hn)
  exact ⟨b, hb, hv⟩

theorem digitAt_eq {n index : Nat} {b : UInt8} (hb : digitValue? b = some n) :
    digitAt index b = .ok n := by
  simp only [digitAt, hb]

theorem decodePairs_encodeChars : ∀ (bs : Bytes) (index : Nat),
    decodePairs index (Text.utf8OfChars (encodeChars bs)) = .ok bs
  | [], _ => by simp [encodeChars, Text.utf8OfChars, decodePairs]
  | b :: bs, index => by
    have hlt := b.toNat_lt
    obtain ⟨high, hhigh, hh⟩ := exists_digitByte (n := b.toNat / 16) (by omega)
    obtain ⟨low, hlow, hl⟩ := exists_digitByte (n := b.toNat % 16) (by omega)
    have hutf8 : Text.utf8OfChars (encodeChars (b :: bs)) =
        high :: low :: Text.utf8OfChars (encodeChars bs) := by
      simp [encodeChars, digits, Text.utf8OfChars, hhigh, hlow]
    have hb : UInt8.ofNat (16 * (b.toNat / 16) + b.toNat % 16) = b := by
      rw [Nat.div_add_mod, UInt8.ofNat_toNat]
    rw [hutf8, decodePairs, digitAt_eq hh, digitAt_eq hl]
    simp only [bind, Except.bind, decodePairs_encodeChars bs, hb, pure, Except.pure]

theorem length_utf8_encodeChars : ∀ bs : Bytes,
    (Text.utf8OfChars (encodeChars bs)).length = 2 * bs.length
  | [] => rfl
  | b :: bs => by
    have hlt := b.toNat_lt
    obtain ⟨high, hhigh, -⟩ := exists_digitByte (n := b.toNat / 16) (by omega)
    obtain ⟨low, hlow, -⟩ := exists_digitByte (n := b.toNat % 16) (by omega)
    have ih := length_utf8_encodeChars bs
    simp only [encodeChars, Text.utf8OfChars] at ih
    simp [encodeChars, digits, Text.utf8OfChars, hhigh, hlow, ih]
    omega

theorem decode_encode (bs : Bytes) : decode (encode bs) = .ok bs := by
  have heven : 2 * bs.length % 2 ≠ 1 := by omega
  rw [decode, Text.utf8, encode, String.toList_ofList, decodeUtf8, length_utf8_encodeChars,
    if_neg heven, decodePairs_encodeChars]

theorem encode_injective : Function.Injective encode := fun bs bs' h => by
  have hd := decode_encode bs
  rw [h, decode_encode] at hd
  exact (Except.ok.inj hd).symm

theorem encode_cons (b : UInt8) (bs : Bytes) : encode (b :: bs) = encode [b] ++ encode bs := by
  simp [encode, encodeChars, ← String.ofList_append]

/-- Filling a byte up to two digits gives its two halves. -/
theorem byteText_eq (b : UInt8) : byteText b = encode [b] := by
  have hlt := b.toNat_lt
  have hdigits : encode [b] =
      String.ofList [Nat.digitChar (b.toNat / 16), Nat.digitChar (b.toNat % 16)] := rfl
  rw [hdigits, byteText]
  by_cases hb : b.toNat < 16
  · rw [Nat.toDigits_of_lt_base hb, Nat.div_eq_of_lt hb, Nat.mod_eq_of_lt hb]
    rfl
  · rw [Nat.toDigits_eq_if (by decide), if_neg hb, Nat.toDigits_of_lt_base (by omega)]
    rfl

theorem foldl_byteText (bs : Bytes) (text : String) :
    bs.foldl (fun text b => text ++ byteText b) text = text ++ encode bs := by
  induction bs generalizing text with
  | nil => exact String.append_empty.symm
  | cons b bs ih => rw [List.foldl_cons, ih, byteText_eq, String.append_assoc, ← encode_cons]

theorem length_encodeChars (bs : Bytes) : (encodeChars bs).length = 2 * bs.length := by
  induction bs with
  | nil => rfl
  | cons b bs ih =>
    simp only [encodeChars, List.flatMap_cons, List.length_append, digits, List.length_cons,
      List.length_nil] at ih ⊢
    omega

theorem exists_digitChar {bs : Bytes} {c : Char} (hc : c ∈ encodeChars bs) :
    ∃ n < 16, c = Nat.digitChar n := by
  obtain ⟨b, -, hb⟩ := List.mem_flatMap.1 hc
  have hlt := b.toNat_lt
  simp only [digits, List.mem_cons, List.not_mem_nil, or_false] at hb
  rcases hb with rfl | rfl
  · exact ⟨_, by omega, rfl⟩
  · exact ⟨_, by omega, rfl⟩

theorem encodeChars_not_blank {bs : Bytes} {c : Char} (hc : c ∈ encodeChars bs) :
    Text.isBlank c = false := by
  obtain ⟨n, hn, rfl⟩ := exists_digitChar hc
  exact digitChar_not_blank n hn

theorem not_mem_encode {bs : Bytes} {c : Char} (hc : Text.isBlank c = true) :
    c ∉ (encode bs).toList := by
  intro h
  rw [encode, String.toList_ofList] at h
  rw [encodeChars_not_blank h] at hc
  cases hc

theorem encode_eq_empty_iff {bs : Bytes} : encode bs = "" ↔ bs = [] := by
  constructor
  · intro h
    exact encode_injective (h.trans rfl)
  · rintro rfl
    rfl

end Hex

/-- A hash reads the same where it is referred to as where it is shown. -/
theorem Hash256.reference_eq_display (h : Hash256) : h.reference = h.display := by
  rw [reference, Hex.foldl_byteText, String.empty_append, display]

theorem Text.trim_encode (bs : Bytes) : trim (Hex.encode bs) = Hex.encode bs :=
  trim_eq_self fun _ hc => Bool.eq_false_iff.2 fun hblank => Hex.not_mem_encode hblank hc

/-- Hexadecimal text without blanks around it stands for the bytes that it spells. -/
theorem Transaction.bytesOfHex_encode {bs : Bytes} (h : bs ≠ []) :
    bytesOfHex (Hex.encode bs) = .ok bs := by
  have hne : (Hex.encode bs).isEmpty = false := by
    rw [Bool.eq_false_iff, ne_eq, String.isEmpty_iff, Hex.encode_eq_empty_iff]
    exact h
  simp [bytesOfHex, Text.trim_encode, hne, Hex.decode_encode, Except.mapError]

end TxScope
