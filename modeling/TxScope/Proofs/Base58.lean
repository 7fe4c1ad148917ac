import Mathlib.Data.List.GetD
import TxScope.Address.Base58
import TxScope.Proofs.Bytes
import TxScope.Proofs.Numerals

/-!
# Base58 is read back

A text in Base58 is read as the bytes that it was made from, and nothing else is read
(`decode_eq_some_iff`): its symbols are the digits of the number that the bytes spell, and as many
symbols `1` stand in front as there are zero bytes. Taking the bytes in one after the other gives
the same text (`encodeInTurn_eq`). A text is little longer than the bytes (`length_encodeChars_le`).
-/

namespace TxScope

theorem littleEndian_eq_ofDigits : ∀ bs : Bytes,
    littleEndian bs = Nat.ofDigits 256 (bs.map UInt8.toNat)
  | [] => rfl
  | b :: bs => by
    rw [littleEndian, List.map_cons, Nat.ofDigits_cons, littleEndian_eq_ofDigits bs]

/-- Bytes as the symbols of a number. -/
def byteNumerals : Numerals UInt8 where
  base := 256
  symbol := UInt8.ofNat
  digit := UInt8.toNat
  one_lt_base := by decide
  digit_symbol _ hd := UInt8.toNat_ofNat_of_lt' hd

theorem isSymbol_byte (b : UInt8) : byteNumerals.IsSymbol b := ⟨b.toNat_lt, UInt8.ofNat_toNat⟩

theorem bigEndian_eq_value (bs : Bytes) : bigEndian bs = byteNumerals.value bs := by
  rw [bigEndian, littleEndian_eq_ofDigits, List.map_reverse]
  rfl

namespace Base58

theorem digits_cons {n : Nat} (hn : n ≠ 0) : digits n = n % 58 :: digits (n / 58) := by
  rw [digits, dif_neg hn]

theorem digits_eq (n : Nat) : digits n = Nat.digits 58 n := by
  induction n using digits.induct with
  | case1 => rw [digits, dif_pos rfl, Nat.digits_zero]
  | case2 n hn ih =>
    rw [digits_cons hn, ih, ← Nat.digits_def' (by decide) (Nat.pos_of_ne_zero hn)]

/-- Taking in one more byte gives the digits of the longer number. -/
theorem takeIn_digits (n carry : Nat) : takeIn (digits n) carry = digits (256 * n + carry) := by
  induction n using digits.induct generalizing carry with
  | case1 => rw [digits, dif_pos rfl, takeIn, Nat.mul_zero, Nat.zero_add]
  | case2 n hn ih =>
    have hlow : (256 * n + carry) % 58 = (256 * (n % 58) + carry) % 58 := by omega
    have hhigh : (256 * n + carry) / 58 = 256 * (n / 58) + (256 * (n % 58) + carry) / 58 := by
      omega
    rw [digits_cons hn, takeIn, ih, digits_cons (n := 256 * n + carry) (by omega), hlow, hhigh]

theorem foldl_takeIn (bs : Bytes) :
    bs.foldl (fun ds b => takeIn ds b.toNat) [] = digits (bigEndian bs) := by
  induction bs using List.reverseRecOn with
  | nil => rw [List.foldl_nil, bigEndian, List.reverse_nil, littleEndian, digits, dif_pos rfl]
  | append_singleton bs b ih =>
    have hvalue : bigEndian (bs ++ [b]) = 256 * bigEndian bs + b.toNat := by
      rw [bigEndian, List.reverse_concat, littleEndian, bigEndian, Nat.add_comm]
    rw [List.foldl_concat, ih, takeIn_digits, hvalue]

theorem encodeInTurn_eq (bs : Bytes) : encodeInTurn bs = encode bs := by
  rw [encodeInTurn, encode, encodeChars, foldl_takeIn]

def digit (c : Char) : Nat := alphabet.idxOf c

/-- The bytes that spell a number, without zeros in front. -/
def numberBytes (n : Nat) : Bytes := ((Nat.digits 256 n).map UInt8.ofNat).reverse

/-- The bytes that a text in Base58 stands for, if all of it are symbols. -/
def decodeChars (text : List Char) : Option Bytes :=
  if text.all (alphabet.contains ·) then
    some (List.replicate (text.takeWhile (· == '1')).length 0 ++
      numberBytes (Nat.ofDigits 58 (text.map digit).reverse))
  else none

def decode (text : String) : Option Bytes := decodeChars text.toList

theorem symbol_spec : ∀ d < 58, symbol d ∈ alphabet ∧ digit (symbol d) = d := by
  decide +kernel

theorem length_alphabet : alphabet.length = 58 := by
  decide +kernel

theorem digit_spec {c : Char} (h : c ∈ alphabet) : digit c < 58 ∧ symbol (digit c) = c := by
  have hlt : digit c < alphabet.length := List.idxOf_lt_length_iff.2 h
  refine ⟨length_alphabet ▸ hlt, ?_⟩
  rw [symbol, List.getD_eq_getElem _ _ hlt]
  exact List.getElem_idxOf hlt

/-- The symbols of Base58. That of zero is `1`. -/
def numerals : Numerals Char where
  base := 58
  symbol := symbol
  digit := digit
  one_lt_base := by decide
  digit_symbol d hd := (symbol_spec d hd).2

theorem symbol_zero : numerals.symbol 0 = '1' := by
  decide +kernel

theorem numberBytes_eq_write (n : Nat) : numberBytes n = byteNumerals.write n :=
  List.map_reverse.symm

theorem leadingZeros_eq (z : Nat) {rest : Bytes} (h : rest.head? ≠ some 0) :
    leadingZeros (List.replicate z 0 ++ rest) = z := length_takeWhile_replicate 0 z h

/-- The symbols of a number, of which the first is not that of zero. -/
def numberChars (n : Nat) : List Char := (Nat.digits 58 n).reverse.map symbol

theorem head?_numberChars (n : Nat) : (numberChars n).head? ≠ some '1' :=
  symbol_zero ▸ numerals.head?_write n

theorem encodeChars_eq (z : Nat) {rest : Bytes} (h : rest.head? ≠ some 0) :
    encodeChars (List.replicate z 0 ++ rest) =
      List.replicate z '1' ++ numberChars (bigEndian rest) := by
  have hvalue : bigEndian (List.replicate z 0 ++ rest) = bigEndian rest := by
    rw [bigEndian_eq_value, bigEndian_eq_value]
    exact byteNumerals.value_zeros_append z rest
  rw [encodeChars, leadingZeros_eq z h, hvalue, digits_eq, numberChars]

theorem one_mem_alphabet : '1' ∈ alphabet := by
  decide +kernel

theorem replicate_one_subset (z : Nat) : List.replicate z '1' ⊆ alphabet := fun _ hc =>
  List.eq_of_mem_replicate hc ▸ one_mem_alphabet

theorem numberChars_subset (n : Nat) : numberChars n ⊆ alphabet := by
  intro c hc
  have hsymbol : numerals.IsSymbol c := numerals.isSymbol_of_mem_write hc
  rw [← hsymbol.2]
  exact (symbol_spec _ hsymbol.1).1

theorem encodeChars_subset (bs : Bytes) : encodeChars bs ⊆ alphabet := by
  obtain ⟨z, rest, rfl, hrest⟩ := exists_leading 0 bs
  rw [encodeChars_eq z hrest]
  exact List.append_subset.2 ⟨replicate_one_subset z, numberChars_subset _⟩

theorem length_takeWhile_encodeChars (bs : Bytes) :
    ((encodeChars bs).takeWhile (· == '1')).length = (bs.takeWhile (· == 0)).length := by
  obtain ⟨z, rest, rfl, hrest⟩ := exists_leading 0 bs
  rw [encodeChars_eq z hrest, length_takeWhile_replicate '1' z (head?_numberChars _),
    length_takeWhile_replicate 0 z hrest]

theorem all_contains_iff {text : List Char} :
    text.all (alphabet.contains ·) = true ↔ text ⊆ alphabet := by
  simp only [List.all_eq_true, List.contains_iff_mem]
  rfl

theorem subset_of_decodeChars {text : List Char} {bs : Bytes} (h : decodeChars text = some bs) :
    text ⊆ alphabet := by
  unfold decodeChars at h
  split_ifs at h with hall
  exact all_contains_iff.1 hall

/-- Symbols `1` are read as zeros, and the symbols behind them as the bytes of a number. -/
theorem decodeChars_append (z : Nat) {cs : List Char} (hcs : cs ⊆ alphabet)
    (hhead : cs.head? ≠ some '1') : decodeChars (List.replicate z '1' ++ cs) =
      some (List.replicate z 0 ++ numberBytes (numerals.value cs)) := by
  have hvalue := numerals.value_zeros_append z cs
  rw [symbol_zero] at hvalue
  rw [decodeChars, if_pos (all_contains_iff.2 (List.append_subset.2 ⟨replicate_one_subset z, hcs⟩)),
    length_takeWhile_replicate '1' z hhead]
  exact congrArg (fun n => some (List.replicate z 0 ++ numberBytes n)) hvalue

theorem decodeChars_encodeChars (bs : Bytes) : decodeChars (encodeChars bs) = some bs := by
  obtain ⟨z, rest, rfl, hrest⟩ := exists_leading 0 bs
  have hvalue : numerals.value (numberChars (bigEndian rest)) = bigEndian rest :=
    numerals.value_write _
  have hbytes : numberBytes (bigEndian rest) = rest := by
    rw [numberBytes_eq_write, bigEndian_eq_value]
    exact byteNumerals.write_value (fun b _ => isSymbol_byte b) hrest
  rw [encodeChars_eq z hrest, decodeChars_append z (numberChars_subset _) (head?_numberChars _),
    hvalue, hbytes]

theorem encodeChars_of_decodeChars {text : List Char} {bs : Bytes}
    (h : decodeChars text = some bs) : text = encodeChars bs := by
  obtain ⟨z, cs, rfl, hhead⟩ := exists_leading '1' text
  have hcs : cs ⊆ alphabet := (List.append_subset.1 (subset_of_decodeChars h)).2
  have hfront : (numberBytes (numerals.value cs)).head? ≠ some 0 := by
    rw [numberBytes_eq_write]
    exact byteNumerals.head?_write _
  have hvalue : bigEndian (numberBytes (numerals.value cs)) = numerals.value cs := by
    rw [numberBytes_eq_write, bigEndian_eq_value, byteNumerals.value_write]
  have hchars : numberChars (numerals.value cs) = cs :=
    numerals.write_value (fun c hc => digit_spec (hcs hc)) (symbol_zero ▸ hhead)
  rw [decodeChars_append z hcs hhead] at h
  cases h
  rw [encodeChars_eq z hfront, hvalue, hchars]

theorem decode_encode (bs : Bytes) : decode (encode bs) = some bs := by
  rw [decode, encode, String.toList_ofList, decodeChars_encodeChars]

/-- What is read as bytes is the text that is written for them. -/
theorem decode_eq_some_iff {text : String} {bs : Bytes} :
    decode text = some bs ↔ text = encode bs := by
  constructor
  · intro h
    rw [encode, ← encodeChars_of_decodeChars h, String.ofList_toList]
  · rintro rfl
    exact decode_encode bs

theorem encode_injective : Function.Injective encode := fun bs bs' h => by
  rw [← Option.some_inj, ← decode_encode bs, h, decode_encode]

/-- Five bytes fit in seven symbols, for `256 ^ 5 < 58 ^ 7`. -/
theorem length_encodeChars_le (bs : Bytes) :
    5 * (encodeChars bs).length ≤ 7 * bs.length + 4 := by
  obtain ⟨z, rest, rfl, hrest⟩ := exists_leading 0 bs
  have hlt : bigEndian rest < 256 ^ rest.length := by
    simpa [bigEndian] using littleEndian_lt rest.reverse
  have hdigits : 5 * (Nat.digits 58 (bigEndian rest)).length ≤ 7 * rest.length + 4 := by
    generalize bigEndian rest = n at hlt
    generalize rest.length = k at hlt
    by_cases hn : n = 0
    · simp [hn]
    have hpow : 58 ^ (Nat.digits 58 n).length ≤ 58 * n :=
      Nat.base_pow_length_digits_le 58 n (by decide) hn
    have h5 : 58 ^ (5 * (Nat.digits 58 n).length) < 58 ^ (7 * k + 5) :=
      calc 58 ^ (5 * (Nat.digits 58 n).length) = (58 ^ (Nat.digits 58 n).length) ^ 5 := by
            rw [← Nat.pow_mul, Nat.mul_comm]
        _ ≤ (58 * n) ^ 5 := Nat.pow_le_pow_left hpow 5
        _ < (58 * 256 ^ k) ^ 5 := Nat.pow_lt_pow_left (by omega) (by decide)
        _ = 58 ^ 5 * (256 ^ 5) ^ k := by
            rw [Nat.mul_pow, ← Nat.pow_mul, ← Nat.pow_mul, Nat.mul_comm k 5]
        _ ≤ 58 ^ 5 * (58 ^ 7) ^ k :=
            Nat.mul_le_mul_left _ (Nat.pow_le_pow_left (by decide) k)
        _ = 58 ^ (7 * k + 5) := by rw [← Nat.pow_mul, Nat.mul_comm, ← Nat.pow_add]
    have := (Nat.pow_lt_pow_iff_right (by decide : 1 < 58)).1 h5
    omega
  rw [encodeChars_eq z hrest, numberChars]
  simp only [List.length_append, List.length_replicate, List.length_map, List.length_reverse]
  omega

end Base58

end TxScope
