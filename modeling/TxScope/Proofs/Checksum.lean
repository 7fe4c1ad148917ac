import TxScope.Proofs.AddressText

/-!
# Texts that check themselves

A text with a checksum tells its version and its payload, whatever the length of the payload. Its
bytes are the version, the payload and four bytes of their double hash (`checked_eq`). Reading asks
that the last four bytes are the ones that belong to the bytes in front, and so it accepts the texts
that are written, with what they were written for, and no other text
(`decodeChecked_eq_some_iff`).
-/

namespace TxScope.Base58

/-- The first four bytes of the double SHA-256. -/
def checksum (message : Bytes) : Bytes := (Sha256.hash (Sha256.hash message)).take 4

/-- The version and the payload, if the last four bytes are the checksum of the bytes in front. -/
def decodeChecked (text : String) : Option (UInt8 × Bytes) :=
  match decode text with
  | none => none
  | some data =>
    match data.take (data.length - 4) with
    | [] => none
    | version :: payload =>
      if data.drop (data.length - 4) = checksum (version :: payload) then some (version, payload)
      else none

theorem checked_eq (version : UInt8) (payload : Bytes) :
    checked version payload = version :: payload ++ checksum (version :: payload) := rfl

/-- Checked bytes are told from the place where the last four bytes begin. -/
theorem eq_checked_iff {data : Bytes} {version : UInt8} {payload : Bytes} :
    data = checked version payload ↔ data.take (data.length - 4) = version :: payload ∧
      data.drop (data.length - 4) = checksum (version :: payload) := by
  constructor
  · rintro rfl
    have hlen : (checked version payload).length - 4 = (version :: payload).length := by
      rw [length_checked, Nat.add_sub_assoc (by decide), List.length_cons]
    rw [hlen, checked_eq]
    exact ⟨List.take_left, List.drop_left⟩
  · rintro ⟨hmessage, hcheck⟩
    rw [checked_eq, ← hcheck, ← hmessage, List.take_append_drop]

/-- A text is read as what it was written from. Without a byte in front of the last four there is no
version, and nothing is read. -/
theorem decodeChecked_eq_some_iff {text : String} {version : UInt8} {payload : Bytes} :
    decodeChecked text = some (version, payload) ↔ text = encodeChecked version payload := by
  have hread : decodeChecked text = some (version, payload) ↔
      decode text = some (checked version payload) := by
    unfold decodeChecked
    rcases decode text with _ | data
    · simp
    · rw [Option.some_inj, eq_checked_iff]
      dsimp only
      rcases data.take (data.length - 4) with _ | ⟨first, rest⟩
      · simp
      · dsimp only
        split_ifs with hcheck
        · simp only [Option.some.injEq, Prod.mk.injEq, List.cons.injEq]
          constructor
          · rintro ⟨rfl, rfl⟩
            exact ⟨⟨rfl, rfl⟩, hcheck⟩
          · exact And.left
        · simp only [false_iff, not_and]
          intro hmessage
          rwa [← hmessage]
  rw [hread, decode_eq_some_iff, encodeChecked]

/-- A text with a checksum is written in the symbols of Base58, with as many symbols `1` in front as
its bytes have zeros, and is read back as version, payload and checksum. No other text is read as
the same version and payload, nor is another version or payload written as the same text. -/
theorem encodeChecked_exact (version : UInt8) (payload : Bytes) :
    decode (encodeChecked version payload) = some (version :: payload ++
      (Sha256.hash (Sha256.hash (version :: payload))).take 4) ∧
    (encodeChecked version payload).toList ⊆ alphabet ∧
    ((encodeChecked version payload).toList.takeWhile (· == '1')).length =
      ((version :: payload ++
        (Sha256.hash (Sha256.hash (version :: payload))).take 4).takeWhile (· == 0)).length ∧
    (∀ text, decodeChecked text = some (version, payload) ↔
      text = encodeChecked version payload) ∧
    ∀ version' payload', encodeChecked version' payload' = encodeChecked version payload ↔
      version' = version ∧ payload' = payload := by
  have htext : (encodeChecked version payload).toList = encodeChars (checked version payload) :=
    String.toList_ofList
  refine ⟨decode_encode _, ?_, ?_, fun text => decodeChecked_eq_some_iff, fun v p => ⟨?_, ?_⟩⟩
  · rw [htext]
    exact encodeChars_subset _
  · rw [htext]
    exact length_takeWhile_encodeChars _
  · exact encodeChecked_inj
  · rintro ⟨rfl, rfl⟩
    rfl

/-- Without a payload, the five bytes of version zero begin with one zero. -/
example : encodeChecked 0 [] = "1Wh4bh" := by
  decide +kernel

end TxScope.Base58
