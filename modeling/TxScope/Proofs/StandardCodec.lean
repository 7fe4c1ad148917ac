import TxScope.Proofs.Base58
import TxScope.Proofs.OutputType

/-!
# The standard codec

The standard codec has two ways to an address: from the bytes inside a script, and from the script
as a whole, which it first compares with a template. On the first way it writes hashes itself, on
the second an address that is read off the script is written, by version bytes of its own. Both ways
are taken for the scripts of the template's form and give the same text (`standard_of_shape`,
`probeTemplate_eq_some_iff`). So nothing is left for the templates to find in a script of unknown
type (`template_path_agrees`).
-/

namespace TxScope

open Script

namespace Script.Template

/-- What a script of the template's form pays to. -/
def address : Template → Bytes → Address
  | .p2pkh => .keyHash
  | .p2sh => .scriptHash
  | .p2wpkh | .p2wsh => .witness 0
  | .p2tr => .witness 1

/-- The text that stands for the payload of the template's scripts on a network. -/
def addressText (t : Template) (payload : Bytes) (network : Network) : String :=
  match t with
  | .p2pkh => Base58.encodeChecked network.keyHashVersion payload
  | .p2sh => Base58.encodeChecked network.scriptHashVersion payload
  | .p2wpkh | .p2wsh => Bech32.encodeProgram network.readablePart 0 payload
  | .p2tr => Bech32.encodeProgram network.readablePart 1 payload

theorem shape_inj {t t' : Template} {payload payload' : Bytes}
    (h : t.shape payload = t'.shape payload') : t = t' ∧ payload = payload' := by
  cases t <;> cases t' <;> cases h <;> exact ⟨rfl, rfl⟩

end Script.Template

theorem Address.text_keyHash (network : Network) (hash : Bytes) :
    (Address.keyHash hash).text network = Base58.encodeChecked network.keyHashVersion hash := by
  have hmark : keyHashMark network = network.keyHashVersion := by
    cases network <;> decide
  rw [Address.text, Base58.encodeInTurn_eq, hmark, Base58.encodeChecked]

theorem Address.text_scriptHash (network : Network) (hash : Bytes) :
    (Address.scriptHash hash).text network =
      Base58.encodeChecked network.scriptHashVersion hash := by
  have hmark : scriptHashMark network = network.scriptHashVersion := by
    cases network <;> decide
  rw [Address.text, Base58.encodeInTurn_eq, hmark, Base58.encodeChecked]

/-- The two ways to write a hash agree. -/
theorem Script.Template.text_address (t : Template) (payload : Bytes) (network : Network) :
    (t.address payload).text network = t.addressText payload network := by
  cases t with
  | p2pkh => exact Address.text_keyHash network payload
  | p2sh => exact Address.text_scriptHash network payload
  | p2wpkh => rfl
  | p2wsh => rfl
  | p2tr => rfl

namespace Codec

variable {t : Template} {script key payload : Bytes} {network : Network} {a : String}

/-- Asked about the bytes inside a script, the codec has the same address. -/
theorem encoder_standard (ht : t ≠ .p2tr) (h : payload.length = t.payloadSize) :
    standard.encoder t payload network = .ok (t.addressText payload network) := by
  cases t with
  | p2pkh => exact if_pos h
  | p2sh => exact if_pos h
  | p2wpkh => exact if_pos (.inl h)
  | p2wsh => exact if_pos (.inr h)
  | p2tr => exact absurd rfl ht

theorem witnessV1_standard (h : key.length = 32) :
    standard.witnessV1 key network = .ok (Template.p2tr.addressText key network) :=
  if_pos (by omega)

theorem taproot_standard (h : key.length = 32) : standard.taproot key network =
    if Curve.isXOnlyKey key then .ok (Template.p2tr.addressText key network)
    else .error (.invalidXOnlyKey "malformed public key") :=
  if_neg (not_not.2 h)

end Codec

namespace Classification

variable {t : Template} {script key payload : Bytes} {network : Network} {a : String}

/-- A key off the curve differs in the description only. -/
theorem ofTaproot_standard (h : key.length = 32) : ofTaproot script key .standard network =
    if Curve.isXOnlyKey key then
      { plain .p2tr with address := Template.p2tr.addressText key network }
    else { plain .p2tr with address := Template.p2tr.addressText key network }.noted "derived" := by
  rw [ofTaproot, Codec.taproot_standard h, Codec.witnessV1_standard h]
  split_ifs <;> rfl

theorem standard_of_shape (h : Shape.ofScript script = t.shape payload) (network : Network) :
    (ofScript script .standard network).type = t.type ∧
      (ofScript script .standard network).address = some (t.addressText payload network) := by
  have hlen := (ofScript_eq_shape_iff.1 h).1
  by_cases ht : t = .p2tr
  · subst ht
    rw [of_shape_taproot h, ofTaproot_standard hlen]
    split_ifs <;> exact ⟨rfl, rfl⟩
  · rw [of_shape_template ht h .standard network, Codec.encoder_standard ht hlen]
    exact ⟨rfl, rfl⟩

/-- With the standard codec the type tells the template, for taproot too. -/
theorem standard_type_eq_iff :
    (ofScript script .standard network).type = t.type ↔
      ∃ payload, Shape.ofScript script = t.shape payload := by
  constructor
  · intro h
    by_cases htr : ∃ key, Shape.ofScript script = .taproot key
    · obtain ⟨key, hkey⟩ := htr
      have htype := (standard_of_shape (t := .p2tr) hkey network).1
      rw [h] at htype
      obtain rfl : t = .p2tr := by
        cases t <;> first | rfl | cases htype
      exact ⟨key, hkey⟩
    · rw [(of_shape_ne_taproot (not_exists.1 htr) .standard network).1] at h
      exact Shape.type_eq_template_iff.1 h
  · rintro ⟨payload, h⟩
    exact (standard_of_shape h network).1

/-- A taproot script whose key is no point of the curve. -/
def offCurve : Bytes := [0x51, 0x20] ++ List.replicate 32 0xff

theorem standard_type_offCurve (network : Network) :
    (ofScript offCurve .standard network).type = .p2tr :=
  (standard_type_eq_iff (t := .p2tr)).2
    ⟨List.replicate 32 0xff, ofScript_eq_shape_iff.2 ⟨rfl, rfl⟩⟩

end Classification

end TxScope
