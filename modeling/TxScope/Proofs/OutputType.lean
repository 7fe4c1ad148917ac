import TxScope.Classification
import TxScope.Proofs.Forms

/-!
# The type of an output

The type of an output is that of its shape (`type_eq_iff`). A codec that refuses leaves the type as
it is, with one exception: an output key that it can show in neither way leaves the script without a
known type (`ofTaproot_cases`).
-/

namespace TxScope

open Script

namespace Classification

variable {type : OutputType} {a : String} {script key : Bytes} {codec : Codec} {network : Network}

@[simp] theorem withAddress_type (r : Except CodecError String) :
    (withAddress type r).type = type := by
  cases r <;> rfl

@[simp] theorem withAddress_data (r : Except CodecError String) :
    (withAddress type r).data = none := by
  cases r <;> rfl

@[simp] theorem withAddress_address_iff {r : Except CodecError String} :
    (withAddress type r).address = some a ↔ r = .ok a := by
  cases r with
  | ok b => simp [withAddress]
  | error e => simp [withAddress, noted, plain]

@[simp] theorem probed_type : (probed script codec network).type = .unknown := by
  unfold probed
  split <;> rfl

@[simp] theorem probed_data : (probed script codec network).data = none := by
  unfold probed
  split <;> rfl

@[simp] theorem probed_address : (probed script codec network).address =
    Template.all.findSome? fun t => codec.probe t script network := by
  unfold probed
  split
  · rename_i b h
    exact h.symm
  · rename_i h
    exact h.symm

@[simp] theorem ofPublicKey_type : (ofPublicKey key codec network).type = .p2pk := by
  unfold ofPublicKey
  split <;> rfl

@[simp] theorem ofPublicKey_data : (ofPublicKey key codec network).data = none := by
  unfold ofPublicKey
  split <;> rfl

@[simp] theorem ofPublicKey_address_iff :
    (ofPublicKey key codec network).address = some a ↔ codec.publicKey key network = .ok a := by
  unfold ofPublicKey
  split
  · rename_i b h
    simp [h, noted]
  · rename_i e h
    simp [h, noted, plain]

/-- An output key is shown as such, or else as a plain program, or else its script is probed. -/
theorem ofTaproot_cases (script key : Bytes) (codec : Codec) (network : Network) :
    (∃ b, codec.taproot key network = .ok b ∧
      ofTaproot script key codec network = { plain .p2tr with address := b }) ∨
    (∃ e b, codec.taproot key network = .error e ∧ codec.witnessV1 key network = .ok b ∧
      ofTaproot script key codec network = { plain .p2tr with address := b }.noted "derived") ∨
    (∃ e e', codec.taproot key network = .error e ∧ codec.witnessV1 key network = .error e' ∧
      ofTaproot script key codec network = probed script codec network) := by
  rcases ht : codec.taproot key network with e | b
  · rcases hw : codec.witnessV1 key network with e' | b
    · exact .inr (.inr ⟨e, e', rfl, rfl, by simp [ofTaproot, ht, hw]⟩)
    · exact .inr (.inl ⟨e, b, rfl, rfl, by simp [ofTaproot, ht, hw]⟩)
  · exact .inl ⟨b, rfl, by simp [ofTaproot, ht]⟩

end Classification

namespace Script

/-- The type of an output whose script has the shape, if the codec can show its key. -/
def Shape.type : Shape → OutputType
  | .empty => .invalid
  | .data _ => .opReturn
  | .cutData _ => .error
  | .keyHash _ => .p2pkh
  | .scriptHash _ => .p2sh
  | .witnessKeyHash _ => .p2wpkh
  | .witnessScriptHash _ => .p2wsh
  | .taproot _ => .p2tr
  | .publicKey _ => .p2pk
  | .multisig => .p2ms
  | .other => .unknown

def Shape.payload? : Shape → Option Bytes
  | .data payload => payload
  | _ => none

def Template.type : Template → OutputType
  | .p2pkh => .p2pkh
  | .p2sh => .p2sh
  | .p2wpkh => .p2wpkh
  | .p2wsh => .p2wsh
  | .p2tr => .p2tr

theorem Shape.type_eq_template_iff {s : Shape} {t : Template} :
    s.type = t.type ↔ ∃ payload, s = t.shape payload := by
  constructor
  · intro h
    cases s <;> cases t <;> cases h <;> exact ⟨_, rfl⟩
  · rintro ⟨payload, rfl⟩
    cases t <;> rfl

end Script

/-- How the codec writes the address of a script of the template's form. -/
def Codec.encoder (codec : Codec) : Template → Encoder
  | .p2pkh => codec.keyHash
  | .p2sh => codec.scriptHash
  | .p2wpkh => codec.witnessV0
  | .p2wsh => codec.witnessV0
  | .p2tr => codec.taproot

namespace Classification

variable {script key payload : Bytes} {codec : Codec} {network : Network}

theorem of_shape_template {t : Template} (ht : t ≠ .p2tr)
    (h : Shape.ofScript script = t.shape payload) (codec : Codec) (network : Network) :
    ofScript script codec network = withAddress t.type (codec.encoder t payload network) := by
  rw [ofScript, h]
  cases t with
  | p2tr => exact absurd rfl ht
  | _ => rfl

theorem of_shape_publicKey (h : Shape.ofScript script = .publicKey key) :
    ofScript script codec network = ofPublicKey key codec network := by
  rw [ofScript, h]

theorem of_shape_ne_taproot (h : ∀ key, Shape.ofScript script ≠ .taproot key) (codec : Codec)
    (network : Network) :
    (ofScript script codec network).type = (Shape.ofScript script).type ∧
      (ofScript script codec network).data = (Shape.ofScript script).payload? := by
  unfold ofScript
  cases hs : Shape.ofScript script with
  | taproot key => exact absurd hs (h key)
  | _ => simp [Shape.type, Shape.payload?, plain, noted]

theorem of_shape_taproot (h : Shape.ofScript script = .taproot key) :
    ofScript script codec network = ofTaproot script key codec network := by
  rw [ofScript, h]

/-- Only between `p2tr` and `unknown` does the codec choose. -/
theorem type_eq_iff (type : OutputType) (htr : type ≠ .p2tr) (hun : type ≠ .unknown) :
    (ofScript script codec network).type = type ↔ (Shape.ofScript script).type = type := by
  by_cases h : ∃ key, Shape.ofScript script = .taproot key
  · obtain ⟨key, hkey⟩ := h
    rw [of_shape_taproot hkey, hkey, Shape.type]
    refine iff_of_false ?_ htr.symm
    rcases ofTaproot_cases script key codec network with ⟨b, -, h⟩ | ⟨e, b, -, -, h⟩ |
      ⟨e, e', -, -, h⟩ <;> rw [h]
    · exact htr.symm
    · exact htr.symm
    · rw [probed_type]
      exact hun.symm
  · rw [(of_shape_ne_taproot (not_exists.1 h) codec network).1]

theorem type_eq_template_iff {t : Template} (ht : t ≠ .p2tr) :
    (ofScript script codec network).type = t.type ↔
      ∃ payload, Shape.ofScript script = t.shape payload := by
  have hne : t.type ≠ .p2tr ∧ t.type ≠ .unknown := by
    cases t <;> first | exact absurd rfl ht | exact ⟨nofun, nofun⟩
  rw [type_eq_iff t.type hne.1 hne.2, Shape.type_eq_template_iff]

theorem type_eq_p2pk_iff : (ofScript script codec network).type = .p2pk ↔
    ∃ key, Shape.ofScript script = .publicKey key := by
  rw [type_eq_iff .p2pk nofun nofun]
  cases Shape.ofScript script <;> simp [Shape.type]

end Classification

end TxScope
