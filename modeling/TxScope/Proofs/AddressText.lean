import TxScope.Proofs.Bech32
import TxScope.Proofs.StandardCodec

/-!
# An address determines its script

The text of an address tells what it pays to, and of the network what it shows of it: the version
byte, or the readable part (`text_inj`). The two ways of writing never give the same text, for that
of a witness program is longer. So outputs of standard types that show the same address have the
same script (`address_eq_iff`).
-/

namespace TxScope

namespace Base58

theorem length_checked (version : UInt8) (payload : Bytes) :
    (checked version payload).length = payload.length + 5 := by
  rw [checked, List.length_append, List.length_cons,
    List.length_take_of_le (by rw [Hash256.size_eq]; decide)]

theorem encodeChecked_inj {version version' : UInt8} {payload payload' : Bytes}
    (h : encodeChecked version payload = encodeChecked version' payload') :
    version = version' ∧ payload = payload' := by
  have hchecked : checked version payload = checked version' payload' := encode_injective h
  have hlen := congrArg List.length hchecked
  rw [length_checked, length_checked] at hlen
  rw [checked, checked] at hchecked
  have hfront := List.append_inj_left hchecked (by
    rw [List.length_cons, List.length_cons]
    omega)
  exact List.cons.inj hfront

end Base58

namespace Address

/-- Hashes have 20 bytes, programs at least as many and a version of one symbol. -/
def Standard : Address → Prop
  | .keyHash hash => hash.length = 20
  | .scriptHash hash => hash.length = 20
  | .witness version program => version < 32 ∧ 20 ≤ program.length

/-- What the address shows of its network is the same of both. -/
def Alike (network network' : Network) : Address → Prop
  | .keyHash _ => network.keyHashVersion = network'.keyHashVersion
  | .scriptHash _ => network.scriptHashVersion = network'.scriptHashVersion
  | .witness _ _ => network.readablePart = network'.readablePart

variable {network network' : Network}

theorem keyHashVersion_ne_scriptHashVersion :
    network.keyHashVersion ≠ network'.scriptHashVersion := by
  cases network <;> cases network' <;> decide

theorem one_notMem_readablePart : '1' ∉ network.readablePart.toList := by
  cases network <;> decide +kernel

/-- A program is written longer than a hash. -/
theorem encodeChecked_ne_encodeProgram {version : UInt8} {hash program : Bytes} {readable : String}
    {n : Nat} (hhash : hash.length = 20) (hprogram : 20 ≤ program.length) :
    Base58.encodeChecked version hash ≠ Bech32.encodeProgram readable n program := by
  intro h
  have hshort := Base58.length_encodeChars_le (Base58.checked version hash)
  have hlong := Bech32.length_encodeProgram_ge readable n program
  rw [← h, Base58.encodeChecked, Base58.encode, String.toList_ofList] at hlong
  rw [Base58.length_checked, hhash] at hshort
  omega

theorem text_inj {a a' : Address} (ha : a.Standard) (ha' : a'.Standard) :
    a.text network = a'.text network' ↔ a = a' ∧ a.Alike network network' := by
  constructor
  · intro h
    cases a with
    | keyHash hash =>
      rw [text_keyHash] at h
      cases a' with
      | keyHash hash' =>
        rw [text_keyHash] at h
        obtain ⟨hversion, rfl⟩ := Base58.encodeChecked_inj h
        exact ⟨rfl, hversion⟩
      | scriptHash hash' =>
        rw [text_scriptHash] at h
        exact absurd (Base58.encodeChecked_inj h).1 keyHashVersion_ne_scriptHashVersion
      | witness version' program' => exact absurd h (encodeChecked_ne_encodeProgram ha ha'.2)
    | scriptHash hash =>
      rw [text_scriptHash] at h
      cases a' with
      | keyHash hash' =>
        rw [text_keyHash] at h
        exact absurd (Base58.encodeChecked_inj h).1.symm keyHashVersion_ne_scriptHashVersion
      | scriptHash hash' =>
        rw [text_scriptHash] at h
        obtain ⟨hversion, rfl⟩ := Base58.encodeChecked_inj h
        exact ⟨rfl, hversion⟩
      | witness version' program' => exact absurd h (encodeChecked_ne_encodeProgram ha ha'.2)
    | witness version program =>
      cases a' with
      | keyHash hash' =>
        rw [text_keyHash] at h
        exact absurd h.symm (encodeChecked_ne_encodeProgram ha' ha.2)
      | scriptHash hash' =>
        rw [text_scriptHash] at h
        exact absurd h.symm (encodeChecked_ne_encodeProgram ha' ha.2)
      | witness version' program' =>
        obtain ⟨hreadable, rfl, rfl⟩ :=
          Bech32.encodeProgram_inj one_notMem_readablePart ha.1 ha'.1 h
        exact ⟨rfl, hreadable⟩
  · rintro ⟨rfl, halike⟩
    cases a with
    | keyHash hash =>
      rw [text_keyHash, text_keyHash]
      exact congrArg (Base58.encodeChecked · hash) halike
    | scriptHash hash =>
      rw [text_scriptHash, text_scriptHash]
      exact congrArg (Base58.encodeChecked · hash) halike
    | witness version program => exact congrArg (Bech32.encodeProgram · version program) halike

end Address

namespace Script.Template

/-- Addresses of the template's scripts begin alike on both networks. -/
def Alike (network network' : Network) : Template → Prop
  | .p2pkh => network.keyHashVersion = network'.keyHashVersion
  | .p2sh => network.scriptHashVersion = network'.scriptHashVersion
  | .p2wpkh | .p2wsh | .p2tr => network.readablePart = network'.readablePart

variable {t t' : Template} {payload payload' : Bytes}

theorem address_alike_iff {network network' : Network} :
    (t.address payload).Alike network network' ↔ t.Alike network network' := by
  cases t <;> rfl

theorem address_standard (h : payload.length = t.payloadSize) : (t.address payload).Standard := by
  cases t with
  | p2pkh => exact h
  | p2sh => exact h
  | p2wpkh => exact ⟨by decide, h.ge⟩
  | p2wsh => exact ⟨by decide, (by decide : 20 ≤ 32).trans h.ge⟩
  | p2tr => exact ⟨by decide, (by decide : 20 ≤ 32).trans h.ge⟩

/-- What is paid to tells the template, for programs by their version and size. -/
theorem address_inj (h : payload.length = t.payloadSize) (h' : payload'.length = t'.payloadSize)
    (heq : t.address payload = t'.address payload') : t = t' ∧ payload = payload' := by
  cases t <;> cases t' <;> simp_all [address, payloadSize]

end Script.Template

namespace Classification

open Script

variable {script script' : Bytes} {network network' : Network} {t t' : Template}

/-- Outputs of types that a template stands for show the same address exactly if they have the same
script and their networks begin such addresses alike. -/
theorem address_determines_script (h : (ofScript script .standard network).type = t.type)
    (h' : (ofScript script' .standard network').type = t'.type) :
    (ofScript script .standard network).address = (ofScript script' .standard network').address ↔
      script = script' ∧ t.Alike network network' := by
  obtain ⟨payload, hshape⟩ := standard_type_eq_iff.1 h
  obtain ⟨payload', hshape'⟩ := standard_type_eq_iff.1 h'
  obtain ⟨hlen, hscript⟩ := ofScript_eq_shape_iff.1 hshape
  obtain ⟨hlen', hscript'⟩ := ofScript_eq_shape_iff.1 hshape'
  rw [(standard_of_shape hshape _).2, (standard_of_shape hshape' _).2, Option.some_inj,
    ← Template.text_address, ← Template.text_address,
    Address.text_inj (Template.address_standard hlen) (Template.address_standard hlen'),
    Template.address_alike_iff]
  refine and_congr_left fun _ => ⟨fun heq => ?_, fun heq => ?_⟩
  · obtain ⟨rfl, rfl⟩ := Template.address_inj hlen hlen' heq
    exact hscript.trans hscript'.symm
  · rw [heq, hshape'] at hshape
    obtain ⟨rfl, rfl⟩ := Template.shape_inj hshape
    rfl

/-- Signet and testnet show the same address of this script, mainnet another one. -/
theorem address_determines_script_off_curve :
    ((ofScript offCurve .standard .testnet).type = .p2tr ∧
      (ofScript offCurve .standard .signet).type = .p2tr ∧
      (ofScript offCurve .standard .mainnet).type = .p2tr) ∧
    (ofScript offCurve .standard .testnet).address = (ofScript offCurve .standard .signet).address ∧
    (ofScript offCurve .standard .testnet).address ≠
      (ofScript offCurve .standard .mainnet).address := by
  have htype : ∀ network, (ofScript offCurve .standard network).type = Template.p2tr.type :=
    standard_type_offCurve
  refine ⟨⟨htype _, htype _, htype _⟩, ?_, fun heq => ?_⟩
  · exact (address_determines_script (htype _) (htype _)).2 ⟨rfl, rfl⟩
  · have hmark := ((address_determines_script (htype _) (htype _)).1 heq).2
    exact absurd hmark (by decide : Network.testnet.readablePart ≠ Network.mainnet.readablePart)

end Classification

end TxScope
