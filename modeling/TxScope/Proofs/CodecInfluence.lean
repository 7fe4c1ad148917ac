import TxScope.Proofs.OutputType

/-!
# What the codec decides

A codec makes addresses, and it may refuse for any bytes it likes. Whatever it does, the type and
the data of an output are those of its script, unless the script has the taproot form: there the
type tells whether the codec can show the key at all. An address is what the codec answers about the
bytes that the type points to (`Codec.Answers`).
-/

namespace TxScope

open Script

/-- For an output of the type, the codec answers `a` when asked about the bytes inside the script,
or, for one of unknown type, when the script is tried against the templates. -/
def Codec.Answers (codec : Codec) (network : Network) (script : Bytes) (a : String) :
    OutputType → Prop
  | .p2pkh => codec.keyHash (slice script 3 23) network = .ok a
  | .p2sh => codec.scriptHash (slice script 2 22) network = .ok a
  | .p2wpkh => codec.witnessV0 (slice script 2 22) network = .ok a
  | .p2wsh => codec.witnessV0 (slice script 2 34) network = .ok a
  | .p2tr => codec.taproot (slice script 2 34) network = .ok a ∨
    (∃ e, codec.taproot (slice script 2 34) network = .error e) ∧
      codec.witnessV1 (slice script 2 34) network = .ok a
  | .p2pk => codec.publicKey (slice script 1 (script.length - 1)) network = .ok a
  | .unknown => ∃ (before : List Template) (t : Template) (after : List Template),
    [.p2pkh, .p2sh, .p2wpkh, .p2wsh, .p2tr] = before ++ t :: after ∧
      codec.probe t script network = some a ∧ ∀ t' ∈ before, codec.probe t' script network = none
  | .p2ms | .opReturn | .invalid | .error => False

namespace Classification

variable {a : String} {script key : Bytes} {codec : Codec} {network : Network}

theorem probed_address_iff : (probed script codec network).address = some a ↔
    codec.Answers network script a .unknown := by
  rw [probed_address, List.findSome?_eq_some_iff]
  rfl

theorem ofTaproot_address_iff (h : slice script 2 34 = key) :
    (ofTaproot script key codec network).address = some a ↔
      codec.Answers network script a (ofTaproot script key codec network).type := by
  rcases ofTaproot_cases script key codec network with ⟨b, ht, heq⟩ | ⟨e, b, ht, hw, heq⟩ |
    ⟨e, e', -, -, heq⟩ <;> rw [heq]
  · simp [plain, Codec.Answers, h, ht]
  · simp [plain, noted, Codec.Answers, h, ht, hw]
  · rw [probed_address_iff, probed_type]

theorem answers_template_iff {t : Template} (ht : t ≠ .p2tr) :
    codec.Answers network script a t.type ↔ codec.encoder t
      (slice script t.opening.length (t.opening.length + t.payloadSize)) network = .ok a := by
  cases t with
  | p2tr => exact absurd rfl ht
  | _ => rfl

theorem address_iff_of_template {t : Template} {payload : Bytes} (ht : t ≠ .p2tr)
    (h : Shape.ofScript script = t.shape payload) :
    (ofScript script codec network).address = some a ↔
      codec.Answers network script a (ofScript script codec network).type := by
  rw [of_shape_template ht h codec network, withAddress_address_iff, withAddress_type,
    answers_template_iff ht, slice_of_shape h]

/-- An output has the address that the codec answers, and no other. -/
theorem address_eq_some_iff : (ofScript script codec network).address = some a ↔
    codec.Answers network script a (ofScript script codec network).type := by
  cases hs : Shape.ofScript script with
  | keyHash hash => exact address_iff_of_template (t := .p2pkh) nofun hs
  | scriptHash hash => exact address_iff_of_template (t := .p2sh) nofun hs
  | witnessKeyHash program => exact address_iff_of_template (t := .p2wpkh) nofun hs
  | witnessScriptHash program => exact address_iff_of_template (t := .p2wsh) nofun hs
  | taproot key =>
    rw [of_shape_taproot hs]
    exact ofTaproot_address_iff (slice_of_shape (t := .p2tr) hs)
  | publicKey key =>
    rw [of_shape_publicKey hs, ofPublicKey_address_iff, ofPublicKey_type, Codec.Answers,
      slice_of_publicKey hs]
  | other =>
    simp only [ofScript, hs, probed_type]
    exact probed_address_iff
  | _ => simp [ofScript, hs, plain, noted, Codec.Answers]

theorem type_eq_invalid_iff : (ofScript script codec network).type = .invalid ↔ script = [] := by
  rw [type_eq_iff .invalid nofun nofun, ← ofScript_eq_empty_iff]
  cases Shape.ofScript script <;> simp [Shape.type]

theorem type_eq_error_iff : (ofScript script codec network).type = .error ↔
    ∃ cut, cut.length < 2 ∧ script = opReturn :: 0x4d :: cut := by
  rw [type_eq_iff .error nofun nofun, ← ofScript_eq_cutData_iff]
  cases Shape.ofScript script <;> simp [Shape.type]

/-- Whatever the codec does, the type and the data of an output are those of its script, unless the
script has the taproot form: then the type tells whether the codec can show the key, and no form
behind taproot takes the script if it cannot. The address is what the codec answers about the bytes
inside the script. No refusal of the codec makes a script invalid or an error, and where nothing is
paid to one address none is shown. -/
theorem codec_influence_confined (script : Bytes) (codec : Codec) (network : Network) :
    (¬ (script.length = 34 ∧ [0x51, 0x20] <+: script) → ∀ codec' network',
      (ofScript script codec network).type = (ofScript script codec' network').type ∧
      (ofScript script codec network).data = (ofScript script codec' network').data) ∧
    (script.length = 34 ∧ [0x51, 0x20] <+: script →
      (ofScript script codec network).data = none ∧
      ((∃ a, codec.taproot (slice script 2 34) network = .ok a ∨
          codec.witnessV1 (slice script 2 34) network = .ok a) →
        (ofScript script codec network).type = .p2tr) ∧
      ((¬ ∃ a, codec.taproot (slice script 2 34) network = .ok a ∨
          codec.witnessV1 (slice script 2 34) network = .ok a) →
        (ofScript script codec network).type = .unknown) ∧
      (keyForm 65).read script = none ∧ (keyForm 33).read script = none ∧
        script.length < minimumMultisig) ∧
    (∀ a, (ofScript script codec network).address = some a ↔
      codec.Answers network script a (ofScript script codec network).type) ∧
    ((ofScript script codec network).type = .invalid ↔ script = []) ∧
    ((ofScript script codec network).type = .error ↔
      ∃ cut, cut.length < 2 ∧ script = opReturn :: 0x4d :: cut) ∧
    ((ofScript script codec network).type ∈ [.opReturn, .p2ms, .invalid, .error] →
      (ofScript script codec network).address = none) := by
  refine ⟨fun hform codec' network' => ?_, fun hform => ?_, fun a => address_eq_some_iff,
    type_eq_invalid_iff, type_eq_error_iff, fun htype => ?_⟩
  · have hshape := not_exists.1 (mt ofScript_eq_taproot_iff.1 hform)
    obtain ⟨htype, hdata⟩ := of_shape_ne_taproot hshape codec network
    obtain ⟨htype', hdata'⟩ := of_shape_ne_taproot hshape codec' network'
    exact ⟨htype.trans htype'.symm, hdata.trans hdata'.symm⟩
  · obtain ⟨key, hkey⟩ := ofScript_eq_taproot_iff.2 hform
    have hslice : slice script 2 34 = key := slice_of_shape (t := .p2tr) hkey
    have hlater := later_forms_refuse hform
    rw [of_shape_taproot hkey, hslice]
    rcases ofTaproot_cases script key codec network with ⟨b, ht, heq⟩ | ⟨e, b, ht, hw, heq⟩ |
      ⟨e, e', ht, hw, heq⟩ <;> rw [heq]
    · simp [plain, ht, hlater]
    · simp [plain, noted, ht, hw, hlater]
    · simp [ht, hw, hlater]
  · refine Option.eq_none_iff_forall_ne_some.2 fun a ha => ?_
    rw [address_eq_some_iff] at ha
    simp only [List.mem_cons, List.not_mem_nil, or_false] at htype
    rcases htype with htype | htype | htype | htype <;> rw [htype] at ha <;> exact ha

/-- A codec that refuses whatever it is asked. -/
def refusing : Codec where
  keyHash := fun _ _ => .error (.templateMismatch "P2PKH")
  scriptHash := fun _ _ => .error (.templateMismatch "P2SH")
  witnessV0 := fun _ _ => .error (.templateMismatch "segwit v0")
  taproot := fun _ _ => .error (.templateMismatch "P2TR")
  witnessV1 := fun _ _ => .error (.templateMismatch "segwit v1")
  publicKey := fun _ _ => .error (.templateMismatch "P2PK")
  probe := fun _ _ _ => none

/-- Refusals leave a script hash what it is; an output key has its type as long as one way to show
it is left; and a data output that breaks off has no address. -/
theorem codec_influence_confined_refusing :
    (∀ codec network,
      (ofScript (Template.p2sh.form.spell (List.replicate 20 9)) codec network).type =
        (ofScript (Template.p2sh.form.spell (List.replicate 20 9)) refusing .mainnet).type) ∧
    (ofScript (Template.p2tr.form.spell (List.replicate 32 9)) refusing .mainnet).type = .unknown ∧
    (ofScript (Template.p2tr.form.spell (List.replicate 32 9))
      { refusing with witnessV1 := fun _ _ => .ok "plain" } .mainnet).type = .p2tr ∧
    (ofScript [opReturn, 0x4d, 0] refusing .mainnet).address = none := by
  refine ⟨fun codec network => ?_, ?_, ?_, ?_⟩
  · exact ((codec_influence_confined _ codec network).1 (by decide) refusing .mainnet).1
  · refine ((codec_influence_confined _ refusing .mainnet).2.1 (by decide)).2.2.1 ?_
    rintro ⟨a, h | h⟩ <;> cases h
  · exact ((codec_influence_confined _ _ .mainnet).2.1 (by decide)).2.1 ⟨"plain", .inr rfl⟩
  · have herror := (codec_influence_confined [opReturn, 0x4d, 0] refusing .mainnet).2.2.2.2.1.2
      ⟨[0], by decide, rfl⟩
    exact (codec_influence_confined _ refusing .mainnet).2.2.2.2.2 (by rw [herror]; decide)

end Classification

end TxScope
