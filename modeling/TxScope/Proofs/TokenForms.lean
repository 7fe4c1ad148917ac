import TxScope.Proofs.Disassembly
import TxScope.Proofs.StandardCodec

/-!
# Types and tokens

The type of an output is told from the length and the fixed bytes of its script. The tokens of the
script, read one after the other, tell the same (`types_agree_with_tokens`): whole tokens are those
of one script only (`disassemble_eq_iff`), so a payload is one push and no push ends elsewhere.
-/

namespace TxScope

open Script

namespace Script

/-- A list of whole tokens is the disassembly of the script that they spell, and of no other. -/
theorem disassemble_eq_iff {script : Bytes} {ts : List Token}
    (hwhole : ∀ t ∈ ts, t.isMalformed = false) : disassemble script = ts ↔
      (∀ t ∈ ts, t.WellFormed) ∧ script = ts.flatMap Token.encode := by
  constructor
  · rintro rfl
    obtain ⟨hwell, ⟨htokens, hbytes⟩ | ⟨op, after, reason, htokens, -, -⟩⟩ :=
      wholeTokens_spec script
    · rw [htokens]
      exact ⟨hwell, hbytes⟩
    · rw [htokens] at hwhole
      cases hwhole (.malformed reason) (by simp)
  · rintro ⟨hwell, rfl⟩
    have h := disassemble_encode_append hwell []
    rwa [List.append_nil, disassemble_nil, List.append_nil] at h

/-- The tokens of a script of the template's form. -/
def Template.tokens : Template → Bytes → List Token
  | .p2pkh, hash => [.opcode opDup, .opcode opHash160, .push 0x14 hash, .opcode opEqualVerify,
    .opcode opCheckSig]
  | .p2sh, hash => [.opcode opHash160, .push 0x14 hash, .opcode opEqual]
  | .p2wpkh, program => [.opcode op0, .push 0x14 program]
  | .p2wsh, program => [.opcode op0, .push 0x20 program]
  | .p2tr, key => [.opcode op1, .push 0x20 key]

/-- The tokens of a script that pays to a key: its push, whose opcode is its length, and a check. -/
def keyTokens (size : UInt8) (key : Bytes) : List Token := [.push size key, .opcode opCheckSig]

theorem disassemble_eq_tokens_iff {t : Template} {script payload : Bytes} :
    disassemble script = t.tokens payload ↔
      payload.length = t.payloadSize ∧ script = t.form.spell payload := by
  rw [disassemble_eq_iff (by cases t <;> simp [Template.tokens, Token.isMalformed])]
  have hbytes : (t.tokens payload).flatMap Token.encode = t.form.spell payload := by
    cases t <;> rfl
  have hwell : (∀ token ∈ t.tokens payload, token.WellFormed) ↔ payload.length = t.payloadSize := by
    cases t <;> simp [Template.tokens, Template.payloadSize, Token.WellFormed, opDup, opHash160,
      opEqualVerify, opCheckSig, opEqual, op0, op1]
  rw [hbytes, hwell]

theorem disassemble_eq_keyTokens_iff {size : UInt8} (hsize : 0x01 ≤ size ∧ size ≤ 0x4b)
    {script key : Bytes} : disassemble script = keyTokens size key ↔
      key.length = size.toNat ∧ script = (keyForm size).spell key := by
  rw [disassemble_eq_iff (by simp [keyTokens, Token.isMalformed])]
  have hbytes : (keyTokens size key).flatMap Token.encode = (keyForm size).spell key := by
    simp only [keyTokens, List.flatMap_cons, List.flatMap_nil, Token.encode,
      lengthWidth_of_le hsize.2]
    rfl
  have hpush : 0x01 ≤ size ∧ size ≤ 0x4e := ⟨hsize.1, UInt8.le_trans hsize.2 (by decide)⟩
  have hwell : (∀ token ∈ keyTokens size key, token.WellFormed) ↔ key.length = size.toNat := by
    simp [keyTokens, Token.WellFormed, hpush, hsize.2, opCheckSig]
  rw [hbytes, hwell]

/-- A script begins with an opcode that is no push exactly if this is its first token. -/
theorem head?_disassemble_eq_opcode_iff {op : UInt8} (hop : ¬ (0x01 ≤ op ∧ op ≤ 0x4e))
    {script : Bytes} : (disassemble script).head? = some (.opcode op) ↔
      ∃ rest, script = op :: rest := by
  constructor
  · intro h
    rcases script with _ | ⟨first, rest⟩
    · rw [disassemble_nil] at h
      cases h
    · rcases hstep : step first rest with ⟨t, rest'⟩ | reason
      · rw [disassemble_of_token hstep] at h
        obtain rfl := Option.some.inj h
        obtain ⟨-, hbytes⟩ := step_eq_token_iff.1 hstep
        exact ⟨rest', hbytes⟩
      · rw [disassemble_of_stop hstep] at h
        cases h
  · rintro ⟨rest, rfl⟩
    rw [disassemble_of_token (step_of_plain hop rest)]
    rfl

end Script

namespace Classification

variable {script payload key : Bytes} {codec : Codec} {network : Network}

theorem shape_of_tokens {t : Template} (h : disassemble script = t.tokens payload) :
    Shape.ofScript script = t.shape payload :=
  ofScript_eq_shape_iff.2 (disassemble_eq_tokens_iff.1 h)

theorem exists_tokens_iff {t : Template} : (∃ payload, disassemble script = t.tokens payload) ↔
    ∃ payload, Shape.ofScript script = t.shape payload := by
  simp only [disassemble_eq_tokens_iff, ofScript_eq_shape_iff]

theorem publicKey_tokens_iff :
    (disassemble script = keyTokens 0x41 key ∨ disassemble script = keyTokens 0x21 key) ↔
      Shape.ofScript script = .publicKey key := by
  rw [ofScript_eq_publicKey_iff, disassemble_eq_keyTokens_iff (by decide),
    disassemble_eq_keyTokens_iff (by decide)]
  rfl

theorem type_eq_data_iff : (ofScript script codec network).type = .opReturn ∨
    (ofScript script codec network).type = .error ↔ ∃ rest, script = opReturn :: rest := by
  rw [type_eq_iff .opReturn nofun nofun, type_eq_iff .error nofun nofun,
    ← ofScript_eq_data_or_cut_iff]
  cases Shape.ofScript script <;> simp [Shape.type]

/-- The type of an output and the tokens of its script tell the same. Each standard type is that of
the scripts with the tokens of its template; with any codec, except that an output key has to be
shown, which the standard codec always does. Data outputs, cut off or not, are the scripts whose
first token is the opcode `opReturn`. And what the codec is given is the data of the push. -/
theorem types_agree_with_tokens (script : Bytes) (codec : Codec) (network : Network) :
    (∀ t : Template, t ≠ .p2tr → ((ofScript script codec network).type = t.type ↔
      ∃ payload, disassemble script = t.tokens payload)) ∧
    ((ofScript script .standard network).type = .p2tr ↔
      ∃ key, disassemble script = Template.p2tr.tokens key) ∧
    ((ofScript script codec network).type = .p2pk ↔
      ∃ key, disassemble script = keyTokens 0x41 key ∨ disassemble script = keyTokens 0x21 key) ∧
    ((ofScript script codec network).type = .opReturn ∨
        (ofScript script codec network).type = .error ↔
      (disassemble script).head? = some (.opcode opReturn)) ∧
    (∀ (t : Template) payload, t ≠ .p2tr → disassemble script = t.tokens payload →
      payload.length = t.payloadSize ∧
        ofScript script codec network = withAddress t.type (codec.encoder t payload network)) ∧
    (∀ key, disassemble script = Template.p2tr.tokens key →
      key.length = 32 ∧ ofScript script codec network = ofTaproot script key codec network) ∧
    (∀ size ∈ [(0x41 : UInt8), 0x21], ∀ key, disassemble script = keyTokens size key →
      key.length = size.toNat ∧
        ofScript script codec network = ofPublicKey key codec network) := by
  refine ⟨fun t ht => ?_, ?_, ?_, ?_, fun t payload ht h => ?_, fun key h => ?_,
    fun size hsize key h => ?_⟩
  · exact (type_eq_template_iff ht).trans exists_tokens_iff.symm
  · exact (standard_type_eq_iff (t := .p2tr)).trans exists_tokens_iff.symm
  · simp only [publicKey_tokens_iff, type_eq_p2pk_iff]
  · rw [type_eq_data_iff, head?_disassemble_eq_opcode_iff (by decide)]
  · exact ⟨(disassemble_eq_tokens_iff.1 h).1,
      of_shape_template ht (shape_of_tokens h) codec network⟩
  · exact ⟨(disassemble_eq_tokens_iff.1 h).1, of_shape_taproot (shape_of_tokens h)⟩
  · simp only [List.mem_cons, List.not_mem_nil, or_false] at hsize
    rcases hsize with rfl | rfl
    · exact ⟨((disassemble_eq_keyTokens_iff (by decide)).1 h).1,
        of_shape_publicKey (publicKey_tokens_iff.1 (.inl h))⟩
    · exact ⟨((disassemble_eq_keyTokens_iff (by decide)).1 h).1,
        of_shape_publicKey (publicKey_tokens_iff.1 (.inr h))⟩

/-- The bytes inside a script are not read as pushes, though each of these could begin one. -/
theorem types_agree_with_tokens_push_bytes :
    (∀ codec network, ofScript (Template.p2sh.form.spell (List.replicate 20 0x14)) codec network =
      withAddress .p2sh (codec.scriptHash (List.replicate 20 0x14) network)) ∧
    (∀ codec network, ofScript (Template.p2tr.form.spell (List.replicate 32 0x20)) codec network =
      ofTaproot (Template.p2tr.form.spell (List.replicate 32 0x20)) (List.replicate 32 0x20) codec
        network) ∧
    (∀ codec network, ofScript ((keyForm 33).spell (List.replicate 33 0x21)) codec network =
      ofPublicKey (List.replicate 33 0x21) codec network) := by
  refine ⟨fun codec network => ?_, fun codec network => ?_, fun codec network => ?_⟩
  · have htokens : disassemble (Template.p2sh.form.spell (List.replicate 20 0x14)) =
        Template.p2sh.tokens (List.replicate 20 0x14) := disassemble_eq_tokens_iff.2 ⟨rfl, rfl⟩
    exact ((types_agree_with_tokens _ codec network).2.2.2.2.1 .p2sh _ nofun htokens).2
  · have htokens : disassemble (Template.p2tr.form.spell (List.replicate 32 0x20)) =
        Template.p2tr.tokens (List.replicate 32 0x20) := disassemble_eq_tokens_iff.2 ⟨rfl, rfl⟩
    exact ((types_agree_with_tokens _ codec network).2.2.2.2.2.1 _ htokens).2
  · have htokens : disassemble ((keyForm 33).spell (List.replicate 33 0x21)) =
        keyTokens 0x21 (List.replicate 33 0x21) :=
      (disassemble_eq_keyTokens_iff (by decide)).2 ⟨rfl, rfl⟩
    exact ((types_agree_with_tokens _ codec network).2.2.2.2.2.2 0x21 (by decide) _ htokens).2

end Classification

end TxScope
