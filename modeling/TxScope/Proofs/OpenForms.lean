import TxScope.Proofs.CodecInfluence
import TxScope.Proofs.Concatenation
import TxScope.Proofs.TokenForms

/-!
# Data outputs and multisignatures

Two types are told without a fixed form. A data output begins with the opcode `opReturn`, and its
payload is what the next token carries (`payload?_dataShape`): both readings find the same push, and
where the length of the payload is missing both say so.

A multisignature is told from its length and last byte alone. The byte is the opcode
`opCheckMultisig` if whole tokens stand before it; otherwise it lies inside a push
(`multisig_ending`).
-/

namespace TxScope

open Script

namespace Script

/-- The token that one step gives, whole or cut off. -/
def Step.first : Step → Token
  | .token t _ => t
  | .stop reason => .malformed reason

theorem head?_disassemble_cons (op : UInt8) (rest : Bytes) :
    (disassemble (op :: rest)).head? = some (step op rest).first := by
  rcases h : step op rest with ⟨t, rest'⟩ | reason
  · rw [disassemble_of_token h]
    rfl
  · rw [disassemble_of_stop h]
    rfl

/-- Behind the opcode of a data output the script is read like a script of its own. -/
theorem getElem?_one_disassemble (rest : Bytes) :
    (disassemble (opReturn :: rest))[1]? = (disassemble rest).head? := by
  rw [disassemble_of_token (step_of_plain (by decide) rest), List.getElem?_cons_succ,
    List.head?_eq_getElem?]

/-- The payload that a token carries as the second one of a data output. A push with a length of
four bytes counts as none. -/
def Token.carried? : Token → Option Bytes
  | .opcode op => if op = 0x00 then some [] else none
  | .push op data => if op = 0x4e then none else some data
  | .malformed _ => none

theorem Token.carried?_eq_some_iff {t : Token} {d : Bytes} : t.carried? = some d ↔
    (∃ op, op ≠ 0x4e ∧ t = .push op d) ∨ t = .opcode 0x00 ∧ d = [] := by
  cases t with
  | opcode op =>
    simp only [carried?]
    split_ifs with hop <;> simp [hop, eq_comm]
  | push op data =>
    simp only [carried?]
    split_ifs with hop
    · simp only [Token.push.injEq, false_and, or_false, false_iff]
      rintro ⟨op', hop', rfl, -⟩
      exact hop' hop
    · simp [hop]
  | malformed reason => simp [carried?]

theorem carried?_pushStep {op : UInt8} (hop : op ≠ 0x4e) (n : Nat) (rest : Bytes) :
    (pushStep op n rest).first.carried? = firstBytes? n rest := by
  unfold pushStep firstBytes?
  split_ifs
  · exact if_neg hop
  · rfl

theorem payload?_dataShape_direct {push : UInt8} (hop : 0x01 ≤ push ∧ push ≤ 0x4b) (rest : Bytes) :
    (dataShape (push :: rest)).payload? = (step push rest).first.carried? := by
  have hne : push ≠ 0x4e := by
    rintro rfl
    exact absurd hop (by decide)
  rw [step_of_direct hop, carried?_pushStep hne]
  exact congrArg Shape.payload? (if_pos hop.2)

/-- Behind a length field the shape takes the data that the token carries. It does not look behind
an opcode of four length bytes, so how such a push ends does not matter. -/
theorem payload?_dataShape_field (field : LengthField) (rest : Bytes) :
    (dataShape (field.opcode :: rest)).payload? = (step field.opcode rest).first.carried? := by
  rw [step_of_field]
  cases field with
  | one =>
    rcases rest with _ | ⟨size, rest⟩
    · rfl
    · rw [if_pos (by simp [LengthField.width]), carried?_pushStep (by decide)]
      simp [dataShape, LengthField.opcode, LengthField.ofOpcode?, LengthField.width, littleEndian,
        Shape.payload?, maxDirectPush]
  | two =>
    by_cases hcut : rest.length < LengthField.two.width
    · rw [if_neg (Nat.not_le_of_lt hcut)]
      exact congrArg Shape.payload? (dataShape_cut hcut)
    · rw [if_pos (Nat.le_of_not_lt hcut), carried?_pushStep (by decide)]
      exact congrArg Shape.payload? (if_neg hcut)
  | four =>
    split_ifs
    · unfold pushStep
      split_ifs <;> rfl
    · rfl

/-- Of the opcodes that push nothing the shape takes the zero only, as a push of no bytes. -/
theorem payload?_dataShape_plain {push : UInt8} (hop : ¬ (0x01 ≤ push ∧ push ≤ 0x4e))
    (rest : Bytes) : (dataShape (push :: rest)).payload? = (step push rest).first.carried? := by
  rw [step_of_plain hop]
  by_cases hzero : push = 0x00
  · subst hzero
    simp [dataShape, maxDirectPush, firstBytes?, Shape.payload?, Step.first, Token.carried?]
  · have hlarge : 0x4e < push.toNat := by
      simp only [← UInt8.toNat_inj, UInt8.le_iff_toNat_le, UInt8.reduceToNat] at hop hzero
      omega
    have hfield : LengthField.ofOpcode? push = none := by
      rw [LengthField.ofOpcode?_eq_none_iff]
      simp only [UInt8.le_iff_toNat_le, UInt8.reduceToNat]
      omega
    have hdirect : ¬ push ≤ maxDirectPush := by
      simp only [maxDirectPush, UInt8.le_iff_toNat_le, UInt8.reduceToNat]
      omega
    simp [dataShape, hdirect, hfield, Shape.payload?, Step.first, Token.carried?, hzero]

/-- The payload of a data output is what the token behind its first opcode carries. -/
theorem payload?_dataShape : ∀ rest : Bytes,
    (dataShape rest).payload? = (disassemble rest).head?.bind Token.carried?
  | [] => by
    rw [disassemble_nil]
    rfl
  | push :: rest => by
    rw [head?_disassemble_cons, Option.bind_some]
    rcases opcode_cases push with hop | ⟨field, rfl⟩ | hop
    · exact payload?_dataShape_direct hop rest
    · exact payload?_dataShape_field field rest
    · exact payload?_dataShape_plain hop rest

/-- A script begins with a length that is cut off exactly if its first token says so. -/
theorem head?_disassemble_eq_missing_iff {field : LengthField} {script : Bytes} :
    (disassemble script).head? = some (.malformed (.missingLength field)) ↔
      ∃ cut, cut.length < field.width ∧ script = field.opcode :: cut := by
  constructor
  · intro h
    rcases script with _ | ⟨op, rest⟩
    · rw [disassemble_nil] at h
      cases h
    · rw [head?_disassemble_cons] at h
      rcases hstep : step op rest with ⟨t, rest'⟩ | reason
      · rw [hstep] at h
        obtain rfl := Option.some.inj h
        exact (step_eq_token_iff.1 hstep).1.elim
      · rw [hstep] at h
        cases h
        obtain ⟨-, hop, hcut⟩ := step_eq_stop_iff.1 hstep
        exact ⟨rest, hcut, by rw [hop]⟩
  · rintro ⟨cut, hcut, rfl⟩
    have hstop : step field.opcode cut = .stop (.missingLength field) :=
      step_eq_stop_iff.2 ⟨field.opcode_bounds.1, rfl, hcut⟩
    rw [disassemble_of_stop hstop]
    rfl

theorem ofScript_eq_multisig_iff {script : Bytes} : Shape.ofScript script = .multisig ↔
    script.head? ≠ some opReturn ∧ minimumMultisig ≤ script.length ∧
      script.getLast? = some opCheckMultisig := by
  constructor
  · intro h
    have hdescribes := describes_ofScript script
    generalize hs : Shape.ofScript script = s at h hdescribes
    cases hdescribes with
    | empty => cases h
    | data rest =>
      rcases dataShape_cases rest with ⟨_, hdata⟩ | ⟨_, -, -, hdata⟩ <;> cases hdata.symm.trans h
    | form hf _ => cases (Form.inner?_shape hf _).symm.trans (congrArg Shape.inner? h)
    | multisig hop hlen hlast => exact ⟨hop, hlen, hlast⟩
    | other => cases h
  · rintro ⟨hop, hlen, hlast⟩
    exact ofScript_eq_iff.2 (.multisig hop hlen hlast)

end Script

namespace Classification

variable {script : Bytes} {codec : Codec} {network : Network}

theorem data_of_head_ne (h : script.head? ≠ some opReturn) :
    (ofScript script codec network).data = none := by
  by_cases htaproot : ∃ key, Shape.ofScript script = .taproot key
  · obtain ⟨key, hkey⟩ := htaproot
    rw [of_shape_taproot hkey]
    rcases ofTaproot_cases script key codec network with ⟨b, -, heq⟩ | ⟨e, b, -, -, heq⟩ |
      ⟨e, e', -, -, heq⟩ <;> rw [heq]
    · rfl
    · rfl
    · exact probed_data
  · rw [(of_shape_ne_taproot (not_exists.1 htaproot) codec network).2]
    cases hshape : Shape.ofScript script with
    | data payload =>
      obtain ⟨rest, rfl⟩ := ofScript_eq_data_or_cut_iff.1 (.inl ⟨payload, hshape⟩)
      exact absurd rfl h
    | _ => rfl

theorem data_of_opReturn (rest : Bytes) : (ofScript (opReturn :: rest) codec network).data =
    (disassemble (opReturn :: rest))[1]?.bind Token.carried? := by
  have htaproot : ∀ key, Shape.ofScript (opReturn :: rest) ≠ .taproot key := fun key h => by
    cases (inner?_dataShape rest).symm.trans (congrArg Shape.inner? h)
  rw [(of_shape_ne_taproot htaproot codec network).2, getElem?_one_disassemble,
    ← payload?_dataShape]
  rfl

theorem data_of_opReturn_eq_some_iff {rest d : Bytes} :
    (ofScript (opReturn :: rest) codec network).data = some d ↔
      (∃ op : UInt8, op ≠ 0x4e ∧ (disassemble (opReturn :: rest))[1]? = some (.push op d)) ∨
        (disassemble (opReturn :: rest))[1]? = some (.opcode 0x00) ∧ d = [] := by
  rw [data_of_opReturn, Option.bind_eq_some_iff]
  constructor
  · rintro ⟨t, ht, hd⟩
    rcases Token.carried?_eq_some_iff.1 hd with ⟨op, hne, rfl⟩ | ⟨rfl, rfl⟩
    · exact .inl ⟨op, hne, ht⟩
    · exact .inr ⟨ht, rfl⟩
  · rintro (⟨op, hne, ht⟩ | ⟨ht, hd⟩)
    · exact ⟨_, ht, Token.carried?_eq_some_iff.2 (.inl ⟨op, hne, rfl⟩)⟩
    · exact ⟨_, ht, Token.carried?_eq_some_iff.2 (.inr ⟨rfl, hd⟩)⟩

theorem type_of_opReturn_eq_error_iff {rest : Bytes} :
    (ofScript (opReturn :: rest) codec network).type = .error ↔
      (disassemble (opReturn :: rest))[1]? = some (.malformed (.missingLength .two)) := by
  rw [getElem?_one_disassemble, head?_disassemble_eq_missing_iff, type_eq_error_iff]
  simp [LengthField.opcode, LengthField.width]

theorem type_of_opReturn_eq_opReturn_iff {rest : Bytes} :
    (ofScript (opReturn :: rest) codec network).type = .opReturn ↔
      (ofScript (opReturn :: rest) codec network).type ≠ .error := by
  have htypes : (ofScript (opReturn :: rest) codec network).type = .opReturn ∨
      (ofScript (opReturn :: rest) codec network).type = .error :=
    type_eq_data_iff.2 ⟨rest, rfl⟩
  refine ⟨fun hdata herror => ?_, htypes.resolve_right⟩
  rw [hdata] at herror
  cases herror

/-- The type and the payload of a data output are told by the second token of its script, whatever
the codec: the payload is the data of a push, or nothing for the opcode that pushes nothing; the
type is an error if the two bytes of a length are missing. No other script has a payload or is an
error. -/
theorem data_agrees_with_tokens (script : Bytes) (codec : Codec) (network : Network) :
    (script.head? = some opReturn →
      (∀ d, (ofScript script codec network).data = some d ↔
        (∃ op : UInt8, op ≠ 0x4e ∧ (disassemble script)[1]? = some (.push op d)) ∨
          (disassemble script)[1]? = some (.opcode 0x00) ∧ d = []) ∧
      ((ofScript script codec network).type = .error ∧
          (ofScript script codec network).data = none ↔
        (disassemble script)[1]? = some (.malformed (.missingLength .two))) ∧
      ((ofScript script codec network).type = .opReturn ↔
        (disassemble script)[1]? ≠ some (.malformed (.missingLength .two)))) ∧
    (script.head? ≠ some opReturn →
      (ofScript script codec network).data = none ∧
        (ofScript script codec network).type ≠ .error) := by
  refine ⟨fun hop => ?_, fun hop => ⟨data_of_head_ne hop, fun herror => ?_⟩⟩
  · obtain ⟨rest, rfl⟩ := List.head?_eq_some_iff.1 hop
    refine ⟨fun d => data_of_opReturn_eq_some_iff, ?_, ?_⟩
    · refine ⟨fun h => type_of_opReturn_eq_error_iff.1 h.1, fun hmissing =>
        ⟨type_of_opReturn_eq_error_iff.2 hmissing, ?_⟩⟩
      rw [data_of_opReturn, hmissing]
      rfl
    · rw [type_of_opReturn_eq_opReturn_iff, Ne, type_of_opReturn_eq_error_iff]
  · obtain ⟨cut, -, rfl⟩ := type_eq_error_iff.1 herror
    exact hop rfl

/-- A push of nothing with a length of two bytes has a payload, which is empty; with one byte of the
length it is an error. -/
theorem data_agrees_with_tokens_lengths :
    (∀ codec network, (ofScript [opReturn, 0x4d, 0, 0, 0xae] codec network).data = some []) ∧
    (∀ codec network, (ofScript [opReturn, 0x4d, 0] codec network).type = .error) ∧
    ∀ codec network, (ofScript [op1, opReturn, 1, 7] codec network).data = none := by
  refine ⟨fun codec network => ?_, fun codec network => ?_, fun codec network => ?_⟩
  · have htokens : (disassemble [opReturn, 0x4d, 0, 0, 0xae])[1]? = some (.push 0x4d []) := by
      rw [getElem?_one_disassemble, head?_disassemble_cons]
      rfl
    exact (((data_agrees_with_tokens _ codec network).1 rfl).1 []).2
      (.inl ⟨0x4d, by decide, htokens⟩)
  · have htokens : (disassemble [opReturn, 0x4d, 0])[1]? =
        some (.malformed (.missingLength .two)) := by
      rw [getElem?_one_disassemble, head?_disassemble_cons]
      rfl
    exact (((data_agrees_with_tokens _ codec network).1 rfl).2.1.2 htokens).1
  · exact ((data_agrees_with_tokens _ codec network).2 (by decide)).1

/-! ## Multisignatures -/

theorem type_eq_p2ms_iff : (ofScript script codec network).type = .p2ms ↔
    script.head? ≠ some opReturn ∧ minimumMultisig ≤ script.length ∧
      script.getLast? = some opCheckMultisig := by
  rw [type_eq_iff .p2ms nofun nofun, ← ofScript_eq_multisig_iff]
  cases Shape.ofScript script <;> simp [Shape.type]

/-- A multisignature is told from its length and its last byte. This byte is the last token, the
opcode `opCheckMultisig`, if the bytes in front of it are whole tokens. If they are not, it is the
last byte of pushed data or part of a push that is cut off. -/
theorem multisig_ending (script : Bytes) (codec : Codec) (network : Network) :
    ((ofScript script codec network).type = .p2ms ↔ script.head? ≠ some opReturn ∧
      37 ≤ script.length ∧ script.getLast? = some 0xae) ∧
    ((ofScript script codec network).type = .p2ms →
      ((disassemble script).getLast? = some (.opcode 0xae) ↔
        ∀ t ∈ disassemble script.dropLast, t.isMalformed = false) ∧
      ((disassemble script).getLast? = some (.opcode 0xae) ∨
        (∃ op data, (disassemble script).getLast? = some (.push op (data ++ [0xae]))) ∨
        ∃ reason, (disassemble script).getLast? = some (.malformed reason))) := by
  refine ⟨type_eq_p2ms_iff, fun htype => ?_⟩
  obtain ⟨-, -, hlast⟩ := type_eq_p2ms_iff.1 htype
  obtain ⟨before, rfl⟩ := List.getLast?_eq_some_iff.1 hlast
  rw [List.dropLast_concat]
  rcases last_token_cases (b := opCheckMultisig) (by decide) (by decide) before with
    ⟨hwhole, htokens⟩ | ⟨hcut, ⟨op, data, htokens⟩ | ⟨reason, htokens⟩⟩ <;>
    rw [htokens, List.getLast?_concat]
  · exact ⟨iff_of_true rfl hwhole, .inl rfl⟩
  · exact ⟨iff_of_false nofun hcut, .inr (.inl ⟨op, data, rfl⟩)⟩
  · exact ⟨iff_of_false nofun hcut, .inr (.inr ⟨reason, rfl⟩)⟩

/-- A push of a key between two small numbers is whole, so the byte behind them is the opcode. -/
theorem multisig_ending_one_of_one :
    (disassemble ([op1, 0x21] ++ List.replicate 33 2 ++ [op1, opCheckMultisig])).getLast? =
      some (.opcode 0xae) := by
  have htokens : disassemble ([op1, 0x21] ++ List.replicate 33 2 ++ [op1]) =
      [.opcode op1, .push 0x21 (List.replicate 33 2), .opcode op1] :=
    (disassemble_eq_iff (by decide)).2 ⟨by decide, rfl⟩
  have hwhole : ∀ t ∈ disassemble ([op1, 0x21] ++ List.replicate 33 2 ++ [op1]),
      t.isMalformed = false := by
    rw [htokens]
    decide
  obtain ⟨htype, hending⟩ := multisig_ending
    ([op1, 0x21] ++ List.replicate 33 2 ++ [op1, opCheckMultisig]) .standard .mainnet
  exact (hending (htype.2 (by decide))).1.2 hwhole

/-- One push of 36 bytes is reported as multisignature if its last byte is that of the opcode, and
has no opcode at all. -/
theorem multisig_inside_push :
    (ofScript (0x24 :: (List.replicate 35 0 ++ [0xae])) .standard .mainnet).type = .p2ms ∧
      disassemble (0x24 :: (List.replicate 35 0 ++ [0xae])) =
        [.push 0x24 (List.replicate 35 0 ++ [0xae])] ∧
      (disassemble (0x24 :: (List.replicate 35 0 ++ [0xae]))).getLast? ≠ some (.opcode 0xae) := by
  have htokens : disassemble (0x24 :: (List.replicate 35 0 ++ [0xae])) =
      [.push 0x24 (List.replicate 35 0 ++ [0xae])] :=
    (disassemble_eq_iff (by decide)).2 ⟨by decide, rfl⟩
  refine ⟨type_eq_p2ms_iff.2 (by decide), htokens, ?_⟩
  rw [htokens]
  decide

end Classification

end TxScope
