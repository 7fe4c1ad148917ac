import TxScope.Proofs.Bytes
import TxScope.Script.Disassembly

/-!
# The bytes of script tokens

Each token that is whole stands for bytes of its own (`Token.encode`). One step of the disassembly
takes exactly the bytes of one token (`step_eq_token_iff`), or stops at a push that is cut off
(`step_eq_stop_iff`).
-/

namespace TxScope.Script

/-- How many bytes of length stand between a push opcode and its data. -/
def lengthWidth (op : UInt8) : Nat :=
  if op = 0x4c then 1 else if op = 0x4d then 2 else if op = 0x4e then 4 else 0

/-- The length of the data that a push opcode and the length bytes behind it declare. -/
def declaredLength (op : UInt8) (header : Bytes) : Nat :=
  if op ≤ 0x4b then op.toNat else littleEndian header

/-- The bytes that a token stands for. -/
def Token.encode : Token → Bytes
  | .opcode op => [op]
  | .push op data => op :: (toLittleEndian (lengthWidth op) data.length ++ data)
  | .malformed _ => []

/-- An opcode that is no push; or a push whose opcode, or length bytes, can tell its length. -/
def Token.WellFormed : Token → Prop
  | .opcode op => ¬ (0x01 ≤ op ∧ op ≤ 0x4e)
  | .push op data => (0x01 ≤ op ∧ op ≤ 0x4e) ∧
    if op ≤ 0x4b then data.length = op.toNat else data.length < 256 ^ lengthWidth op
  | .malformed _ => False

instance : DecidablePred Token.WellFormed
  | .opcode op => inferInstanceAs (Decidable (¬ (0x01 ≤ op ∧ op ≤ 0x4e)))
  | .push op data => inferInstanceAs (Decidable ((0x01 ≤ op ∧ op ≤ 0x4e) ∧
    if op ≤ 0x4b then data.length = op.toNat else data.length < 256 ^ lengthWidth op))
  | .malformed _ => inferInstanceAs (Decidable False)

/-- The opcode of the pushes with a length field. -/
def LengthField.opcode : LengthField → UInt8
  | .one => 0x4c
  | .two => 0x4d
  | .four => 0x4e

theorem LengthField.ofOpcode?_eq_some_iff {op : UInt8} {field : LengthField} :
    ofOpcode? op = some field ↔ op = field.opcode := by
  constructor
  · intro h
    unfold ofOpcode? at h
    split at h <;> cases h <;> rfl
  · rintro rfl
    cases field <;> rfl

theorem LengthField.ofOpcode?_eq_none_iff {op : UInt8} :
    ofOpcode? op = none ↔ ¬ (0x4c ≤ op ∧ op ≤ 0x4e) := by
  unfold ofOpcode?
  split
  · simp
  · simp
  · simp
  · rename_i h1 h2 h3
    simp only [true_iff, imp_false, ← UInt8.toNat_inj, UInt8.le_iff_toNat_le,
      UInt8.reduceToNat] at *
    omega

@[simp] theorem lengthWidth_opcode (field : LengthField) :
    lengthWidth field.opcode = field.width := by
  cases field <;> rfl

theorem lengthWidth_of_le {op : UInt8} (h : op ≤ 0x4b) : lengthWidth op = 0 := by
  unfold lengthWidth
  simp only [← UInt8.toNat_inj, UInt8.le_iff_toNat_le, UInt8.reduceToNat] at *
  rw [if_neg (by omega), if_neg (by omega), if_neg (by omega)]

/-- An opcode of a script is a push of its own length, a push with a length field, or no push. -/
theorem opcode_cases (op : UInt8) :
    (0x01 ≤ op ∧ op ≤ 0x4b) ∨ (∃ field : LengthField, op = field.opcode) ∨
      ¬ (0x01 ≤ op ∧ op ≤ 0x4e) := by
  rcases hf : LengthField.ofOpcode? op with _ | field
  · rw [LengthField.ofOpcode?_eq_none_iff] at hf
    simp only [UInt8.le_iff_toNat_le, UInt8.reduceToNat] at hf ⊢
    omega
  · exact .inr (.inl ⟨field, LengthField.ofOpcode?_eq_some_iff.1 hf⟩)

/-- No push has a name. -/
theorem mnemonic?_of_push {op : UInt8} (h : 0x01 ≤ op ∧ op ≤ 0x4e) : mnemonic? op = none := by
  have hpush : ∀ n < 0x4f, 0 < n → mnemonic? (.ofNat n) = none := by
    decide +kernel
  simp only [UInt8.le_iff_toNat_le, UInt8.reduceToNat] at h
  have hop := hpush op.toNat (by omega) (by omega)
  rwa [UInt8.ofNat_toNat] at hop

theorem step_of_direct {op : UInt8} (h : 0x01 ≤ op ∧ op ≤ 0x4b) (rest : Bytes) :
    step op rest = pushStep op op.toNat rest := by
  have hname := mnemonic?_of_push ⟨h.1, UInt8.le_trans h.2 (by decide)⟩
  rw [step, hname]
  exact if_pos h

theorem step_of_plain {op : UInt8} (h : ¬ (0x01 ≤ op ∧ op ≤ 0x4e)) (rest : Bytes) :
    step op rest = .token (.opcode op) rest := by
  have hnone : LengthField.ofOpcode? op = none := by
    rw [LengthField.ofOpcode?_eq_none_iff]
    simp only [UInt8.le_iff_toNat_le, UInt8.reduceToNat] at h ⊢
    omega
  have hdirect : ¬ (1 ≤ op ∧ op ≤ maxDirectPush) := by
    simp only [maxDirectPush, UInt8.le_iff_toNat_le, UInt8.reduceToNat] at h ⊢
    omega
  simp only [step, if_neg hdirect, hnone, ite_self]

theorem step_of_field (field : LengthField) (rest : Bytes) : step field.opcode rest =
    if field.width ≤ rest.length then
      pushStep field.opcode (littleEndian (rest.take field.width)) (rest.drop field.width)
    else .stop (.missingLength field) := by
  cases field <;> rfl

theorem pushStep_eq_token_iff {op : UInt8} {n : Nat} {rest rest' : Bytes} {t : Token} :
    pushStep op n rest = .token t rest' ↔
      ∃ data, t = .push op data ∧ data.length = n ∧ rest = data ++ rest' := by
  unfold pushStep
  constructor
  · intro h
    split_ifs at h with hn
    cases h
    exact ⟨rest.take n, rfl, List.length_take_of_le hn, (List.take_append_drop n rest).symm⟩
  · rintro ⟨data, rfl, rfl, rfl⟩
    rw [if_pos (by simp), List.take_left, List.drop_left]

theorem pushStep_eq_stop_iff {op : UInt8} {n : Nat} {rest : Bytes} {reason : MalformedPush} :
    pushStep op n rest = .stop reason ↔
      rest.length < n ∧ reason = .exceedsBuffer n rest.length := by
  unfold pushStep
  constructor
  · intro h
    split_ifs at h with hn
    cases h
    exact ⟨Nat.lt_of_not_le hn, rfl⟩
  · rintro ⟨hn, rfl⟩
    rw [if_neg (Nat.not_le_of_lt hn)]

theorem LengthField.opcode_bounds (field : LengthField) :
    (0x01 ≤ field.opcode ∧ field.opcode ≤ 0x4e) ∧ ¬ field.opcode ≤ 0x4b := by
  cases field <;> decide

/-- Bytes that begin with an opcode that is no push are those of this opcode alone. -/
theorem encode_plain_iff {op : UInt8} {rest rest' : Bytes} {t : Token}
    (hop : ¬ (0x01 ≤ op ∧ op ≤ 0x4e)) :
    (t.WellFormed ∧ op :: rest = t.encode ++ rest') ↔ t = .opcode op ∧ rest = rest' := by
  constructor
  · rintro ⟨hwf, heq⟩
    cases t with
    | opcode b =>
      simp only [Token.encode, List.cons_append, List.nil_append, List.cons.injEq] at heq
      obtain ⟨rfl, rfl⟩ := heq
      exact ⟨rfl, rfl⟩
    | push b data =>
      simp only [Token.encode, List.cons_append, List.cons.injEq] at heq
      obtain ⟨rfl, -⟩ := heq
      exact absurd hwf.1 hop
    | malformed reason => exact hwf.elim
  · rintro ⟨rfl, rfl⟩
    exact ⟨hop, rfl⟩

theorem encode_push_iff {op : UInt8} {rest rest' : Bytes} {t : Token}
    (hop : 0x01 ≤ op ∧ op ≤ 0x4e) :
    (t.WellFormed ∧ op :: rest = t.encode ++ rest') ↔ ∃ data, t = .push op data ∧
      (if op ≤ 0x4b then data.length = op.toNat else data.length < 256 ^ lengthWidth op) ∧
      rest = toLittleEndian (lengthWidth op) data.length ++ (data ++ rest') := by
  constructor
  · rintro ⟨hwf, heq⟩
    cases t with
    | opcode b =>
      simp only [Token.encode, List.cons_append, List.cons.injEq] at heq
      obtain ⟨rfl, -⟩ := heq
      exact absurd hop hwf
    | push b data =>
      simp only [Token.encode, List.cons_append, List.append_assoc, List.cons.injEq] at heq
      obtain ⟨rfl, rfl⟩ := heq
      exact ⟨data, rfl, hwf.2, rfl⟩
    | malformed reason => exact hwf.elim
  · rintro ⟨data, rfl, hlen, rfl⟩
    exact ⟨⟨hop, hlen⟩, by simp [Token.encode]⟩

/-- One step takes the bytes of one well-formed token, and each such token is taken. -/
theorem step_eq_token_iff {op : UInt8} {rest rest' : Bytes} {t : Token} :
    step op rest = .token t rest' ↔ t.WellFormed ∧ op :: rest = t.encode ++ rest' := by
  rcases opcode_cases op with hop | ⟨field, rfl⟩ | hop
  · have hpush : 0x01 ≤ op ∧ op ≤ 0x4e := ⟨hop.1, UInt8.le_trans hop.2 (by decide)⟩
    rw [encode_push_iff hpush, step_of_direct hop, pushStep_eq_token_iff]
    simp only [if_pos hop.2, lengthWidth_of_le hop.2, toLittleEndian, List.nil_append]
  · obtain ⟨hpush, hdirect⟩ := field.opcode_bounds
    rw [encode_push_iff hpush, step_of_field]
    simp only [if_neg hdirect, lengthWidth_opcode]
    constructor
    · intro h
      split_ifs at h with hw
      obtain ⟨data, rfl, hlen, hdrop⟩ := pushStep_eq_token_iff.1 h
      have htake : (rest.take field.width).length = field.width := List.length_take_of_le hw
      have hlt := littleEndian_lt (rest.take field.width)
      have hback := toLittleEndian_littleEndian (rest.take field.width)
      rw [htake] at hlt hback
      refine ⟨data, rfl, hlen ▸ hlt, ?_⟩
      rw [hlen, hback, ← hdrop, List.take_append_drop]
    · rintro ⟨data, rfl, hlen, rfl⟩
      have hwidth := toLittleEndian_length field.width data.length
      rw [if_pos (by simp [hwidth]), pushStep_eq_token_iff, List.take_left' hwidth,
        List.drop_left' hwidth, littleEndian_toLittleEndian hlen]
      exact ⟨data, rfl, rfl, rfl⟩
  · rw [encode_plain_iff hop, step_of_plain hop, Step.token.injEq]
    exact and_congr_left fun _ => eq_comm

/-- Why the push behind an opcode is cut off. -/
def CutOff (op : UInt8) (rest : Bytes) : MalformedPush → Prop
  | .missingLength field => op = field.opcode ∧ rest.length < field.width
  | .exceedsBuffer declared available => ∃ header payload, rest = header ++ payload ∧
    header.length = lengthWidth op ∧ declared = declaredLength op header ∧
    available = payload.length ∧ available < declared

theorem cutOff_direct_iff {op : UInt8} {rest : Bytes} {reason : MalformedPush} (hop : op ≤ 0x4b) :
    CutOff op rest reason ↔
      rest.length < op.toNat ∧ reason = .exceedsBuffer op.toNat rest.length := by
  constructor
  · intro h
    cases reason with
    | missingLength field => exact absurd (h.1 ▸ hop) field.opcode_bounds.2
    | exceedsBuffer declared available =>
      obtain ⟨header, payload, rfl, hheader, rfl, rfl, hlt⟩ := h
      rw [lengthWidth_of_le hop] at hheader
      obtain rfl := List.length_eq_zero_iff.1 hheader
      rw [declaredLength, if_pos hop] at hlt ⊢
      exact ⟨hlt, rfl⟩
  · rintro ⟨hlt, rfl⟩
    exact ⟨[], rest, rfl, (lengthWidth_of_le hop).symm, (if_pos hop).symm, rfl, hlt⟩

theorem cutOff_field_iff {field : LengthField} {rest : Bytes} {reason : MalformedPush} :
    CutOff field.opcode rest reason ↔
      (rest.length < field.width ∧ reason = .missingLength field) ∨
      (field.width ≤ rest.length ∧
        (rest.drop field.width).length < littleEndian (rest.take field.width) ∧
        reason = .exceedsBuffer (littleEndian (rest.take field.width))
          (rest.drop field.width).length) := by
  constructor
  · intro h
    cases reason with
    | missingLength field' =>
      obtain ⟨hop, hlt⟩ := h
      have hfield : field = field' := by
        cases field <;> cases field' <;> first | rfl | exact absurd hop (by decide)
      subst hfield
      exact .inl ⟨hlt, rfl⟩
    | exceedsBuffer declared available =>
      obtain ⟨header, payload, rfl, hheader, rfl, rfl, hlt⟩ := h
      rw [lengthWidth_opcode] at hheader
      rw [declaredLength, if_neg field.opcode_bounds.2] at hlt ⊢
      rw [List.take_left' hheader, List.drop_left' hheader, List.length_append, hheader]
      exact .inr ⟨Nat.le_add_right _ _, hlt, rfl⟩
  · rintro (⟨hlt, rfl⟩ | ⟨hle, hlt, rfl⟩)
    · exact ⟨rfl, hlt⟩
    · refine ⟨rest.take field.width, rest.drop field.width, (List.take_append_drop _ _).symm,
        ?_, ?_, rfl, hlt⟩
      · rw [lengthWidth_opcode, List.length_take_of_le hle]
      · rw [declaredLength, if_neg field.opcode_bounds.2]

/-- One step stops at a push that is cut off, and only there. -/
theorem step_eq_stop_iff {op : UInt8} {rest : Bytes} {reason : MalformedPush} :
    step op rest = .stop reason ↔ (0x01 ≤ op ∧ op ≤ 0x4e) ∧ CutOff op rest reason := by
  rcases opcode_cases op with hop | ⟨field, rfl⟩ | hop
  · rw [step_of_direct hop, pushStep_eq_stop_iff, cutOff_direct_iff hop.2,
      and_iff_right (a := 0x01 ≤ op ∧ op ≤ 0x4e) ⟨hop.1, UInt8.le_trans hop.2 (by decide)⟩]
  · rw [step_of_field, cutOff_field_iff, and_iff_right field.opcode_bounds.1]
    split_ifs with hw
    · rw [pushStep_eq_stop_iff]
      constructor
      · rintro ⟨hlt, rfl⟩
        exact .inr ⟨hw, hlt, rfl⟩
      · rintro (⟨hlt, -⟩ | ⟨-, hlt, rfl⟩)
        · exact absurd hw (Nat.not_le_of_lt hlt)
        · exact ⟨hlt, rfl⟩
    · rw [Step.stop.injEq]
      constructor
      · rintro rfl
        exact .inl ⟨Nat.lt_of_not_le hw, rfl⟩
      · rintro (⟨-, rfl⟩ | ⟨hle, -⟩)
        · rfl
        · exact absurd hle hw
  · rw [step_of_plain hop]
    exact ⟨(nomatch ·), fun h => absurd h.1 hop⟩

end TxScope.Script
