import Mathlib.Data.List.Nodup
import TxScope.Proofs.Disassembly
import TxScope.Proofs.HexText
import TxScope.Proofs.Legible

/-!
# Assembly listings

A listing tells the tokens of the script, save what it leaves out: the opcode of a push and the
figures of a push that is longer than the script (`Script.render_eq_render_iff`). The kind of a
token is seen from the first two characters of its text. An opcode and a push then end at the next
space, and the sentence about a cut-off push where its words do.
-/

namespace TxScope.Script

open Text

/-- Tokens that a listing does not tell apart. -/
inductive Token.Alike : Token → Token → Prop where
  | opcode (op : UInt8) : Alike (.opcode op) (.opcode op)
  | push (op op' : UInt8) (data : Bytes) : Alike (.push op data) (.push op' data)
  | missingLength (field : LengthField) :
      Alike (.malformed (.missingLength field)) (.malformed (.missingLength field))
  | exceedsBuffer (declared available declared' available' : Nat) :
      Alike (.malformed (.exceedsBuffer declared available))
        (.malformed (.exceedsBuffer declared' available'))

/-! ## Opcodes -/

def namedOpcodes : List Nat :=
  [0x00, 0x51, 0x52, 0x53, 0x54, 0x55, 0x56, 0x57, 0x58, 0x59, 0x5a, 0x5b, 0x5c, 0x5d, 0x5e, 0x5f,
    0x60, 0x61, 0x6a, 0x76, 0x87, 0x88, 0xa9, 0xac, 0xad, 0xae, 0xb1, 0xb2, 0xba]

theorem mem_namedOpcodes : ∀ n < 256, mnemonic? (.ofNat n) ≠ none → n ∈ namedOpcodes := by
  decide +kernel

theorem nodup_mnemonics : (namedOpcodes.map fun n => mnemonic? (.ofNat n)).Nodup := by
  decide +kernel

theorem mnemonic?_injOn {op op' : UInt8} (h : mnemonic? op = mnemonic? op')
    (hne : mnemonic? op ≠ none) : op = op' := by
  have hmem : op.toNat ∈ namedOpcodes := mem_namedOpcodes _ op.toNat_lt (by simpa using hne)
  have hmem' : op'.toNat ∈ namedOpcodes :=
    mem_namedOpcodes _ op'.toNat_lt (by rw [h] at hne; simpa using hne)
  refine UInt8.toNat_inj.1 (List.inj_on_of_nodup_map nodup_mnemonics hmem hmem' ?_)
  simpa using h

theorem mnemonic?_eq_some {op : UInt8} {name : String} (h : mnemonic? op = some name) :
    ∃ rest, name = "OP_" ++ rest ∧ ' ' ∉ rest.toList := by
  unfold mnemonic? at h
  split at h
  · exact ⟨toString (op.toNat - 0x50), (Option.some.inj h).symm, not_mem_toString rfl⟩
  · split at h <;> cases h
    · exact ⟨"0", rfl, by simp⟩
    · exact ⟨"NOP", rfl, by simp⟩
    · exact ⟨"RETURN", rfl, by simp⟩
    · exact ⟨"DUP", rfl, by simp⟩
    · exact ⟨"EQUAL", rfl, by simp⟩
    · exact ⟨"EQUALVERIFY", rfl, by simp⟩
    · exact ⟨"HASH160", rfl, by simp⟩
    · exact ⟨"CHECKSIG", rfl, by simp⟩
    · exact ⟨"CHECKSIGVERIFY", rfl, by simp⟩
    · exact ⟨"CHECKMULTISIG", rfl, by simp⟩
    · exact ⟨"CHECKLOCKTIMEVERIFY", rfl, by simp⟩
    · exact ⟨"CHECKSEQUENCEVERIFY", rfl, by simp⟩
    · exact ⟨"CHECKSIGADD", rfl, by simp⟩

/-- An opcode is one word, its name or its number. -/
theorem text_opcode_cases (op : UInt8) :
    (∃ rest, mnemonic? op = some (Token.opcode op).text ∧
      (Token.opcode op).text.toList = 'O' :: 'P' :: rest ∧ ' ' ∉ rest) ∨
    ∃ rest, (Token.opcode op).text = "[0x" ++ Hex.encode [op] ++ "]" ∧
      (Token.opcode op).text.toList = '[' :: '0' :: rest ∧ ' ' ∉ rest := by
  rcases hname : mnemonic? op with _ | name
  · have htext : (Token.opcode op).text = "[0x" ++ Hex.encode [op] ++ "]" := by
      rw [Token.text, hname]
      rfl
    refine .inr ⟨'x' :: (Hex.encode [op]).toList ++ [']'], htext, ?_, ?_⟩
    · simp [htext]
    · have hdigits : ' ' ∉ (Hex.encode [op]).toList := Hex.not_mem_encode rfl
      simp [hdigits]
  · have htext : (Token.opcode op).text = name := by
      rw [Token.text, hname]
      rfl
    obtain ⟨rest, hrest, hblank⟩ := mnemonic?_eq_some hname
    refine .inl ⟨'_' :: rest.toList, by rw [htext], ?_, ?_⟩
    · simp [htext, hrest]
    · simp [hblank]

theorem text_opcode_injective : Function.Injective fun op => (Token.opcode op).text := by
  intro op op' (h : (Token.opcode op).text = (Token.opcode op').text)
  rcases text_opcode_cases op with ⟨rest, hname, hstart, -⟩ | ⟨rest, htext, hstart, -⟩ <;>
    rcases text_opcode_cases op' with ⟨rest', hname', hstart', -⟩ | ⟨rest', htext', hstart', -⟩
  · refine mnemonic?_injOn (by rw [hname, hname', h]) (by simp [hname])
  · rw [h, hstart'] at hstart
    cases hstart
  · rw [h, hstart'] at hstart
    cases hstart
  · rw [h, htext', String.append_left_inj, String.append_right_inj] at htext
    exact (List.cons.inj (Hex.encode_injective htext)).1.symm

/-! ## Kinds -/

inductive Token.Kind where
  | opcode
  | push
  | missingLength
  | exceedsBuffer
  deriving DecidableEq

def Token.kind : Token → Token.Kind
  | .opcode _ => .opcode
  | .push _ _ => .push
  | .malformed (.missingLength _) => .missingLength
  | .malformed (.exceedsBuffer _ _) => .exceedsBuffer

/-- The kind of token whose text begins with two characters. -/
def Token.Kind.ofStart (c d : Char) : Token.Kind :=
  if c = 'O' then .opcode
  else if c = '<' then .push
  else if d = '0' then .opcode
  else if d = 'i' then .missingLength
  else .exceedsBuffer

/-- A token and the space behind it. -/
def Token.spaced (t : Token) : List Char := t.text.toList ++ [' ']

theorem spaced_push (op : UInt8) (data : Bytes) :
    (Token.push op data).spaced = '<' :: ((Hex.encode data).toList ++ ['>', ' ']) := by
  simp [Token.spaced, Token.text, toString_text]

theorem spaced_missingLength (field : LengthField) :
    (Token.malformed (.missingLength field)).spaced =
      '[' :: 'i' :: ("nvalid ".toList ++
        (field.name.toList ++ [':'] ++ " missing length bytes] ".toList)) := by
  simp [Token.spaced, Token.text, MalformedPush.message, toString_text]

theorem spaced_exceedsBuffer (declared available : Nat) :
    (Token.malformed (.exceedsBuffer declared available)).spaced =
      '[' :: 'p' :: "ush length exceeds buffer] ".toList := by
  simp [Token.spaced, Token.text, MalformedPush.message, toString_text]

theorem exists_start (t : Token) :
    ∃ c d rest, t.spaced = c :: d :: rest ∧ Token.Kind.ofStart c d = t.kind ∧ c ≠ ' ' := by
  rcases t with op | ⟨op, data⟩ | (field | ⟨declared, available⟩)
  · rw [Token.spaced]
    rcases text_opcode_cases op with ⟨rest, -, hstart, -⟩ | ⟨rest, -, hstart, -⟩
    · exact ⟨'O', 'P', rest ++ [' '], by rw [hstart]; rfl, rfl, by simp⟩
    · exact ⟨'[', '0', rest ++ [' '], by rw [hstart]; rfl, rfl, by simp⟩
  · rw [spaced_push]
    rcases (Hex.encode data).toList with _ | ⟨d, ds⟩
    · exact ⟨'<', '>', _, rfl, rfl, by simp⟩
    · exact ⟨'<', d, _, rfl, rfl, by simp⟩
  · exact ⟨'[', 'i', _, spaced_missingLength field, rfl, by simp⟩
  · exact ⟨'[', 'p', _, spaced_exceedsBuffer declared available, rfl, by simp⟩

theorem clash_of_kind_ne {t t' : Token} (h : t.kind ≠ t'.kind) :
    Tells t.spaced t'.spaced False := by
  obtain ⟨c, d, rest, ht, hkind, -⟩ := exists_start t
  obtain ⟨c', d', rest', ht', hkind', -⟩ := exists_start t'
  rw [ht, ht']
  refine Tells.clash_two fun hstart => h ?_
  rw [← hkind, ← hkind', hstart.1, hstart.2]

theorem clash_space (t : Token) : Tells t.spaced [' '] False := by
  obtain ⟨c, d, rest, ht, -, hc⟩ := exists_start t
  rw [ht]
  exact .clash hc

/-! ## Tokens -/

theorem tells_word {t t' : Token} (ht : ' ' ∉ t.text.toList) (ht' : ' ' ∉ t'.text.toList) :
    Tells t.spaced t'.spaced (t.text = t'.text) :=
  (Tells.upTo ht ht').imp String.toList_inj.1

theorem tells_opcode (op op' : UInt8) :
    Tells (Token.opcode op).spaced (Token.opcode op').spaced (op = op') := by
  have hword : ∀ op, ' ' ∉ (Token.opcode op).text.toList := by
    intro op
    rcases text_opcode_cases op with ⟨rest, -, hstart, hrest⟩ | ⟨rest, -, hstart, hrest⟩ <;>
      simp [hstart, hrest]
  exact (tells_word (hword op) (hword op')).imp fun h => text_opcode_injective h

theorem tells_push (op op' : UInt8) (data data' : Bytes) :
    Tells (Token.push op data).spaced (Token.push op' data').spaced (data = data') := by
  have hword : ∀ op data, ' ' ∉ (Token.push op data).text.toList := by
    intro op data
    have hdigits : ' ' ∉ (Hex.encode data).toList := Hex.not_mem_encode rfl
    simp [Token.text, toString_text, hdigits]
  refine (tells_word (hword op data) (hword op' data')).imp fun h => ?_
  simp only [Token.text, toString_text, String.append_left_inj, String.append_right_inj] at h
  exact Hex.encode_injective h

theorem tells_missingLength (field field' : LengthField) :
    Tells (Token.malformed (.missingLength field)).spaced
      (Token.malformed (.missingLength field')).spaced (field = field') := by
  have hname : ∀ field : LengthField, ':' ∉ field.name.toList := by
    intro field
    cases field <;> simp [LengthField.name]
  have htold := Tells.upTo (hname field) (hname field')
  rw [spaced_missingLength, spaced_missingLength]
  refine ((htold.append_settled fun _ => rfl).append_left ('[' :: 'i' :: "nvalid ".toList)).imp ?_
  intro h
  cases field <;> cases field' <;> simp [LengthField.name] at h ⊢

/-- A token is told by its text, whatever stands behind the space. -/
theorem tells_spaced (t t' : Token) : Tells t.spaced t'.spaced (Token.Alike t t') := by
  by_cases hkind : t.kind = t'.kind
  · rcases t with op | ⟨op, data⟩ | (field | ⟨declared, available⟩) <;>
      rcases t' with op' | ⟨op', data'⟩ | (field' | ⟨declared', available'⟩) <;> cases hkind
    · exact (tells_opcode op op').imp fun h => h ▸ .opcode op
    · exact (tells_push op op' data data').imp fun h => h ▸ .push op op' data
    · exact (tells_missingLength field field').imp fun h => h ▸ .missingLength field
    · rw [spaced_exceedsBuffer, spaced_exceedsBuffer]
      exact (Tells.same _).imp fun _ => .exceedsBuffer ..
  · exact (clash_of_kind_ne hkind).of_clash

/-! ## Listings -/

theorem Token.Alike.text_eq {t t' : Token} (h : t.Alike t') : t.text = t'.text := by
  cases h <;> rfl

theorem renderTokens_spaced {tokens : List Token} (hne : tokens ≠ []) :
    (renderTokens tokens).toList ++ [' '] = tokens.flatMap Token.spaced := by
  induction tokens with
  | nil => exact absurd rfl hne
  | cons t ts ih =>
    rcases ts with _ | ⟨t', ts⟩
    · simp [renderTokens, Token.spaced]
    · have htail := ih (List.cons_ne_nil t' ts)
      rw [renderTokens, List.map_cons] at htail ⊢
      rw [List.map_cons, String.intercalate_cons_cons, List.flatMap_cons, ← htail]
      simp [Token.spaced]

theorem renderTokens_eq_empty_iff {tokens : List Token} :
    renderTokens tokens = "" ↔ tokens = [] := by
  refine ⟨fun h => ?_, fun h => by rw [h]; rfl⟩
  rcases tokens with _ | ⟨t, ts⟩
  · rfl
  · have hspaced := renderTokens_spaced (List.cons_ne_nil t ts)
    rw [h, List.flatMap_cons] at hspaced
    exact (clash_space t _ [] hspaced.symm).1.elim

/-- Listings are the same exactly if their tokens are alike, one by one. The empty listing is no row
of tokens with spaces behind them and is told apart from them by itself. -/
theorem renderTokens_eq_iff {tokens tokens' : List Token} :
    renderTokens tokens = renderTokens tokens' ↔ List.Forall₂ Token.Alike tokens tokens' := by
  constructor
  · intro h
    by_cases hne : tokens = []
    · have hempty : renderTokens tokens' = "" := by rw [← h, hne]; rfl
      rw [hne, renderTokens_eq_empty_iff.1 hempty]
      exact .nil
    · have hne' : tokens' ≠ [] := fun h' => hne (renderTokens_eq_empty_iff.1 (by rw [h, h']; rfl))
      have hrow := Tells.row tells_spaced clash_space clash_space (.same _) tokens tokens'
      rw [← renderTokens_spaced hne, ← renderTokens_spaced hne'] at hrow
      exact (hrow.of_eq (by rw [h])).1
  · intro h
    have htexts : tokens.map Token.text = tokens'.map Token.text := by
      induction h with
      | nil => rfl
      | cons hhead _ ih => rw [List.map_cons, List.map_cons, hhead.text_eq, ih]
    rw [renderTokens, htexts, renderTokens]

theorem disassemble_eq_nil_iff {script : Bytes} : disassemble script = [] ↔ script = [] := by
  refine ⟨fun h => ?_, fun h => by rw [h, disassemble_nil]⟩
  rcases script with _ | ⟨op, rest⟩
  · rfl
  · rcases hstep : step op rest with ⟨t, rest'⟩ | reason
    · rw [disassemble_of_token hstep] at h
      cases h
    · rw [disassemble_of_stop hstep] at h
      cases h

/-- Two scripts have one listing exactly if their tokens are alike one by one: opcodes the same,
pushes with the same data, cut off for the same reason. Only the empty script has the empty one. -/
theorem render_eq_render_iff (script script' : Bytes) :
    (render script = render script' ↔
      List.Forall₂ Token.Alike (disassemble script) (disassemble script')) ∧
    (render script = "" ↔ script = []) :=
  ⟨renderTokens_eq_iff, renderTokens_eq_empty_iff.trans disassemble_eq_nil_iff⟩

end TxScope.Script
