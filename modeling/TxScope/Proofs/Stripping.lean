import TxScope.Proofs.Verdict
import TxScope.Report.Basic

/-!
# Without its witnesses

The stripped bytes of a transaction are cut out of the bytes it was read from. They are the pieces
of its layout that are kept, version, body and lock time (`stripped_eq`), and so themselves the
layout of the transaction without its witnesses (`bare_spells`), unless the body begins with the
bytes of a marker. Nothing of them depends on the witnesses (`stripped_eq_stripped`).
-/

namespace TxScope

open CompactSize Reader

namespace Layout

/-- The pieces that are kept without witnesses. -/
def bare (l : Layout) : Layout := { l with marker := [], witnesses := [] }

variable {l : Layout} {tx : Transaction}

theorem bare_bytes (l : Layout) : l.bare.bytes = l.version ++ l.body ++ l.lockTime := by
  simp [bare, bytes, fields, body]

theorem Spells.lockTime_length (h : l.Spells tx) : l.lockTime.length = 4 := by
  rw [h.lockTime, toLittleEndian_length]

theorem Spells.length_eq (h : l.Spells tx) :
    l.bytes.length = 4 + l.marker.length + l.body.length + l.witnesses.length + 4 := by
  simp only [bytes, fields, List.length_append, h.version_length, h.lockTime_length]
  omega

theorem Spells.take_version (h : l.Spells tx) : l.bytes.take 4 = l.version := by
  rw [bytes, List.append_assoc, List.take_left' h.version_length]

theorem Spells.slice_marker (h : l.Spells tx) :
    slice l.bytes 4 (4 + l.marker.length) = l.marker := by
  simp [slice, bytes, List.append_assoc, List.drop_left' h.version_length]

theorem Spells.slice_body (h : l.Spells tx) :
    slice l.bytes tx.body.start tx.body.stop = l.body := by
  have hdrop : l.bytes.drop (4 + l.marker.length) = l.fields :=
    List.drop_left' (by rw [List.length_append, h.version_length])
  simp [slice, h.body, hdrop, fields]

theorem Spells.drop_lockTime (h : l.Spells tx) :
    l.bytes.drop (l.bytes.length - 4) = l.lockTime := by
  have hsplit : l.bytes = (l.version ++ l.marker ++ l.body ++ l.witnesses) ++ l.lockTime := by
    simp [bytes, fields]
  rw [hsplit]
  refine List.drop_left' ?_
  have hlen := h.lockTime_length
  simp only [List.length_append]
  omega

/-- Stripped bytes are the pieces that are kept. -/
theorem Spells.stripped_eq (h : l.Spells tx) (hraw : tx.raw = l.bytes) :
    tx.stripped = l.bare.bytes := by
  rw [bare_bytes, Transaction.stripped]
  cases hw : tx.hasWitness
  · have hmarker := h.marker
    have hwitnesses := h.witnesses
    simp only [hw, Bool.false_eq_true, if_false] at hmarker hwitnesses
    simp [hraw, bytes, fields, hmarker, hwitnesses.1]
  · rw [if_pos rfl, hraw, h.take_version, h.slice_body, h.drop_lockTime]

theorem Spells.take_body (h : l.Spells tx) :
    l.bytes.take tx.body.stop = l.version ++ l.marker ++ l.body := by
  have hsplit : l.bytes = (l.version ++ l.marker ++ l.body) ++ (l.witnesses ++ l.lockTime) := by
    simp [bytes, fields]
  rw [hsplit]
  refine List.take_left' ?_
  rw [h.body, List.length_append, List.length_append, h.version_length]

/-- A body is told from what follows it. -/
theorem SpellsFields.body_unique {l' : Layout} {tx' : Transaction} (h : l.SpellsFields tx)
    (h' : l'.SpellsFields tx') {rest rest' : Bytes} (heq : l.body ++ rest = l'.body ++ rest') :
    l.body = l'.body := by
  simp only [body, List.append_assoc] at heq ⊢
  obtain ⟨-, hin, hrest⟩ := (Transaction.reads_readInputs 0).unique
    (Transaction.spellsCounted_bare_iff.2 h.inputs) (Transaction.spellsCounted_bare_iff.2 h'.inputs)
    heq
  obtain ⟨-, hout, -⟩ := (Transaction.reads_readOutputs 0).unique h.outputs h'.outputs hrest
  rw [hin, hout]

theorem SpellsFields.marker_prefix_iff (h : l.SpellsFields tx) :
    Transaction.witnessMarker <+: l.bare.fields ↔ Transaction.witnessMarker <+: l.body := by
  have hlen : 2 ≤ l.body.length := by
    have hin := h.inputs.length_pos
    have hout := h.outputs.length_pos
    rw [body, List.length_append]
    omega
  have hfields : l.bare.fields = l.body ++ l.lockTime := by simp [bare, fields, body]
  rw [hfields]
  constructor
  · intro hpre
    exact List.prefix_of_prefix_length_le hpre (List.prefix_append _ _) hlen
  · intro hpre
    exact hpre.trans (List.prefix_append _ _)

end Layout

namespace Transaction

/-- The transaction as it is written without witnesses. -/
def withoutWitnesses (tx : Transaction) : Transaction :=
  { tx with
    hasWitness := false
    inputs := tx.inputs.map Input.bare
    raw := tx.stripped
    body := ⟨4, 4 + tx.body.length⟩ }

variable {l l' : Layout} {tx tx' : Transaction}

theorem bare_spells (h : l.Spells tx) (hbody : ¬ witnessMarker <+: l.body) :
    l.bare.Spells tx.withoutWitnesses where
  inputs := spellsCounted_map.2 h.inputs
  outputs := h.outputs
  witnesses := ⟨rfl, by simp [withoutWitnesses, Input.bare]⟩
  lockTime := h.lockTime
  version_length := h.version_length
  version := h.version
  marker := rfl
  unmarked := fun _ hpre => hbody (h.marker_prefix_iff.1 hpre)
  body := by
    simp only [withoutWitnesses, h.body, Span.length, Nat.add_sub_cancel_left]
    rfl

theorem decode_stripped (h : l.Spells tx) (hraw : tx.raw = l.bytes)
    (hbody : ¬ witnessMarker <+: l.body) : decode tx.stripped = .ok tx.withoutWitnesses := by
  have hstripped := h.stripped_eq hraw
  rw [hstripped]
  exact decode_of_layout (bare_spells h hbody) hstripped

/-- Stripped bytes whose body begins like a marker are read as if they had witnesses. -/
theorem hasWitness_of_decode_stripped (h : l.Spells tx) (hraw : tx.raw = l.bytes)
    (hbody : witnessMarker <+: l.body) (hd : decode tx.stripped = .ok tx') :
    tx'.hasWitness = true := by
  obtain ⟨-, l', hl', heq⟩ := layout_of_decode hd
  by_contra hplain
  rw [Bool.not_eq_true] at hplain
  have hmarker := hl'.marker
  rw [hplain, if_neg Bool.false_ne_true] at hmarker
  rw [h.stripped_eq hraw, Layout.bytes, Layout.bytes, hmarker] at heq
  simp only [Layout.bare, List.append_nil] at heq
  have hfields := List.append_inj_right heq (h.version_length.trans hl'.version_length.symm)
  exact hl'.unmarked hplain (hfields ▸ h.marker_prefix_iff.2 hbody)

/-- The stripped bytes are told by what stands before the witnesses and by the lock time. -/
theorem stripped_eq_stripped (h : l.Spells tx) (h' : l'.Spells tx') (hw : tx.hasWitness = true)
    (hhead : l.bytes.take tx.body.stop = l'.bytes.take tx.body.stop)
    (htail : l.lockTime = l'.lockTime) : l.bare.bytes = l'.bare.bytes := by
  have hsplit := List.take_append_drop tx.body.stop l'.bytes
  rw [← hhead, h.take_body, h.marker, if_pos hw] at hsplit
  simp only [Layout.bytes, List.append_assoc] at hsplit
  obtain ⟨hversion, hrest⟩ :=
    List.append_inj hsplit (h.version_length.trans h'.version_length.symm)
  have hmarker := h'.marker
  cases hw' : tx'.hasWitness
  · rw [hw', if_neg Bool.false_ne_true] at hmarker
    rw [hmarker] at hrest
    exact absurd ⟨_, hrest⟩ (h'.unmarked hw')
  · rw [hw', if_pos rfl] at hmarker
    rw [hmarker] at hrest
    have hfields := List.append_cancel_left hrest
    simp only [Layout.fields, List.append_assoc] at hfields
    have hbody := h.body_unique h'.toSpellsFields hfields
    rw [Layout.bare_bytes, Layout.bare_bytes, hversion, hbody, htail]

theorem txid_eq_of_stripped_eq {codec codec' : Codec} {identifier : Identifier}
    {network network' : Network} (h : tx.stripped = tx'.stripped) :
    (Report.ofTransaction codec identifier network tx).txid =
      (Report.ofTransaction codec' identifier network' tx').txid :=
  congrArg identifier.txid h

/-- Stripping keeps what is no witness. The bytes kept lie one behind the other around the marker,
and are read as the transaction without its witnesses, unless the body begins like a marker: then
they are not read as bytes without witnesses at all. And transactions that differ only in the bytes
of their witnesses have one name, which is that of the stripped bytes. -/
theorem stripping_faithful :
    (∀ raw tx, decode raw = .ok tx → tx.hasWitness = true →
      (tx.raw = raw ∧ slice raw 4 6 = witnessMarker ∧ 6 ≤ tx.body.start ∧
        tx.body.start ≤ tx.body.stop ∧ tx.body.stop + 4 ≤ raw.length) ∧
      (¬ witnessMarker <+: slice raw tx.body.start tx.body.stop →
        decode tx.stripped = .ok tx.withoutWitnesses ∧
        tx.withoutWitnesses.stripped = tx.stripped ∧
        ∀ codec identifier network,
          (Report.ofTransaction codec identifier network tx.withoutWitnesses).txid =
            (Report.ofTransaction codec identifier network tx).txid) ∧
      (witnessMarker <+: slice raw tx.body.start tx.body.stop →
        ∀ tx', decode tx.stripped = .ok tx' → tx'.hasWitness = true)) ∧
    ∀ raw raw' tx tx', decode raw = .ok tx → decode raw' = .ok tx' → tx.hasWitness = true →
      raw.take tx.body.stop = raw'.take tx.body.stop →
      raw.drop (raw.length - 4) = raw'.drop (raw'.length - 4) →
      ∀ codec codec' identifier network network',
        (Report.ofTransaction codec identifier network tx).txid =
          (Report.ofTransaction codec' identifier network' tx').txid := by
  refine ⟨fun raw tx hd hw => ?_, fun raw raw' tx tx' hd hd' hw hhead htail => ?_⟩
  · obtain ⟨hraw, l, hl, rfl⟩ := layout_of_decode hd
    have hmarker : l.marker = witnessMarker := hl.marker.trans (if_pos hw)
    have hlen : l.marker.length = 2 := by rw [hmarker]; rfl
    rw [hl.slice_body]
    refine ⟨⟨hraw, ?_, ?_⟩, fun hbody => ?_, fun hbody tx' hd' => ?_⟩
    · rw [← hmarker, ← hl.slice_marker, hlen]
    · rw [hl.length_eq, hl.body, hlen]
      refine ⟨?_, ?_, ?_⟩ <;> simp only <;> omega
    · have hself : tx.withoutWitnesses.stripped = tx.stripped := rfl
      exact ⟨decode_stripped hl hraw hbody, hself, fun _ _ _ => txid_eq_of_stripped_eq hself⟩
    · exact hasWitness_of_decode_stripped hl hraw hbody hd'
  · obtain ⟨hraw, l, hl, rfl⟩ := layout_of_decode hd
    obtain ⟨hraw', l', hl', rfl⟩ := layout_of_decode hd'
    rw [hl.drop_lockTime, hl'.drop_lockTime] at htail
    intro codec codec' identifier network network'
    refine txid_eq_of_stripped_eq ?_
    rw [hl.stripped_eq hraw, hl'.stripped_eq hraw', stripped_eq_stripped hl hl' hw hhead htail]

/-- One input and one output, with `stack` as the witness, which is written as `written`. -/
def oneSpend (stack : List Bytes) (written : Bytes) : Transaction where
  version := 2
  hasWitness := true
  inputs := [⟨⟨List.replicate 32 7, rfl⟩, 0, [], finalSequence, stack⟩]
  outputs := [⟨9, [0x51]⟩]
  lockTime := 0
  raw := [2, 0, 0, 0, 0, 1, 1] ++ List.replicate 32 7 ++ [0, 0, 0, 0, 0, 0xff, 0xff, 0xff, 0xff,
    1, 9, 0, 0, 0, 0, 0, 0, 0, 1, 0x51] ++ written ++ [0, 0, 0, 0]
  body := ⟨6, 59⟩

/-- No input, and one output whose value and script go on like a marked transaction. -/
def noSpend : Transaction where
  version := 1
  hasWitness := true
  inputs := []
  outputs := [⟨0x100, [0, 0]⟩]
  lockTime := 0
  raw := [1, 0, 0, 0, 0, 1, 0, 1, 0, 1, 0, 0, 0, 0, 0, 0, 2, 0, 0, 0, 0, 0, 0]
  body := ⟨6, 19⟩

/-- With another witness a transaction keeps its name; and the stripped bytes of one without inputs
can be read as a transaction, with witnesses. -/
theorem stripping_faithful_spends :
    (decode (oneSpend [[5]] [1, 1, 5]).stripped = .ok (oneSpend [[5]] [1, 1, 5]).withoutWitnesses ∧
      ∀ codec identifier network,
        (Report.ofTransaction codec identifier network (oneSpend [[5]] [1, 1, 5])).txid =
          (Report.ofTransaction codec identifier network (oneSpend [] [0])).txid) ∧
    ∃ tx, decode noSpend.stripped = .ok tx ∧ tx.hasWitness = true := by
  have hspend : decode (oneSpend [[5]] [1, 1, 5]).raw = .ok (oneSpend [[5]] [1, 1, 5]) := rfl
  have hbare : decode (oneSpend [] [0]).raw = .ok (oneSpend [] [0]) := rfl
  have hnone : decode noSpend.raw = .ok noSpend := rfl
  refine ⟨⟨?_, fun codec identifier network => ?_⟩, _, rfl, ?_⟩
  · exact ((stripping_faithful.1 _ _ hspend rfl).2.1 (by decide)).1
  · exact stripping_faithful.2 _ _ _ _ hspend hbare rfl rfl rfl codec codec identifier
      network network
  · exact (stripping_faithful.1 _ _ hnone rfl).2.2 (by decide) _ rfl

end Transaction

end TxScope
