import TxScope.Proofs.Framing
import TxScope.Proofs.HexText
import TxScope.Proofs.Stripping
import TxScope.Report.Basic

/-!
# A report read back as bytes

A report holds all that its transaction was read from, except in which of its forms each compact
size stood. `Report.serialize` writes the fields of a report with the shortest forms, which are the
ones of `Transaction.shortFraming`, and so gives the bytes back if they had no other ones.
-/

namespace TxScope

namespace CompactSize

/-- No other word spells the same number with fewer bytes. -/
def Shortest (word : Bytes) : Prop :=
  ∀ n other, Spells n word → Spells n other → word.length ≤ other.length

theorem spells_encode {n : Nat} (h : n < 2 ^ 64) : Spells n (encode n) := by
  unfold encode
  split_ifs with h1 h2 h4
  · exact .one h1
  · exact .two h2
  · exact .four h4
  · exact .eight h

/-- The form of a number is told by its length. -/
theorem Spells.eq_of_length_eq {n : Nat} {v w : Bytes} (hv : Spells n v) (hw : Spells n w)
    (hlen : v.length = w.length) : v = w := by
  cases hv <;> cases hw <;>
    simp only [List.length_cons, List.length_nil, toLittleEndian_length] at hlen ⊢ <;> omega

theorem Spells.length_encode_le {n : Nat} {w : Bytes} (h : Spells n w) :
    (encode n).length ≤ w.length := by
  unfold encode
  cases h <;> split_ifs <;>
    simp only [List.length_cons, List.length_nil, toLittleEndian_length] <;> omega

theorem Spells.eq_encode {n : Nat} {w : Bytes} (h : Spells n w) (hs : Shortest w) :
    w = encode n := by
  have hencode := spells_encode h.lt
  exact h.eq_of_length_eq hencode (Nat.le_antisymm (hs n _ h hencode) h.length_encode_le)

theorem shortest_encode {n : Nat} (h : n < 2 ^ 64) : Shortest (encode n) := by
  intro m other hm hother
  obtain ⟨rfl, -, -⟩ := (reads_read 0).unique hm (spells_encode h)
    (rfl : encode n ++ [] = encode n ++ [])
  exact hother.length_encode_le

theorem eq_map_encode {α : Type} {size : α → Nat} {xs : List α} {words : List Bytes}
    (h : List.Forall₂ (fun x word => Spells (size x) word) xs words)
    (hs : ∀ word ∈ words, Shortest word) : words = xs.map fun x => encode (size x) := by
  induction h with
  | nil => rfl
  | cons hword _ ih =>
    obtain ⟨hfirst, hrest⟩ := List.forall_mem_cons.1 hs
    rw [List.map_cons, ih hrest, ← hword.eq_encode hfirst]

def encodePrefixed (bs : Bytes) : Bytes := encode bs.length ++ bs

/-- Pieces behind their number, in its shortest form. -/
def encodeCounted (pieces : List Bytes) : Bytes := encode pieces.length ++ pieces.flatten

end CompactSize

open CompactSize

/-! ## The shortest framing -/

def StackFraming.short (stack : List Bytes) : StackFraming where
  count := encode stack.length
  lengths := stack.map fun item => encode item.length

/-- Every compact size in its shortest form. -/
def Transaction.shortFraming (tx : Transaction) : Framing where
  inputCount := encode tx.inputs.length
  scriptSigs := tx.inputs.map fun i => encode i.scriptSig.length
  outputCount := encode tx.outputs.length
  scriptPubKeys := tx.outputs.map fun o => encode o.scriptPubKey.length
  witnesses := if tx.hasWitness then tx.inputs.map fun i => .short i.witness else []

theorem StackFraming.Fits.eq_short {s : StackFraming} {stack : List Bytes} (h : s.Fits stack)
    (hs : ∀ word ∈ s.words, Shortest word) : s = .short stack := by
  obtain ⟨hcount, hlengths⟩ := List.forall_mem_cons.1 hs
  obtain ⟨count, lengths⟩ := s
  simp only [StackFraming.short, StackFraming.mk.injEq]
  exact ⟨h.count.eq_encode hcount, eq_map_encode h.lengths hlengths⟩

theorem StackFraming.eq_map_short {inputs : List Input} {framings : List StackFraming}
    (h : List.Forall₂ (fun i s => s.Fits i.witness) inputs framings)
    (hs : ∀ word ∈ framings.flatMap words, Shortest word) :
    framings = inputs.map fun i => .short i.witness := by
  induction h with
  | nil => rfl
  | cons hfit _ ih =>
    rw [List.flatMap_cons, List.forall_mem_append] at hs
    rw [List.map_cons, ih hs.2, ← hfit.eq_short hs.1]

theorem Framing.Fits.eq_short {f : Framing} {tx : Transaction} (h : f.Fits tx)
    (hs : ∀ word ∈ f.words, Shortest word) : f = tx.shortFraming := by
  simp only [words, List.forall_mem_append, List.forall_mem_cons] at hs
  obtain ⟨⟨⟨hin, hsigs⟩, hout, hkeys⟩, hstacks⟩ := hs
  have hwitnesses : f.witnesses =
      if tx.hasWitness then tx.inputs.map fun i => .short i.witness else [] := by
    have hw := h.witnesses
    split_ifs at hw ⊢
    · exact StackFraming.eq_map_short hw hstacks
    · exact hw
  obtain ⟨inputCount, scriptSigs, outputCount, scriptPubKeys, witnesses⟩ := f
  simp only [Transaction.shortFraming, Framing.mk.injEq]
  exact ⟨h.inputCount.eq_encode hin, eq_map_encode h.scriptSigs hsigs,
    h.outputCount.eq_encode hout, eq_map_encode h.scriptPubKeys hkeys, hwitnesses⟩

/-! ## Reports as bytes -/

def InputReport.serialize (i : InputReport) : Except Hex.Error Bytes := do
  let hash ← Hex.decode i.txid
  let script ← Hex.decode i.scriptSig
  return hash.reverse ++ toLittleEndian 4 i.vout.toNat ++ encodePrefixed script ++
    toLittleEndian 4 i.sequence.toNat

def InputReport.serializeWitness (i : InputReport) : Except Hex.Error Bytes := do
  let items ← i.witness.mapM Hex.decode
  return encodeCounted (items.map encodePrefixed)

def OutputReport.serialize (o : OutputReport) : Except Hex.Error Bytes := do
  let script ← Hex.decode o.scriptPubKey
  return toLittleEndian 8 o.value.toNat ++ encodePrefixed script

namespace Report

/-- The bytes that the fields of a report stand for. -/
def serialize (r : Report) : Except Hex.Error Bytes := do
  let inputs ← r.inputs.mapM InputReport.serialize
  let outputs ← r.outputs.mapM OutputReport.serialize
  let witnesses ← if r.hasWitness then r.inputs.mapM InputReport.serializeWitness else pure []
  return toLittleEndian 4 r.version.toUInt32.toNat ++
    (if r.hasWitness then Transaction.witnessMarker else []) ++ encodeCounted inputs ++
    encodeCounted outputs ++ witnesses.flatten ++ toLittleEndian 4 r.lockTime.toNat

theorem mapM_map_ok {ε α β γ : Type} {f : α → β} {g : β → Except ε γ} {e : α → γ}
    (h : ∀ x, g (f x) = .ok (e x)) (xs : List α) : (xs.map f).mapM g = .ok (xs.map e) := by
  induction xs with
  | nil => rfl
  | cons x xs ih =>
    rw [List.map_cons, List.mapM_cons, h, ih]
    rfl

theorem map_zipIdx_fst {α β : Type} (e : α → β) (xs : List α) :
    (xs.zipIdx.map fun p => e p.1) = xs.map e := by
  conv_rhs => rw [← List.zipIdx_map_fst 0 xs, List.map_map]
  rfl

theorem map_mapIdx {α β γ : Type} {f : Nat → α → β} {g : β → γ} {e : α → γ}
    (h : ∀ k x, g (f k x) = e x) (xs : List α) : (xs.mapIdx f).map g = xs.map e := by
  rw [List.mapIdx_eq_zipIdx_map, List.map_map, ← map_zipIdx_fst e xs]
  exact List.map_congr_left fun p _ => h p.2 p.1

theorem mapM_mapIdx_ok {ε α β γ : Type} {f : Nat → α → β} {g : β → Except ε γ} {e : α → γ}
    (h : ∀ k x, g (f k x) = .ok (e x)) (xs : List α) :
    (xs.mapIdx f).mapM g = .ok (xs.map e) := by
  rw [List.mapIdx_eq_zipIdx_map, mapM_map_ok (e := fun p => e p.1) (fun p => h p.2 p.1),
    map_zipIdx_fst]

theorem serialize_ofInput (index : Nat) (i : Input) :
    (InputReport.ofInput index i).serialize = .ok (i.written (encode i.scriptSig.length)) := by
  simp [InputReport.serialize, InputReport.ofInput, Input.prevTxid, Hash256.reference_eq_display,
    Hash256.display, Hex.decode_encode, bind, Except.bind, pure, Except.pure, Input.written,
    encodePrefixed]

theorem serializeWitness_ofInput (index : Nat) (i : Input) :
    (InputReport.ofInput index i).serializeWitness =
      .ok ((StackFraming.short i.witness).bytes i.witness) := by
  have hitems := mapM_map_ok Hex.decode_encode i.witness
  have hpieces : List.zipWith (fun item word => word ++ item) i.witness
      (i.witness.map fun item => encode item.length) = i.witness.map encodePrefixed := by
    rw [List.zipWith_map_right, List.zipWith_self]
    rfl
  simp [InputReport.serializeWitness, InputReport.ofInput, hitems, bind, Except.bind, pure,
    Except.pure, StackFraming.bytes, StackFraming.short, hpieces, encodeCounted]

theorem serialize_ofOutput (codec : Codec) (network : Network) (index : Nat) (o : Output) :
    (OutputReport.ofOutput codec network index o).serialize =
      .ok (o.written (encode o.scriptPubKey.length)) := by
  simp [OutputReport.serialize, OutputReport.ofOutput, Hex.decode_encode, bind, Except.bind, pure,
    Except.pure, Output.written, encodePrefixed]

theorem zipWith_encode {α : Type} (written : α → Bytes → Bytes) (size : α → Nat) (xs : List α) :
    encodeCounted (xs.map fun x => written x (encode (size x))) =
      encode xs.length ++
        (List.zipWith written xs (xs.map fun x => encode (size x))).flatten := by
  rw [encodeCounted, List.length_map, List.zipWith_map_right, List.zipWith_self]

/-- Written with the shortest forms, a report is the layout of its transaction with these. -/
theorem serialize_ofTransaction (codec : Codec) (identifier : Identifier) (network : Network)
    (tx : Transaction) : (ofTransaction codec identifier network tx).serialize =
      .ok (tx.shortFraming.layout tx).bytes := by
  have hinputs := mapM_mapIdx_ok serialize_ofInput tx.inputs
  have houtputs := mapM_mapIdx_ok (serialize_ofOutput codec network) tx.outputs
  have hwitnesses := mapM_mapIdx_ok serializeWitness_ofInput tx.inputs
  have hsigs := zipWith_encode Input.written (fun i => i.scriptSig.length) tx.inputs
  have hkeys := zipWith_encode Output.written (fun o => o.scriptPubKey.length) tx.outputs
  cases hw : tx.hasWitness <;>
    simp [serialize, ofTransaction, hinputs, houtputs, hwitnesses, hsigs, hkeys, hw, bind,
      Except.bind, pure, Except.pure, Layout.bytes, Layout.fields, Layout.body, Framing.layout,
      Transaction.shortFraming, List.zipWith_map_right]

theorem ofHex_eq_ok_iff {codec : Codec} {identifier : Identifier} {network : Network}
    {text : String} {report : Report} :
    ofHex codec identifier network text = .ok report ↔ ∃ raw tx,
      Transaction.bytesOfHex text = .ok raw ∧ Transaction.decode raw = .ok tx ∧
      ofTransaction codec identifier network tx = report := by
  simp only [ofHex, bind, Except.bind, pure, Except.pure]
  constructor
  · intro h
    split at h
    · cases h
    · rename_i raw hraw
      split at h
      · cases h
      · rename_i tx htx
        exact ⟨raw, tx, hraw, htx, Except.ok.inj h⟩
  · rintro ⟨raw, tx, hraw, htx, rfl⟩
    simp only [hraw, htx]

theorem ofHex_encode (codec : Codec) (identifier : Identifier) (network : Network) {raw : Bytes}
    {tx : Transaction} (h : Transaction.decode raw = .ok tx) :
    ofHex codec identifier network (Hex.encode raw) =
      .ok (ofTransaction codec identifier network tx) := by
  have hne : raw ≠ [] := by
    rintro rfl
    cases h
  exact ofHex_eq_ok_iff.2 ⟨raw, tx, Transaction.bytesOfHex_encode hne, h, rfl⟩

theorem index_mapIdx {α β : Type} {f : Nat → α → β} {index : β → Nat}
    (h : ∀ k x, index (f k x) = k) (xs : List α) :
    (xs.mapIdx f).map index = List.range (xs.mapIdx f).length := by
  rw [List.mapIdx_eq_zipIdx_map, List.map_map, List.length_map, List.length_zipIdx,
    List.range_eq_range', ← List.zipIdx_map_snd 0 xs]
  exact List.map_congr_left fun p _ => h p.2 p.1

/-- The sum is held at the greatest number of 64 bits. -/
theorem totalOutputValue_eq (tx : Transaction) : tx.totalOutputValue =
    min (tx.outputs.map fun o => o.value.toNat).sum (2 ^ 64 - 1) := by
  have hfold : ∀ (outputs : List Output) (total : Nat), total ≤ 2 ^ 64 - 1 →
      outputs.foldl (fun total o => min (total + o.value.toNat) 0xffffffffffffffff) total =
        min (total + (outputs.map fun o => o.value.toNat).sum) (2 ^ 64 - 1) := by
    intro outputs
    induction outputs with
    | nil =>
      intro total htotal
      simp only [List.foldl_nil, List.map_nil, List.sum_nil]
      omega
    | cons o outputs ih =>
      intro total htotal
      rw [List.foldl_cons, ih _ (by omega), List.map_cons, List.sum_cons]
      omega
  rw [Transaction.totalOutputValue, hfold _ 0 (by omega), Nat.zero_add]

/-- From a report the bytes are got back, if each of their compact sizes stood in its shortest form.
What a report says besides about its inputs and outputs agrees with what it lists. -/
theorem report_lossless {codec : Codec} {identifier : Identifier} {network : Network}
    {text : String} {report : Report} (h : ofHex codec identifier network text = .ok report) :
    (∃ raw tx, Transaction.bytesOfHex text = .ok raw ∧ Transaction.decode raw = .ok tx ∧
      (∃ f : Framing, f.Fits tx ∧ raw = (f.layout tx).bytes) ∧
      ∀ f : Framing, f.Fits tx → raw = (f.layout tx).bytes →
        (∀ word ∈ f.words, Shortest word) → report.serialize = .ok raw) ∧
    report.inputs.map InputReport.index = List.range report.inputs.length ∧
    report.outputs.map OutputReport.index = List.range report.outputs.length ∧
    report.wtxid.isSome = report.hasWitness ∧
    (∀ i ∈ report.inputs, i.scriptSigAsm = none ↔ i.scriptSig = "") ∧
    (report.hasWitness = false → ∀ i ∈ report.inputs, i.witness = []) ∧
    report.totalOutputValue = min (report.outputs.map fun o => o.value.toNat).sum (2 ^ 64 - 1) := by
  obtain ⟨raw, tx, hbytes, hdecode, rfl⟩ := ofHex_eq_ok_iff.1 h
  obtain ⟨-, l, hl, hraw⟩ := Transaction.layout_of_decode hdecode
  obtain ⟨f, hfit, rfl⟩ := hl.exists_framing
  refine ⟨⟨raw, tx, hbytes, hdecode, ⟨f, hfit, hraw⟩, fun g hg hgraw hs => ?_⟩,
    index_mapIdx (fun _ _ => rfl) _, index_mapIdx (fun _ _ => rfl) _, ?_, fun i hi => ?_,
    fun hw i hi => ?_, ?_⟩
  · rw [serialize_ofTransaction, hgraw, hg.eq_short hs]
  · simp only [ofTransaction]
    cases tx.hasWitness <;> rfl
  · obtain ⟨k, hk, rfl⟩ := List.mem_mapIdx.1 hi
    simp [InputReport.ofInput, Hex.encode_eq_empty_iff]
  · obtain ⟨k, hk, rfl⟩ := List.mem_mapIdx.1 hi
    have hwitnesses := hl.witnesses
    rw [show tx.hasWitness = false from hw, if_neg Bool.false_ne_true] at hwitnesses
    simp [InputReport.ofInput, hwitnesses.2 _ (List.getElem_mem hk)]
  · have hvalues : (tx.outputs.mapIdx (OutputReport.ofOutput codec network)).map
        (fun o => o.value.toNat) = tx.outputs.map fun o => o.value.toNat := by
      refine map_mapIdx (f := OutputReport.ofOutput codec network) ?_ _
      exact fun _ _ => rfl
    simp only [ofTransaction, hvalues]
    exact totalOutputValue_eq tx

def oneByteSpend : Transaction := Transaction.oneSpend [[5]] [1, 1, 5]

/-- The bytes of a transaction with a witness are got back from the report on their text. -/
theorem report_lossless_spend : ∃ report,
    ofHex .standard .standard .mainnet (Hex.encode oneByteSpend.raw) = .ok report ∧
      report.serialize = .ok oneByteSpend.raw := by
  have hdecode : Transaction.decode oneByteSpend.raw = .ok oneByteSpend := rfl
  have hne : oneByteSpend.raw ≠ [] := by decide
  have h := ofHex_encode .standard .standard .mainnet hdecode
  obtain ⟨⟨raw, tx, hraw, htx, -, hall⟩, -⟩ := report_lossless h
  obtain rfl := Except.ok.inj ((Transaction.bytesOfHex_encode hne).symm.trans hraw)
  obtain rfl := Except.ok.inj (hdecode.symm.trans htx)
  refine ⟨_, h, hall oneByteSpend.shortFraming ?_ rfl ?_⟩
  · exact ⟨spells_encode (by decide), .cons (spells_encode (by decide)) .nil,
      spells_encode (by decide), .cons (spells_encode (by decide)) .nil,
      .cons ⟨spells_encode (by decide), .cons (spells_encode (by decide)) .nil⟩ .nil⟩
  · have hwords : oneByteSpend.shortFraming.words = [1, 0, 1, 1, 1, 1].map encode := rfl
    rw [hwords, List.forall_mem_map]
    intro n hn
    exact shortest_encode (by simp at hn; omega)

end Report

end TxScope
