import Mathlib.Algebra.BigOperators.Group.List.Basic
import TxScope.Proofs.Layout

/-!
# The words of the compact sizes

A layout leaves open only in which of its forms each compact size stands. A `Framing` names the
word of each of them, in a witness by a `StackFraming`, and then the layout is fixed
(`Framing.layout`). What is laid out for a transaction is laid out by a framing that fits it
(`Layout.Spells.exists_framing`).
-/

namespace TxScope

open CompactSize

/-- The words in a stack of items: of its count, and of the length of each item. -/
structure StackFraming where
  count : Bytes
  lengths : List Bytes

/-- The words of all compact sizes of a transaction. -/
structure Framing where
  inputCount : Bytes
  scriptSigs : List Bytes
  outputCount : Bytes
  scriptPubKeys : List Bytes
  witnesses : List StackFraming

/-- An input with a word for the length of its script. -/
def Input.written (i : Input) (length : Bytes) : Bytes :=
  i.prevHash.bytes ++ toLittleEndian 4 i.prevIndex.toNat ++ (length ++ i.scriptSig) ++
    toLittleEndian 4 i.sequence.toNat

def Output.written (o : Output) (length : Bytes) : Bytes :=
  toLittleEndian 8 o.value.toNat ++ (length ++ o.scriptPubKey)

namespace StackFraming

structure Fits (s : StackFraming) (stack : List Bytes) : Prop where
  count : Spells stack.length s.count
  lengths : List.Forall₂ (fun item word => Spells item.length word) stack s.lengths

def words (s : StackFraming) : List Bytes := s.count :: s.lengths

/-- The bytes that are not part of an item. -/
def overhead (s : StackFraming) : Nat := s.count.length + (s.lengths.map List.length).sum

def bytes (s : StackFraming) (stack : List Bytes) : Bytes :=
  s.count ++ (List.zipWith (fun item word => word ++ item) stack s.lengths).flatten

end StackFraming

namespace Framing

structure Fits (f : Framing) (tx : Transaction) : Prop where
  inputCount : Spells tx.inputs.length f.inputCount
  scriptSigs : List.Forall₂ (fun i word => Spells i.scriptSig.length word) tx.inputs f.scriptSigs
  outputCount : Spells tx.outputs.length f.outputCount
  scriptPubKeys :
    List.Forall₂ (fun o word => Spells o.scriptPubKey.length word) tx.outputs f.scriptPubKeys
  witnesses : if tx.hasWitness then
      List.Forall₂ (fun i s => s.Fits i.witness) tx.inputs f.witnesses
    else f.witnesses = []

def words (f : Framing) : List Bytes :=
  f.inputCount :: f.scriptSigs ++ f.outputCount :: f.scriptPubKeys ++
    f.witnesses.flatMap StackFraming.words

def layout (f : Framing) (tx : Transaction) : Layout where
  version := toLittleEndian 4 tx.version.toUInt32.toNat
  marker := if tx.hasWitness then Transaction.witnessMarker else []
  inputs := f.inputCount ++ (List.zipWith Input.written tx.inputs f.scriptSigs).flatten
  outputs := f.outputCount ++ (List.zipWith Output.written tx.outputs f.scriptPubKeys).flatten
  witnesses := (List.zipWith (fun i s => s.bytes i.witness) tx.inputs f.witnesses).flatten
  lockTime := toLittleEndian 4 tx.lockTime.toNat

end Framing

/-- Where each value is spelled with a word of its own, so is a row of values. -/
theorem Spelling.exists_words {α β : Type} {F : Spelling α} {R : α → β → Prop}
    {f : α → β → Bytes} (hF : ∀ x w, F x w → ∃ u, R x u ∧ w = f x u) {xs : List α} {w : Bytes}
    (h : F.Each xs w) : ∃ us, List.Forall₂ R xs us ∧ w = (List.zipWith f xs us).flatten := by
  induction h with
  | nil => exact ⟨[], .nil, rfl⟩
  | cons hv _ ih =>
    obtain ⟨u, hu, rfl⟩ := hF _ _ hv
    obtain ⟨us, hus, rfl⟩ := ih
    exact ⟨u :: us, .cons hu hus, rfl⟩

theorem CompactSize.exists_countedWords {α β : Type} {F : Spelling α} {R : α → β → Prop}
    {f : α → β → Bytes} (hF : ∀ x w, F x w → ∃ u, R x u ∧ w = f x u) {xs : List α} {w : Bytes}
    (h : SpellsCounted F xs w) : ∃ count us, Spells xs.length count ∧ List.Forall₂ R xs us ∧
      w = count ++ (List.zipWith f xs us).flatten := by
  obtain ⟨count, rest, hcount, hrest, rfl⟩ := h
  obtain ⟨us, hus, rfl⟩ := Spelling.exists_words hF hrest
  exact ⟨count, us, hcount, hus, rfl⟩

theorem Input.SpellsWitness.exists_framing {i : Input} {w : Bytes} (h : i.SpellsWitness w) :
    ∃ s : StackFraming, s.Fits i.witness ∧ w = s.bytes i.witness := by
  obtain ⟨count, lengths, hcount, hlengths, rfl⟩ :=
    exists_countedWords (f := fun item word => word ++ item) (fun _ _ hitem => hitem) h
  exact ⟨⟨count, lengths⟩, ⟨hcount, hlengths⟩, rfl⟩

/-- Four bytes that spell a version are the ones it is written in. -/
theorem toLittleEndian_version {v : Int32} {w : Bytes} (hlen : w.length = 4)
    (hv : v.toInt = (littleEndian w : Int).bmod (2 ^ 32)) :
    toLittleEndian 4 v.toUInt32.toNat = w := by
  have hlt := littleEndian_lt w
  rw [hlen] at hlt
  obtain ⟨n, hn⟩ : ∃ n : UInt32, n.toNat = littleEndian w := ⟨_, UInt32.toNat_ofNat_of_lt' hlt⟩
  rw [← hn] at hv
  have hbits := BitVec.toInt_eq_toNat_bmod n.toBitVec
  have hsigned : v = n.toInt32 := Int32.toInt_inj.1 (hv.trans hbits.symm)
  rw [hsigned, UInt32.toUInt32_toInt32, hn, ← hlen, toLittleEndian_littleEndian]

namespace Layout

variable {l : Layout} {tx : Transaction}

theorem SpellsFields.exists_framings (h : l.SpellsFields tx) : ∃ framings : List StackFraming,
    (if tx.hasWitness then List.Forall₂ (fun i s => s.Fits i.witness) tx.inputs framings
      else framings = []) ∧
    l.witnesses = (List.zipWith (fun i s => s.bytes i.witness) tx.inputs framings).flatten := by
  have hw := h.witnesses
  cases htx : tx.hasWitness
  · rw [htx, if_neg Bool.false_ne_true] at hw
    exact ⟨[], rfl, by simp [hw.1]⟩
  · rw [htx, if_pos rfl] at hw
    exact Spelling.exists_words (fun _ _ hi => Input.SpellsWitness.exists_framing hi) hw

theorem Spells.exists_framing (h : l.Spells tx) : ∃ f : Framing, f.Fits tx ∧ l = f.layout tx := by
  have hinput : ∀ i w, Input.Spells i w →
      ∃ u, CompactSize.Spells i.scriptSig.length u ∧ w = Input.written i u := by
    rintro i _ ⟨_, ⟨u, hu, rfl⟩, rfl⟩
    exact ⟨u, hu, rfl⟩
  have houtput : ∀ o w, Output.Spells o w →
      ∃ u, CompactSize.Spells o.scriptPubKey.length u ∧ w = Output.written o u := by
    rintro o _ ⟨_, ⟨u, hu, rfl⟩, rfl⟩
    exact ⟨u, hu, rfl⟩
  obtain ⟨inputCount, scriptSigs, hic, hin, hinputs⟩ := exists_countedWords hinput h.inputs
  obtain ⟨outputCount, scriptPubKeys, hoc, hout, houtputs⟩ := exists_countedWords houtput h.outputs
  obtain ⟨framings, hframings, hwitnesses⟩ := h.exists_framings
  refine ⟨⟨inputCount, scriptSigs, outputCount, scriptPubKeys, framings⟩,
    ⟨hic, hin, hoc, hout, hframings⟩, ?_⟩
  have hversion := toLittleEndian_version h.version_length h.version
  obtain ⟨version, marker, inputs, outputs, witnesses, lockTime⟩ := l
  simp only [Framing.layout, Layout.mk.injEq]
  exact ⟨hversion.symm, h.marker, hinputs, houtputs, hwitnesses, h.lockTime⟩

end Layout

end TxScope
