import TxScope.Proofs.Framing
import TxScope.Proofs.Stripping

/-!
# Sizes against the bytes

Between the outputs and the lock time stand the witnesses and nothing else
(`Layout.Spells.witnessSection_eq`): their items, and a word for each count and length
(`StackFraming.sum_size`). So the discount on the items is never more than the weight of all bytes,
and the weight is above the one by which blocks are limited by three units for each byte of the
marker and of these words.
-/

namespace TxScope

open CompactSize

namespace StackFraming

def size (s : StackFraming) (stack : List Bytes) : Nat :=
  s.count.length + (List.zipWith (fun item word => word.length + item.length) stack s.lengths).sum

theorem length_bytes (s : StackFraming) (stack : List Bytes) :
    (s.bytes stack).length = s.size stack := by
  simp [bytes, size, List.length_flatten, List.map_zipWith]

theorem sum_lengths {stack lengths : List Bytes}
    (h : List.Forall₂ (fun item word => Spells item.length word) stack lengths) :
    (List.zipWith (fun item word => word.length + item.length) stack lengths).sum =
      (lengths.map List.length).sum + (stack.map List.length).sum := by
  induction h with
  | nil => rfl
  | cons _ _ ih =>
    simp only [List.zipWith_cons_cons, List.sum_cons, List.map_cons, ih]
    omega

theorem Fits.size_eq {s : StackFraming} {stack : List Bytes} (h : s.Fits stack) :
    s.size stack = s.overhead + (stack.map List.length).sum := by
  rw [size, overhead, sum_lengths h.lengths, Nat.add_assoc]

/-- All stacks together are their items and the words around them. -/
theorem sum_size {inputs : List Input} {framings : List StackFraming}
    (h : List.Forall₂ (fun i s => s.Fits i.witness) inputs framings) :
    (List.zipWith (fun i s => s.size i.witness) inputs framings).sum =
      (framings.map overhead).sum +
        (inputs.map fun i => (i.witness.map List.length).sum).sum := by
  induction h with
  | nil => rfl
  | cons hs _ ih =>
    simp only [List.zipWith_cons_cons, List.sum_cons, List.map_cons, hs.size_eq, ih]
    omega

end StackFraming

namespace Transaction

/-- The bytes between the body and the lock time. -/
def witnessSection (tx : Transaction) : Bytes := slice tx.raw tx.body.stop (tx.raw.length - 4)

/-- The weight by which blocks are limited: each byte counts once, and three times more if it is
kept without witnesses. -/
def consensusWeight (tx : Transaction) : Nat := 3 * tx.stripped.length + tx.raw.length

theorem witnessBytes_eq (tx : Transaction) :
    tx.witnessBytes = (tx.inputs.map fun i => (i.witness.map List.length).sum).sum := by
  have hfold : ∀ items : List Bytes,
      items.foldr (fun item n => item.length + n) 0 = (items.map List.length).sum := by
    intro items
    induction items with
    | nil => rfl
    | cons item items ih => rw [List.foldr_cons, ih, List.map_cons, List.sum_cons]
  rw [witnessBytes, hfold, List.map_flatMap, List.flatMap_def, List.sum_flatten, List.map_map]
  rfl

end Transaction

namespace Layout.Spells

variable {l : Layout} {tx : Transaction}

theorem body_stop (h : l.Spells tx) :
    tx.body.stop = 4 + l.marker.length + l.body.length := by
  rw [h.body]

theorem body_length (h : l.Spells tx) : tx.body.length = l.body.length := by
  rw [h.body, Span.length, Nat.add_sub_cancel_left]

theorem witnessSection_eq (h : l.Spells tx) (hraw : tx.raw = l.bytes) :
    tx.witnessSection = l.witnesses := by
  have hsplit : l.bytes = (l.version ++ l.marker ++ l.body) ++ (l.witnesses ++ l.lockTime) := by
    simp [bytes, fields]
  have hstop : tx.body.stop = (l.version ++ l.marker ++ l.body).length := by
    rw [h.body_stop, List.length_append, List.length_append, h.version_length]
  have hend : l.bytes.length - 4 - tx.body.stop = l.witnesses.length := by
    rw [h.length_eq, h.body_stop]
    omega
  rw [Transaction.witnessSection, slice, hraw, hend, hstop, hsplit, List.drop_left, List.take_left]

theorem length_stripped (h : l.Spells tx) (hraw : tx.raw = l.bytes) :
    tx.stripped.length = 4 + tx.body.length + 4 := by
  rw [h.stripped_eq hraw, bare_bytes, List.length_append, List.length_append, h.version_length,
    h.lockTime_length, h.body_length]

theorem length_raw (h : l.Spells tx) (hraw : tx.raw = l.bytes) :
    tx.raw.length = tx.stripped.length + l.marker.length + tx.witnessSection.length := by
  rw [h.length_stripped hraw, h.witnessSection_eq hraw, hraw, h.length_eq, h.body_length]
  omega

end Layout.Spells

namespace StackFraming

theorem length_flatten (inputs : List Input) (framings : List StackFraming) :
    (List.zipWith (fun i s => s.bytes i.witness) inputs framings).flatten.length =
      (List.zipWith (fun i s => s.size i.witness) inputs framings).sum := by
  simp [List.length_flatten, List.map_zipWith, length_bytes]

end StackFraming

namespace Transaction

variable {tx : Transaction}

theorem sizes_of_plain (hw : tx.hasWitness = false) :
    tx.sizes = ⟨tx.raw.length, 4 * tx.raw.length, tx.raw.length, 0, tx.raw.length⟩ := by
  simp [sizes, hw]

theorem sizes_of_marked (hw : tx.hasWitness = true) :
    tx.sizes = ⟨tx.raw.length, 4 * tx.raw.length - 3 * tx.witnessBytes,
      (4 * tx.raw.length - 3 * tx.witnessBytes + 3) / 4, tx.witnessBytes,
      4 + tx.body.length + 4⟩ := by
  simp [sizes, hw]

/-- The virtual size is the least number that is worth the weight when each unit of it counts
four. -/
theorem virtualSize_le_iff (tx : Transaction) (v : Nat) :
    tx.sizes.virtualSize ≤ v ↔ tx.sizes.weight ≤ 4 * v := by
  cases hw : tx.hasWitness
  · simp only [sizes_of_plain hw]
    omega
  · simp only [sizes_of_marked hw]
    omega

theorem stripped_of_plain (hw : tx.hasWitness = false) : tx.stripped = tx.raw := by
  simp [stripped, hw]

/-- The section of the witnesses in framings that fit: its items, and the bytes around them. -/
theorem exists_section {l : Layout} (hl : l.Spells tx) (hraw : tx.raw = l.bytes)
    (hw : tx.hasWitness = true) : ∃ framings : List StackFraming,
      List.Forall₂ (fun i s => s.Fits i.witness) tx.inputs framings ∧
      tx.witnessSection =
        (List.zipWith (fun i s => s.bytes i.witness) tx.inputs framings).flatten ∧
      tx.witnessSection.length =
        (List.zipWith (fun i s => s.size i.witness) tx.inputs framings).sum ∧
      tx.witnessSection.length =
        (framings.map StackFraming.overhead).sum + tx.witnessBytes := by
  obtain ⟨framings, hfit, hbytes⟩ := hl.exists_framings
  rw [hw, if_pos rfl] at hfit
  have hsection := (hl.witnessSection_eq hraw).trans hbytes
  have hlen : tx.witnessSection.length =
      (List.zipWith (fun i s => s.size i.witness) tx.inputs framings).sum := by
    rw [hsection, StackFraming.length_flatten]
  have hitems := StackFraming.sum_size hfit
  rw [← witnessBytes_eq] at hitems
  exact ⟨framings, hfit, hsection, hlen, hlen.trans hitems⟩

/-- Sizes are those of the bytes. With witnesses, what stands between body and lock time are the
items and the words of their counts and lengths, and only the items are discounted. -/
theorem sizes_exact {raw : Bytes} {tx : Transaction} (h : decode raw = .ok tx) :
    tx.sizes.size = raw.length ∧ tx.sizes.strippedSize = tx.stripped.length ∧
    (∀ v, tx.sizes.virtualSize ≤ v ↔ tx.sizes.weight ≤ 4 * v) ∧
    (tx.hasWitness = false → tx.sizes.weight = 4 * tx.sizes.size ∧
      tx.sizes.virtualSize = tx.sizes.size ∧ tx.sizes.size = tx.sizes.strippedSize ∧
      tx.sizes.witnessBytes = 0) ∧
    (tx.hasWitness = true → ∃ framings : List StackFraming, ∃ W,
      tx.body.stop + W + 4 = raw.length ∧
      List.Forall₂ (fun i s => s.Fits i.witness) tx.inputs framings ∧
      slice raw tx.body.stop (raw.length - 4) =
        (List.zipWith (fun i s => s.bytes i.witness) tx.inputs framings).flatten ∧
      W = (List.zipWith (fun i s => s.size i.witness) tx.inputs framings).sum ∧
      tx.sizes.size = tx.sizes.strippedSize + 2 + W ∧
      tx.sizes.witnessBytes = (tx.inputs.map fun i => (i.witness.map List.length).sum).sum ∧
      W = (framings.map StackFraming.overhead).sum + tx.sizes.witnessBytes ∧
      tx.sizes.witnessBytes ≤ W ∧ 3 * tx.sizes.witnessBytes ≤ 4 * tx.sizes.size ∧
      tx.sizes.weight = 4 * tx.sizes.size - 3 * tx.sizes.witnessBytes ∧
      tx.consensusWeight = 3 * tx.sizes.strippedSize + tx.sizes.size ∧
      tx.sizes.weight = tx.consensusWeight + 3 * (2 + (W - tx.sizes.witnessBytes)) ∧
      tx.sizes.strippedSize + 2 ≤ tx.sizes.virtualSize ∧
      tx.sizes.virtualSize ≤ tx.sizes.size) := by
  obtain ⟨hraw, l, hl, hbytes⟩ := layout_of_decode h
  have hlayout : tx.raw = l.bytes := hraw.trans hbytes
  have hstripped := hl.length_stripped hlayout
  have hlen := hl.length_raw hlayout
  cases hw : tx.hasWitness
  · have hsame := stripped_of_plain hw
    simp [sizes_of_plain hw, hsame, ← hraw]
  · have hmarker : l.marker.length = 2 := by rw [hl.marker, hw]; rfl
    obtain ⟨framings, hfit, hsection, hsize, hover⟩ := exists_section hl hlayout hw
    have hstop : tx.body.stop + tx.witnessSection.length + 4 = tx.raw.length := by
      rw [hl.witnessSection_eq hlayout, hl.body_stop, hlayout, hl.length_eq]
    subst hraw
    refine ⟨by rw [sizes_of_marked hw], by rw [sizes_of_marked hw, hstripped],
      virtualSize_le_iff tx, by simp, fun _ => ⟨framings, tx.witnessSection.length, hstop, hfit,
      hsection, hsize, ?_⟩⟩
    rw [sizes_of_marked hw, consensusWeight, ← witnessBytes_eq]
    dsimp only
    omega

/-- One item of one byte, with its count and its length in three bytes each. -/
def longLengths : Transaction := oneSpend [[5]] [0xfd, 1, 0, 0xfd, 1, 0, 5]

/-- The six bytes of the two lengths are charged like the marker. -/
theorem sizes_exact_long_lengths : longLengths.sizes.strippedSize = longLengths.stripped.length ∧
    longLengths.sizes.weight = longLengths.consensusWeight + 3 * (2 + 6) := by
  have h : decode longLengths.raw = .ok longLengths := rfl
  obtain ⟨-, hstripped, -, -, hmarked⟩ := sizes_exact h
  obtain ⟨_, W, hstop, -, -, -, -, -, -, -, -, -, -, hweight, -⟩ := hmarked rfl
  have hW : W = 7 := by
    have hlen : longLengths.raw.length = 70 := by decide
    have hbody : longLengths.body.stop = 59 := rfl
    omega
  have hitems : longLengths.sizes.witnessBytes = 1 := by decide
  rw [hW, hitems] at hweight
  exact ⟨hstripped, hweight⟩

end Transaction

end TxScope
