import TxScope.Proofs.HexText
import TxScope.Proofs.Stripping

/-!
# References between transactions

A transaction is named by the double hash of its stripped bytes, and an input by the hash it spends
from. Both texts are the 32 bytes from the last one to the first (`Hash256.reference_eq_display`)
and tell them (`Hash256.display_injective`), so an input shows the name of a transaction exactly if
it spends from it (`Transaction.references_link`).
-/

namespace TxScope

namespace Hash256

theorem display_injective : Function.Injective display := by
  rintro ⟨bs, hbs⟩ ⟨bs', hbs'⟩ h
  have hreverse : bs.reverse = bs'.reverse := Hex.encode_injective h
  rw [mk.injEq]
  exact List.reverse_inj.1 hreverse

theorem reference_eq_display_iff {h h' : Hash256} : h.reference = h'.display ↔ h = h' := by
  rw [reference_eq_display, display_injective.eq_iff]

theorem length_display (h : Hash256) : h.display.length = 64 := by
  rw [display, Hex.encode, String.length_ofList, Hex.length_encodeChars, List.length_reverse,
    h.size_eq]

theorem digitChar_mem : ∀ n < 16, Nat.digitChar n ∈ "0123456789abcdef".toList := by
  decide +kernel

theorem display_digits {h : Hash256} {c : Char} (hc : c ∈ h.display.toList) :
    c ∈ "0123456789abcdef".toList := by
  rw [display, Hex.encode, String.toList_ofList] at hc
  obtain ⟨n, hn, rfl⟩ := Hex.exists_digitChar hc
  exact digitChar_mem n hn

end Hash256

namespace Transaction

/-- An input names a transaction exactly if it spends from the double hash of its version, body and
lock time, whether these were read with witnesses or without. For the text of an input and the text
of a transaction, though written apart, are the same for the same hash, which is always 64 digits in
lower case, and no others are. -/
theorem references_link :
    (∀ raw raw' parent child, decode raw = .ok parent → decode raw' = .ok child →
      ∃ l : Layout, l.Spells parent ∧ raw = l.bytes ∧
        parent.stripped = l.version ++ l.body ++ l.lockTime ∧
        ∀ codec codec' network network' (j : Nat) (i : Input), child.inputs[j]? = some i →
          ∃ shown : InputReport,
          (Report.ofTransaction codec' .standard network' child).inputs[j]? = some shown ∧
          (shown.txid = (Report.ofTransaction codec .standard network parent).txid ↔
            i.prevHash.bytes = Sha256.hash (Sha256.hash parent.stripped))) ∧
    ∀ h h' : Hash256, h.reference = h.display ∧ (h.reference = h'.display ↔ h = h') ∧
      h.display.length = 64 ∧ ∀ c ∈ h.display.toList, c ∈ "0123456789abcdef".toList := by
  refine ⟨fun raw raw' parent child hparent _ => ?_, fun h h' => ?_⟩
  · obtain ⟨hraw, l, hl, hbytes⟩ := layout_of_decode hparent
    have hstripped := hl.stripped_eq (hraw.trans hbytes)
    rw [Layout.bare_bytes] at hstripped
    refine ⟨l, hl, hbytes, hstripped, fun codec codec' network network' j i hi => ?_⟩
    refine ⟨InputReport.ofInput j i, ?_, ?_⟩
    · rw [Report.ofTransaction, List.getElem?_mapIdx, hi]
      rfl
    · have hname : i.prevTxid = (Hash256.ofMessage parent.stripped).display ↔
          i.prevHash = Hash256.ofMessage parent.stripped := Hash256.reference_eq_display_iff
      refine hname.trans ⟨fun h => by rw [h]; rfl, fun h => ?_⟩
      obtain ⟨⟨bs, hbs⟩, _, _, _, _⟩ := i
      exact (Hash256.mk.injEq ..).mpr h
  · exact ⟨h.reference_eq_display, Hash256.reference_eq_display_iff, h.length_display,
      fun c => Hash256.display_digits⟩

/-- The pieces of a transaction without witnesses that spends the first output of another one. -/
def spendingLayout (h : Hash256) : Layout where
  version := [1, 0, 0, 0]
  marker := []
  inputs := 1 :: h.bytes ++ [0, 0, 0, 0, 0, 0xff, 0xff, 0xff, 0xff]
  outputs := [0]
  witnesses := []
  lockTime := [0, 0, 0, 0]

def spending (h : Hash256) : Transaction where
  version := 1
  hasWitness := false
  inputs := [⟨h, 0, [], finalSequence, []⟩]
  outputs := []
  lockTime := 0
  raw := (spendingLayout h).bytes
  body := ⟨4, 47⟩

theorem spendingLayout_spells (h : Hash256) : (spendingLayout h).Spells (spending h) := by
  have hone : CompactSize.Spells 1 [1] := .one (by decide)
  have hzero : CompactSize.Spells 0 [0] := .one (by decide)
  have hversion : (1 : Int32).toInt = (littleEndian [1, 0, 0, 0] : Int).bmod (2 ^ 32) := by decide
  have hindex : toLittleEndian 4 (0 : UInt32).toNat = [0, 0, 0, 0] := rfl
  have hsequence : toLittleEndian 4 finalSequence.toNat = [0xff, 0xff, 0xff, 0xff] := rfl
  have hinput : Input.Spells ⟨h, 0, [], finalSequence, []⟩
      (h.bytes ++ [0, 0, 0, 0, 0, 0xff, 0xff, 0xff, 0xff]) :=
    ⟨[0], ⟨[0], hzero, rfl⟩, by simp only [hindex, hsequence, List.append_assoc]; rfl⟩
  exact
    { inputs := ⟨[1], _, hone, .cons hinput .nil, by simp [spendingLayout]⟩
      outputs := ⟨[0], [], hzero, .nil, rfl⟩
      witnesses := ⟨rfl, by simp [spending]⟩
      lockTime := hindex.symm
      version_length := rfl
      version := hversion
      marker := rfl
      unmarked := fun _ => by simp [spendingLayout, Layout.fields, Layout.body, witnessMarker]
      body := by simp [spendingLayout, spending, Layout.body, h.size_eq] }

/-- What spends from the stripped bytes of a transaction with a witness shows the name of it. -/
theorem references_link_spend :
    let parent := oneSpend [[5]] [1, 1, 5]
    let child := spending (Hash256.ofMessage parent.stripped)
    ∃ shown, (Report.ofTransaction .standard .standard .mainnet child).inputs[0]? = some shown ∧
      shown.txid = (Report.ofTransaction .standard .standard .mainnet parent).txid := by
  have hparent : decode (oneSpend [[5]] [1, 1, 5]).raw = .ok (oneSpend [[5]] [1, 1, 5]) := rfl
  intro parent child
  have hchild : decode child.raw = .ok child :=
    decode_of_layout (spendingLayout_spells (Hash256.ofMessage parent.stripped)) rfl
  obtain ⟨l, -, -, -, hall⟩ := references_link.1 _ _ _ _ hparent hchild
  obtain ⟨shown, hshown, hlink⟩ := hall .standard .standard .mainnet .mainnet 0 _ rfl
  exact ⟨shown, hshown, hlink.2 rfl⟩

end Transaction

end TxScope
