import Mathlib.Data.List.Basic
import TxScope.Address.Bech32
import TxScope.Proofs.Bytes

/-!
# Bech32 tells the program

The groups of five bits give back the bits of the bytes, and zeros fewer than a group
(`ungroup_groups`). Zeros fewer than a byte do not hide where the bytes end, so the symbols tell the
bytes (`regroup_injective`), and the text of a program tells readable part, version and program
(`encodeProgram_inj`).
-/

namespace TxScope.Bech32

/-- The bits of a group, highest first. -/
def fiveBits (v : UInt8) : List Bool := [4, 3, 2, 1, 0].map fun i => v.toNat.testBit i

def ungroup (gs : List UInt8) : List Bool := gs.flatMap fiveBits

theorem valueOfBits_five (a b c d e : Bool) :
    fiveBits (valueOfBits [a, b, c, d, e]) = [a, b, c, d, e] ∧
      valueOfBits [a, b, c, d, e] < 32 := by
  revert a b c d e
  decide

theorem valueOfBits_bits (b : UInt8) : valueOfBits (bits b) = b := by
  have hall : ∀ n < 256, valueOfBits (bits (UInt8.ofNat n)) = UInt8.ofNat n := by decide +kernel
  simpa using hall b.toNat b.toNat_lt

theorem length_bits (b : UInt8) : (bits b).length = 8 := rfl

/-- The groups of bits are these bits, filled up to a whole group. -/
theorem ungroup_groups (bs : List Bool) : ∃ pad, pad < 5 ∧
    ungroup (groups bs) = bs ++ List.replicate pad false ∧ ∀ g ∈ groups bs, g < 32 := by
  fun_induction groups bs with
  | case1 a b c d e rest ih =>
    obtain ⟨pad, hpad, hbits, hlt⟩ := ih
    refine ⟨pad, hpad, ?_, List.forall_mem_cons.2 ⟨(valueOfBits_five a b c d e).2, hlt⟩⟩
    rw [ungroup, List.flatMap_cons, (valueOfBits_five a b c d e).1, ← ungroup, hbits]
    rfl
  | case2 => exact ⟨0, by decide, rfl, nofun⟩
  | case3 short hlong hne =>
    obtain ⟨a, b, c, d, e, hfive⟩ :
        ∃ a b c d e, short ++ List.replicate (5 - short.length) false = [a, b, c, d, e] := by
      rcases short with _ | ⟨a, _ | ⟨b, _ | ⟨c, _ | ⟨d, _ | ⟨e, rest⟩⟩⟩⟩⟩
      · exact absurd rfl hne
      · exact ⟨a, false, false, false, false, rfl⟩
      · exact ⟨a, b, false, false, false, rfl⟩
      · exact ⟨a, b, c, false, false, rfl⟩
      · exact ⟨a, b, c, d, false, rfl⟩
      · exact absurd rfl (hlong a b c d e rest)
    refine ⟨5 - short.length, ?_, ?_, ?_⟩
    · have := List.length_pos_iff.2 hne
      omega
    · rw [hfive, ungroup, List.flatMap_singleton, (valueOfBits_five a b c d e).1]
    · simp [hfive, (valueOfBits_five a b c d e).2]

theorem flatMap_bits_injective {bs bs' : Bytes} (h : bs.flatMap bits = bs'.flatMap bits) :
    bs = bs' := by
  induction bs generalizing bs' with
  | nil =>
    rcases bs' with _ | ⟨b', bs'⟩
    · rfl
    · cases h
  | cons b bs ih =>
    rcases bs' with _ | ⟨b', bs'⟩
    · cases h
    · obtain ⟨hb, hbs⟩ := List.append_inj h rfl
      rw [← valueOfBits_bits b, hb, valueOfBits_bits, ih hbs]

theorem length_flatMap_bits (bs : Bytes) : (bs.flatMap bits).length = 8 * bs.length := by
  induction bs with
  | nil => rfl
  | cons b bs ih =>
    rw [List.flatMap_cons, List.length_append, ih, length_bits, List.length_cons]
    omega

theorem length_ungroup (gs : List UInt8) : (ungroup gs).length = 5 * gs.length := by
  induction gs with
  | nil => rfl
  | cons g gs ih =>
    rw [ungroup, List.flatMap_cons, List.length_append, ← ungroup, ih, List.length_cons]
    simp only [fiveBits, List.length_map, List.length_cons, List.length_nil]
    omega

theorem regroup_lt {bs : Bytes} {g : UInt8} (hg : g ∈ regroup bs) : g < 32 := by
  obtain ⟨-, -, -, hlt⟩ := ungroup_groups (bs.flatMap bits)
  exact hlt g hg

theorem length_regroup_ge (bs : Bytes) : 8 * bs.length ≤ 5 * (regroup bs).length := by
  obtain ⟨pad, -, hbits, -⟩ := ungroup_groups (bs.flatMap bits)
  have hlen := congrArg List.length hbits
  rw [length_ungroup, List.length_append, length_flatMap_bits] at hlen
  rw [regroup]
  omega

/-- Two byte strings with the same groups differ in their paddings by less than a byte, so they have
the same number of bytes. -/
theorem regroup_injective {bs bs' : Bytes} (h : regroup bs = regroup bs') : bs = bs' := by
  obtain ⟨pad, hpad, hbits, -⟩ := ungroup_groups (bs.flatMap bits)
  obtain ⟨pad', hpad', hbits', -⟩ := ungroup_groups (bs'.flatMap bits)
  have heq : bs.flatMap bits ++ List.replicate pad false =
      bs'.flatMap bits ++ List.replicate pad' false := by
    rw [← hbits, ← hbits', ← regroup, ← regroup, h]
  have hlen := congrArg List.length heq
  simp only [List.length_append, length_flatMap_bits, List.length_replicate] at hlen
  refine flatMap_bits_injective (List.append_inj_left heq ?_)
  rw [length_flatMap_bits, length_flatMap_bits]
  omega

/-! ## The text of a program -/

/-- The digit `1`, which ends the readable part, is no symbol. -/
theorem symbol_ne_one (v : UInt8) : symbol v ≠ '1' := by
  have hmem : symbol v ∈ alphabet := by
    rw [symbol, List.getD_eq_getElem?_getD]
    rcases h : alphabet[v.toNat]? with _ | c
    · decide +kernel
    · exact List.mem_of_getElem? h
  exact ne_of_mem_of_not_mem hmem (by decide +kernel)

def value (c : Char) : UInt8 := UInt8.ofNat (alphabet.idxOf c)

theorem value_symbol {v : UInt8} (h : v < 32) : value (symbol v) = v := by
  have hall : ∀ n < 32, value (symbol (UInt8.ofNat n)) = UInt8.ofNat n := by decide +kernel
  simpa using hall v.toNat (by simpa [UInt8.lt_iff_toNat_lt] using h)

theorem map_symbol_inj {vs vs' : List UInt8} (hvs : ∀ v ∈ vs, v < 32) (hvs' : ∀ v ∈ vs', v < 32)
    (h : vs.map symbol = vs'.map symbol) : vs = vs' := by
  have hback : ∀ {ws : List UInt8}, (∀ v ∈ ws, v < 32) → (ws.map symbol).map value = ws :=
    fun hws => by
      rw [List.map_map]
      exact (List.map_congr_left fun v hv => value_symbol (hws v hv)).trans (List.map_id _)
  rw [← hback hvs, h, hback hvs']

variable {readable readable' : String} {version version' : Nat} {program program' : Bytes}

theorem toList_encodeProgram (readable : String) (version : Nat) (program : Bytes) :
    ∃ sum : List UInt8, sum.length = 6 ∧
    (encodeProgram readable version program).toList = readable.toList ++
      '1' :: ((UInt8.ofNat version :: regroup program).map symbol ++ sum.map symbol) := by
  refine ⟨checksum (constantFor version) readable.toList (UInt8.ofNat version :: regroup program),
    rfl, ?_⟩
  simp [encodeProgram]

theorem length_encodeProgram_ge (readable : String) (version : Nat) (program : Bytes) :
    8 * program.length + 40 ≤ 5 * (encodeProgram readable version program).toList.length := by
  obtain ⟨sum, hsum, htext⟩ := toList_encodeProgram readable version program
  have hlen := length_regroup_ge program
  rw [htext]
  simp only [List.length_append, List.length_cons, List.length_map, hsum]
  omega

theorem data_lt (hv : version < 32) : ∀ v ∈ UInt8.ofNat version :: regroup program, v < 32 := by
  refine List.forall_mem_cons.2 ⟨?_, fun v => regroup_lt⟩
  simp only [UInt8.lt_iff_toNat_lt, UInt8.toNat_ofNat', UInt8.reduceToNat]
  omega

/-- The text of a program tells its readable part, if this has no `1`, its version and its bytes. It
is cut at its only `1`. -/
theorem encodeProgram_inj (hr : '1' ∉ readable.toList) (hv : version < 32) (hv' : version' < 32)
    (h : encodeProgram readable version program = encodeProgram readable' version' program') :
    readable = readable' ∧ version = version' ∧ program = program' := by
  obtain ⟨sum, hsum, htext⟩ := toList_encodeProgram readable version program
  obtain ⟨sum', hsum', htext'⟩ := toList_encodeProgram readable' version' program'
  have hsymbols : ∀ vs : List UInt8, '1' ∉ vs.map symbol := fun vs hmem => by
    obtain ⟨v, -, hv⟩ := List.mem_map.1 hmem
    exact symbol_ne_one v hv
  rw [h, htext', eq_comm, ← List.map_append,
    List.append_cons_inj_of_notMem hr (hsymbols _), List.map_append] at htext
  obtain ⟨hreadable, -, hdata⟩ := htext
  have hvalues := map_symbol_inj (data_lt hv) (data_lt hv')
    (List.append_inj_left' hdata (by rw [List.length_map, List.length_map, hsum, hsum']))
  obtain ⟨hversion, hprogram⟩ := List.cons.inj hvalues
  refine ⟨String.toList_inj.1 hreadable, ?_, regroup_injective hprogram⟩
  have hnat := congrArg UInt8.toNat hversion
  simp only [UInt8.toNat_ofNat'] at hnat
  omega

end TxScope.Bech32
