import TxScope.Proofs.Recorder

/-!
# The four forms of a compact size

A number is spelled by one byte below 253, or by a marker and two, four or eight bytes that hold
it. Reading takes each form that has room for the number, the shortest one or not (`reads_read`).
-/

namespace TxScope.CompactSize

open Reader

/-- The forms in which a number may stand. -/
inductive Spells : Spelling Nat
  | one {n : Nat} (h : n < 0xfd) : Spells n [UInt8.ofNat n]
  | two {n : Nat} (h : n < 256 ^ 2) : Spells n (0xfd :: toLittleEndian 2 n)
  | four {n : Nat} (h : n < 256 ^ 4) : Spells n (0xfe :: toLittleEndian 4 n)
  | eight {n : Nat} (h : n < 256 ^ 8) : Spells n (0xff :: toLittleEndian 8 n)

/-- A byte string behind its length. -/
def SpellsPrefixed : Spelling Bytes := fun bs w => ∃ size, Spells bs.length size ∧ w = size ++ bs

/-- Values one after the other behind their number. -/
def SpellsCounted {α : Type} (F : Spelling α) : Spelling (List α) := fun xs w =>
  ∃ size words, Spells xs.length size ∧ F.Each xs words ∧ w = size ++ words

theorem Spells.lt {n : Nat} {w : Bytes} (h : Spells n w) : n < 2 ^ 64 := by
  cases h <;> omega

theorem Spells.length_pos {n : Nat} {w : Bytes} (h : Spells n w) : 1 ≤ w.length := by
  cases h <;> simp

theorem SpellsCounted.length_pos {α : Type} {F : Spelling α} {xs : List α} {w : Bytes}
    (h : SpellsCounted F xs w) : 1 ≤ w.length := by
  obtain ⟨size, words, hsize, -, rfl⟩ := h
  have hpos := hsize.length_pos
  rw [List.length_append]
  omega

theorem spellsCounted_map {α β : Type} {F : Spelling β} {f : α → β} {xs : List α} {w : Bytes} :
    SpellsCounted F (xs.map f) w ↔ SpellsCounted (fun x => F (f x)) xs w := by
  simp only [SpellsCounted, List.length_map, Spelling.each_map]

theorem payloadWidth_eq_zero_iff {first : UInt8} : payloadWidth first = 0 ↔ first.toNat < 0xfd := by
  have hlt := first.toNat_lt
  simp only [payloadWidth, ← UInt8.toNat_inj, UInt8.reduceToNat]
  constructor
  · intro h
    split_ifs at h
    omega
  · intro h
    rw [if_neg (by omega), if_neg (by omega), if_neg (by omega)]

theorem eq_marker {first : UInt8} (h : ¬ first.toNat < 0xfd) :
    first = 0xfd ∨ first = 0xfe ∨ first = 0xff := by
  have hlt := first.toNat_lt
  simp only [← UInt8.toNat_inj, UInt8.reduceToNat]
  omega

/-- A first byte, and behind a marker a number of the width it calls for. -/
theorem spells_iff {n : Nat} {w : Bytes} : Spells n w ↔ ∃ first rest, w = first :: rest ∧
    if payloadWidth first = 0 then n = first.toNat ∧ rest = []
    else n < 256 ^ payloadWidth first ∧ rest = toLittleEndian (payloadWidth first) n := by
  constructor
  · rintro (h | h | h | h)
    · have hn : (UInt8.ofNat n).toNat = n := by
        rw [UInt8.toNat_ofNat']
        omega
      refine ⟨UInt8.ofNat n, [], rfl, ?_⟩
      rw [if_pos (payloadWidth_eq_zero_iff.2 (by omega))]
      exact ⟨hn.symm, rfl⟩
    · exact ⟨0xfd, _, rfl, h, rfl⟩
    · exact ⟨0xfe, _, rfl, h, rfl⟩
    · exact ⟨0xff, _, rfl, h, rfl⟩
  · rintro ⟨first, rest, rfl, h⟩
    split_ifs at h with hw
    · obtain ⟨rfl, rfl⟩ := h
      have hone := Spells.one (payloadWidth_eq_zero_iff.1 hw)
      rwa [UInt8.ofNat_toNat] at hone
    · obtain ⟨hn, rfl⟩ := h
      rcases eq_marker (fun hlt => hw (payloadWidth_eq_zero_iff.2 hlt)) with rfl | rfl | rfl
      · exact .two hn
      · exact .four hn
      · exact .eight hn

theorem reads_read : Reads read Spells := by
  intro p
  refine ((reads_uint8 p).bind (G := fun first _ n w =>
    if payloadWidth first = 0 then n = first.toNat ∧ w = []
    else n < 256 ^ payloadWidth first ∧ w = toLittleEndian (payloadWidth first) n)
    fun first v _ => ?_).congr fun n w => ?_
  · split_ifs with hw
    · exact readsAt_pure first.toNat
    · exact reads_number (payloadWidth first) _
  · rw [spells_iff]
    constructor
    · rintro ⟨first, v, rest, rfl, h, rfl⟩
      exact ⟨first, rest, rfl, h⟩
    · rintro ⟨first, rest, rfl, h⟩
      exact ⟨first, [first], rest, rfl, h, rfl⟩

/-- A number that is read is a 64-bit word. -/
theorem lt_of_read {ε : Type} [Shortage ε] {size : Reader ε Nat} (hsize : Reads size Spells)
    {c c' : Cursor} {n : Nat} (h : size c = (.ok n, c')) : n < 2 ^ 64 := by
  obtain ⟨w, rest, hw, -⟩ := (hsize c.position).of_ok h
  exact hw.lt

theorem readPrefixed_of_ok {c c' : Cursor} {bs : Bytes}
    (h : (read >>= bytes) c = (.ok bs, c')) : readPrefixed c = (.ok bs, c') := by
  simp only [bind] at h
  simp only [readPrefixed]
  split at h
  · rename_i n c₁ hn
    simp only [hn, h]
  · cases h

/-- The cursor stands elsewhere after a failure, but the failure is the same. -/
theorem readPrefixed_of_error {c c' : Cursor} {e : Truncated}
    (h : (read >>= bytes) c = (.error e, c')) : ∃ c'', readPrefixed c = (.error e, c'') := by
  simp only [bind] at h
  simp only [readPrefixed]
  split at h
  · rename_i n c₁ hn
    exact ⟨c, by simp only [hn, h]⟩
  · rename_i e' c₁ hn
    exact ⟨c₁, by cases h; simp only [hn]⟩

theorem reads_readPrefixed : Reads readPrefixed SpellsPrefixed := by
  intro p
  have hboth := (reads_read p).bind fun n v _ => reads_bytes n (p + v.length)
  refine (hboth.of_agree readPrefixed_of_ok readPrefixed_of_error).congr fun bs w => ?_
  constructor
  · rintro ⟨n, size, _, hsize, ⟨rfl, rfl⟩, rfl⟩
    exact ⟨size, hsize, rfl⟩
  · rintro ⟨size, hsize, rfl⟩
    exact ⟨_, size, bs, hsize, ⟨rfl, rfl⟩, rfl⟩

/-- A declared number of elements, read one by one. -/
theorem readsAt_counted {ε α : Type} [Shortage ε] {size : Reader ε Nat} {smallest : Nat}
    {site : LoopSite} {element : Nat → Reader ε α} {F : Spelling α} {p : Nat}
    (hs : ReadsAt p size Spells) (he : ∀ i, Reads (element i) F) :
    ReadsAt p (size >>= fun count => (Recorder.counted site count smallest element).plain)
      (SpellsCounted F) := by
  simp only [Recorder.plain_counted]
  refine (hs.bind fun n v _ => reads_inTurn he n 0 (p + v.length)).congr fun xs w => ?_
  constructor
  · rintro ⟨n, v, w, hv, ⟨rfl, hw⟩, rfl⟩
    exact ⟨v, w, hv, hw, rfl⟩
  · rintro ⟨v, w, hv, hw, rfl⟩
    exact ⟨_, v, w, hv, ⟨rfl, hw⟩, rfl⟩

end TxScope.CompactSize
