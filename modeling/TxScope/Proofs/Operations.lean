import Mathlib.Algebra.BigOperators.Fin
import TxScope.Proofs.Truncation

/-!
# The operations of a cursor

A `Reading` is one of the reads of a cursor with its arguments, an `Operation` a read or a look
ahead. Every read is a piece of a fixed number of bytes, a compact size, or bytes behind a compact
size (`Reading.perform_cases`), and takes exactly the words of its spelling
(`Reading.perform_eq_ok_iff`).

A read that fails leaves the cursor in its place, but for one case: where a compact size breaks off
behind its first byte, this byte stays read (`failed_read_place`).
-/

namespace TxScope

open Reader

/-- The sum of the bytes, each times the power of 256 for its place. -/
def placeValue (bs : Bytes) : Nat := ∑ i : Fin bs.length, (bs.get i).toNat * 256 ^ i.val

theorem littleEndian_eq_placeValue (bs : Bytes) : littleEndian bs = placeValue bs := by
  induction bs with
  | nil => rfl
  | cons b bs ih =>
    have hsucc : placeValue (b :: bs) = b.toNat + 256 * placeValue bs := by
      simp only [placeValue, List.length_cons]
      rw [Fin.sum_univ_succ, Finset.mul_sum]
      congr 1
      · simp
      · refine Finset.sum_congr rfl fun i _ => ?_
        change (bs.get i).toNat * 256 ^ (i.val + 1) = 256 * ((bs.get i).toNat * 256 ^ i.val)
        rw [Nat.pow_succ', Nat.mul_left_comm]
    rw [littleEndian, ih, hsucc]

/-- The number that bytes spell in an order, as a sum over their places. -/
def ByteOrder.placeValue : ByteOrder → Bytes → Nat
  | .little, bs => TxScope.placeValue bs
  | .big, bs => TxScope.placeValue bs.reverse

theorem ByteOrder.value_eq_placeValue (order : ByteOrder) (bs : Bytes) :
    order.value bs = order.placeValue bs := by
  cases order
  · exact littleEndian_eq_placeValue bs
  · exact littleEndian_eq_placeValue bs.reverse

theorem Reader.map_of_ok {ε α β : Type} {read : Reader ε α} {c c' : Cursor} {x : α} (f : α → β)
    (h : read c = (.ok x, c')) : (f <$> read) c = (.ok (f x), c') :=
  bind_ok h

theorem Reader.map_of_error {ε α β : Type} {read : Reader ε α} {c c' : Cursor} {e : ε} (f : α → β)
    (h : read c = (.error e, c')) : (f <$> read) c = (.error e, c') :=
  bind_error h

theorem Reader.map_map {ε α β γ : Type} (f : β → γ) (g : α → β) (read : Reader ε α) :
    f <$> (g <$> read) = (fun x => f (g x)) <$> read := by
  funext c
  rcases h : read c with ⟨_ | _, _⟩
  · rw [map_of_error _ h, map_of_error _ (map_of_error _ h)]
  · rw [map_of_ok _ h, map_of_ok _ (map_of_ok _ h)]

theorem Reader.mapError_of_ok {ε ε' α : Type} {read : Reader ε α} {c c' : Cursor} {x : α}
    (g : ε → ε') (h : read c = (.ok x, c')) : read.mapError g c = (.ok x, c') := by
  simp only [mapError, h]

theorem Reader.mapError_of_error {ε ε' α : Type} {read : Reader ε α} {c c' : Cursor} {e : ε}
    (g : ε → ε') (h : read c = (.error e, c')) : read.mapError g c = (.error (g e), c') := by
  simp only [mapError, h]

theorem Reader.mapError_bind {ε ε' α β : Type} (g : ε → ε') (read : Reader ε α)
    (next : α → Reader ε β) :
    (read >>= next).mapError g = read.mapError g >>= fun x => (next x).mapError g := by
  funext c
  rcases h : read c with ⟨e | x, c'⟩
  · rw [mapError_of_error g (bind_error h), bind_error (mapError_of_error g h)]
  · rw [bind_ok (mapError_of_ok g h)]
    simp only [mapError, bind_ok h]

theorem Reader.map_mapError {ε ε' α β : Type} (f : α → β) (g : ε → ε') (read : Reader ε α) :
    f <$> read.mapError g = (f <$> read).mapError g := by
  funext c
  rcases h : read c with ⟨_ | _, _⟩
  · rw [map_of_error f (mapError_of_error g h), mapError_of_error g (map_of_error f h)]
  · rw [map_of_ok f (mapError_of_ok g h), mapError_of_ok g (map_of_ok f h)]

namespace Cursor

/-- The reads, with their arguments as words of a machine. -/
inductive Reading where
  | bytes (count : UInt64)
  | number (width : UInt64) (order : ByteOrder)
  | uint8
  | uint16
  | uint32
  | int32
  | uint64
  /-- A compact size. -/
  | size
  /-- A compact size and that many bytes. -/
  | prefixed

inductive Operation where
  | read (reading : Reading)
  /-- The next bytes, without reading them. -/
  | peek (count : UInt64)

inductive Answer where
  | bytes (bs : Bytes)
  | number (n : Nat)
  | signed (n : Int)
  /-- The bytes ahead, if there are as many. -/
  | ahead (bs? : Option Bytes)

/-- The answer that is made of what a read gives. -/
def answering {α : Type} (f : α → Answer) (read : Reader Truncated α) :
    Reader NumberError Answer :=
  (f <$> read).mapError .truncated

def Reading.perform : Reading → Reader NumberError Answer
  | .bytes count => answering .bytes (Reader.bytes count.toNat)
  | .number width order => Answer.number <$> numberOf width.toNat order
  | .uint8 => answering (fun n => .number n.toNat) Reader.uint8
  | .uint16 => answering (fun n => .number n.toNat) Reader.uint16
  | .uint32 => answering (fun n => .number n.toNat) Reader.uint32
  | .int32 => answering (fun n => .signed n.toInt) Reader.int32
  | .uint64 => answering (fun n => .number n.toNat) Reader.uint64
  | .size => answering .number CompactSize.read
  | .prefixed => answering .bytes CompactSize.readPrefixed

/-- The width of the numbers that are read as a word of their own. -/
def Reading.wordWidth? : Reading → Option UInt64
  | .uint8 => some 1
  | .uint16 => some 2
  | .uint32 => some 4
  | .uint64 => some 8
  | _ => none

def Operation.perform : Operation → Reader NumberError Answer
  | .read reading => reading.perform
  | .peek count => fun c => (.ok (.ahead (c.peek count.toNat)), c)

/-- The cursor after some operations, failed ones among them. -/
def after (ops : List Operation) (c : Cursor) : Cursor := ops.foldl (fun c op => (op.perform c).2) c

/-- The words that a read takes, and the answers that they spell. -/
def Reading.Spells : Reading → Spelling Answer
  | .bytes count, a, w => a = .bytes w ∧ w.length = count.toNat
  | .number width order, a, w =>
    a = .number (order.placeValue w) ∧ w.length = width.toNat ∧ 1 ≤ w.length ∧ w.length ≤ 8
  | .uint8, a, w => a = .number (placeValue w) ∧ w.length = 1
  | .uint16, a, w => a = .number (placeValue w) ∧ w.length = 2
  | .uint32, a, w => a = .number (placeValue w) ∧ w.length = 4
  | .int32, a, w => a = .signed ((placeValue w : Int).bmod (2 ^ 32)) ∧ w.length = 4
  | .uint64, a, w => a = .number (placeValue w) ∧ w.length = 8
  | .size, a, w => ∃ n, a = .number n ∧ CompactSize.Spells n w
  | .prefixed, a, w => ∃ bs, a = .bytes bs ∧ CompactSize.SpellsPrefixed bs w

/-! ## What an answering read does -/

section Answering

variable {α : Type} {f : α → Answer} {read : Reader Truncated α} {c c' : Cursor}

theorem answering_of_ok {x : α} (h : read c = (.ok x, c')) :
    answering f read c = (.ok (f x), c') :=
  mapError_of_ok _ (map_of_ok f h)

theorem answering_of_error {t : Truncated} (h : read c = (.error t, c')) :
    answering f read c = (.error (.truncated t), c') :=
  mapError_of_error _ (map_of_error f h)

theorem answering_eq_ok_iff {a : Answer} :
    answering f read c = (.ok a, c') ↔ ∃ x, read c = (.ok x, c') ∧ a = f x := by
  rcases hread : read c with ⟨t | x, c₁⟩
  · rw [answering_of_error hread]
    simp
  · rw [answering_of_ok hread]
    simp [eq_comm, and_comm]

theorem answering_eq_error_iff {e : NumberError} :
    answering f read c = (.error e, c') ↔ ∃ t, read c = (.error t, c') ∧ e = .truncated t := by
  rcases hread : read c with ⟨t | x, c₁⟩
  · rw [answering_of_error hread]
    simp [eq_comm, and_comm]
  · rw [answering_of_ok hread]
    simp

end Answering

theorem bytes_eq_ok_iff {n : Nat} {c c' : Cursor} {bs : Bytes} :
    Reader.bytes n c = (.ok bs, c') ↔
      n ≤ c.remaining ∧ bs = c.rest.take n ∧ c' = c.advance n := by
  unfold Reader.bytes
  split_ifs with h <;> simp [h, eq_comm]

theorem bytes_eq_error_iff {n : Nat} {c c' : Cursor} {t : Truncated} :
    Reader.bytes n c = (.error t, c') ↔ ¬ n ≤ c.remaining ∧ t = c.shortage n ∧ c' = c := by
  unfold Reader.bytes
  split_ifs with h <;> simp [h, eq_comm]

/-- Two readings of a piece are one if they make the same answer of as many bytes. -/
theorem answering_map_bytes {α : Type} {n : Nat} {f : α → Answer} {g : Bytes → α}
    {v : Bytes → Answer} (h : ∀ bs : Bytes, bs.length = n → f (g bs) = v bs) :
    answering f (g <$> Reader.bytes n) = answering v (Reader.bytes n) := by
  funext c
  rcases hread : Reader.bytes n c with ⟨t | bs, c'⟩
  · rw [answering_of_error hread, answering_of_error (map_of_error g hread)]
  · obtain ⟨hle, rfl, -⟩ := bytes_eq_ok_iff.1 hread
    rw [answering_of_ok hread, answering_of_ok (map_of_ok g hread),
      h _ (List.length_take_of_le hle)]

/-! ## The reads one by one -/

theorem placeValue_lt {bs : Bytes} {n : Nat} (h : bs.length = n) : placeValue bs < 256 ^ n := by
  rw [← littleEndian_eq_placeValue, ← h]
  exact littleEndian_lt bs

theorem answering_word {α : Type} {width : Nat} {ofNat : Nat → α} {f : α → Answer}
    {v : Nat → Answer} (h : ∀ n < 256 ^ width, f (ofNat n) = v n) :
    answering f (ofNat <$> number width) =
      answering (fun bs => v (placeValue bs)) (Reader.bytes width) := by
  rw [number, map_map]
  refine answering_map_bytes fun bs hbs => ?_
  rw [littleEndian_eq_placeValue]
  exact h _ (placeValue_lt hbs)

theorem perform_of_wordWidth {r : Reading} {width : UInt64} (h : r.wordWidth? = some width) :
    r.perform = answering (fun bs => .number (placeValue bs)) (Reader.bytes width.toNat) := by
  cases r <;> cases h
  · exact answering_word fun n hn => by rw [UInt8.toNat_ofNat_of_lt' hn]
  · exact answering_word fun n hn => by rw [UInt16.toNat_ofNat_of_lt' hn]
  · exact answering_word fun n hn => by rw [UInt32.toNat_ofNat_of_lt' hn]
  · exact answering_word fun n hn => by rw [UInt64.toNat_ofNat_of_lt' hn]

theorem toInt_ofNat_toInt32 (n : Nat) : (UInt32.ofNat n).toInt32.toInt = (n : Int).bmod (2 ^ 32) :=
  BitVec.toInt_ofNat' n

theorem int32_eq_answering : Reading.int32.perform =
    answering (fun bs => .signed ((placeValue bs : Int).bmod (2 ^ 32))) (Reader.bytes 4) := by
  rw [Reading.perform, Reader.int32, Reader.uint32, map_map]
  exact answering_word (v := fun n => .signed ((n : Int).bmod (2 ^ 32)))
    fun n _ => by rw [toInt_ofNat_toInt32]

theorem numberOf_of_width {width : Nat} (order : ByteOrder) (h : 1 ≤ width ∧ width ≤ 8) :
    numberOf width order = (order.value <$> Reader.bytes width).mapError .truncated :=
  if_pos h

theorem numberOf_of_no_width {width : Nat} (order : ByteOrder) (h : ¬ (1 ≤ width ∧ width ≤ 8))
    (c : Cursor) : numberOf width order c = (.error (.invalidWidth width), c) :=
  congrFun (if_neg h) c

theorem numberOf_eq_answering {width : UInt64} {order : ByteOrder}
    (h : 1 ≤ width.toNat ∧ width.toNat ≤ 8) :
    (Reading.number width order).perform =
      answering (fun bs => .number (order.placeValue bs)) (Reader.bytes width.toNat) := by
  rw [Reading.perform, numberOf_of_width order h, map_mapError]
  exact answering_map_bytes fun bs _ => by rw [order.value_eq_placeValue]

/-- A read is a piece of a fixed number of bytes, or a compact size, with bytes behind it or not. A
number whose width is refused is read in no way. -/
theorem Reading.perform_cases (r : Reading) :
    (∃ n v, r.perform = answering v (Reader.bytes n) ∧
      ∀ a w, r.Spells a w ↔ a = v w ∧ w.length = n) ∨
    (∃ width order, r = .number width order ∧ ¬ (1 ≤ width.toNat ∧ width.toNat ≤ 8)) ∨
    r = .size ∨ r = .prefixed := by
  cases r with
  | bytes count => exact .inl ⟨_, _, rfl, fun a w => Iff.rfl⟩
  | number width order =>
    by_cases h : 1 ≤ width.toNat ∧ width.toNat ≤ 8
    · refine .inl ⟨_, _, numberOf_eq_answering h, fun a w => ?_⟩
      exact ⟨fun ⟨ha, hw, _⟩ => ⟨ha, hw⟩, fun ⟨ha, hw⟩ => ⟨ha, hw, by omega, by omega⟩⟩
    · exact .inr (.inl ⟨width, order, rfl, h⟩)
  | uint8 | uint16 | uint32 | uint64 =>
    exact .inl ⟨_, _, perform_of_wordWidth rfl, fun a w => Iff.rfl⟩
  | int32 => exact .inl ⟨_, _, int32_eq_answering, fun a w => Iff.rfl⟩
  | size => exact .inr (.inr (.inl rfl))
  | prefixed => exact .inr (.inr (.inr rfl))

theorem perform_of_no_width {width : UInt64} (order : ByteOrder)
    (h : ¬ (1 ≤ width.toNat ∧ width.toNat ≤ 8)) (c : Cursor) :
    (Reading.number width order).perform c = (.error (.invalidWidth width.toNat), c) :=
  map_of_error _ (numberOf_of_no_width order h c)

/-! ## Words and shortages -/

theorem Reads.eq_ok_iff {ε α : Type} [Shortage ε] {read : Reader ε α} {F : Spelling α}
    (h : Reads read F) {c c' : Cursor} {x : α} : read c = (.ok x, c') ↔
      ∃ w rest, F x w ∧ c.rest = w ++ rest ∧ c' = ⟨c.position + w.length, rest⟩ := by
  constructor
  · intro hr
    exact (h c.position).of_ok hr
  · rintro ⟨w, rest, hw, hrest, rfl⟩
    rw [← (h c.position).whole hw rest, ← hrest]

theorem answering_reads {α : Type} {read : Reader Truncated α} {F : Spelling α}
    (h : Reads read F) (f : α → Answer) {c c' : Cursor} {a : Answer} :
    answering f read c = (.ok a, c') ↔ ∃ w rest, (∃ x, a = f x ∧ F x w) ∧ c.rest = w ++ rest ∧
      c' = ⟨c.position + w.length, rest⟩ := by
  rw [answering_eq_ok_iff]
  constructor
  · rintro ⟨x, hx, rfl⟩
    obtain ⟨w, rest, hw, hrest, hc⟩ := (Reads.eq_ok_iff h).1 hx
    exact ⟨w, rest, ⟨x, rfl, hw⟩, hrest, hc⟩
  · rintro ⟨w, rest, ⟨x, rfl, hw⟩, hrest, hc⟩
    exact ⟨x, (Reads.eq_ok_iff h).2 ⟨w, rest, hw, hrest, hc⟩, rfl⟩

/-- A read succeeds on the words of its spelling, whatever follows, and on nothing else. -/
theorem Reading.perform_eq_ok_iff (r : Reading) {c c' : Cursor} {a : Answer} :
    r.perform c = (.ok a, c') ↔ ∃ w rest, r.Spells a w ∧ c.rest = w ++ rest ∧
      c' = ⟨c.position + w.length, rest⟩ := by
  rcases r.perform_cases with ⟨n, v, hr, hs⟩ | ⟨width, order, rfl, hw⟩ | rfl | rfl
  · rw [hr, answering_reads (reads_bytes n)]
    refine exists_congr fun w => exists_congr fun rest => and_congr_left fun _ => ?_
    rw [hs]
    constructor
    · rintro ⟨bs, ha, rfl, hw⟩
      exact ⟨ha, hw⟩
    · rintro ⟨ha, hw⟩
      exact ⟨w, ha, rfl, hw⟩
  · rw [perform_of_no_width order hw]
    simp only [Prod.mk.injEq, reduceCtorEq, false_and, false_iff]
    rintro ⟨w, rest, ⟨-, hlen, hle⟩, -⟩
    exact hw (by rwa [← hlen])
  · exact answering_reads CompactSize.reads_read Answer.number
  · exact answering_reads CompactSize.reads_readPrefixed Answer.bytes

theorem Refuses.total {α : Type} {read : Reader Truncated α} (h : Refuses read) {c c' : Cursor}
    {t : Truncated} (hr : read c = (.error t, c')) :
    t.offset + t.remaining = c.position + c.remaining ∧ t.remaining < t.needed := by
  obtain ⟨say, before, rest, t', -, ⟨rfl, -⟩, rfl, -, hex⟩ := (h c.position).exact hr
  exact ⟨hex.total, hex.lacking⟩

/-- A read fails for want of bytes, with an exact report, or for a width that is none. -/
theorem Reading.perform_eq_error (r : Reading) {c c' : Cursor} {e : NumberError}
    (h : r.perform c = (.error e, c')) :
    (∃ t, e = .truncated t ∧ t.offset + t.remaining = c.position + c.remaining ∧
      t.remaining < t.needed) ∨
    ∃ width order, r = .number width order ∧ ¬ (1 ≤ width.toNat ∧ width.toNat ≤ 8) ∧
      e = .invalidWidth width.toNat := by
  have hshort : ∀ {α : Type} {f : α → Answer} {read : Reader Truncated α}, Refuses read →
      answering f read c = (.error e, c') → ∃ t, e = .truncated t ∧
        t.offset + t.remaining = c.position + c.remaining ∧ t.remaining < t.needed := by
    intro α f read hread herr
    obtain ⟨t, ht, rfl⟩ := answering_eq_error_iff.1 herr
    exact ⟨t, rfl, Refuses.total hread ht⟩
  rcases r.perform_cases with ⟨n, v, hr, -⟩ | ⟨width, order, rfl, hw⟩ | rfl | rfl
  · rw [hr] at h
    exact .inl (hshort (refuses_bytes n) h)
  · rw [perform_of_no_width order hw] at h
    cases h
    exact .inr ⟨width, order, rfl, hw, rfl⟩
  · exact .inl (hshort CompactSize.refuses_read h)
  · exact .inl (hshort CompactSize.refuses_readPrefixed h)

/-! ## The place of a failed read -/

/-- The first byte of a compact size calls for more bytes than there are. -/
def SizeBrokenOff (c : Cursor) : Prop :=
  ∃ first rest, c.rest = first :: rest ∧ rest.length < CompactSize.payloadWidth first

/-- The first byte of a size is all of it, or a marker with enough bytes behind it or too few. -/
theorem size_cases (c : Cursor) :
    (¬ SizeBrokenOff c ∧ ∃ t, CompactSize.read c = (.error t, c)) ∨
    (SizeBrokenOff c ∧ ∃ t, CompactSize.read c = (.error t, c.advance 1)) ∨
    (¬ SizeBrokenOff c ∧ ∃ n c', CompactSize.read c = (.ok n, c')) := by
  obtain ⟨p, bs⟩ := c
  rcases bs with _ | ⟨first, rest⟩
  · refine .inl ⟨?_, _, bind_error (map_of_error _ (map_of_error _ (if_neg ?_)))⟩
    · rintro ⟨first, rest, h, -⟩
      cases h
    · simp [remaining]
  · have hfirst : Reader.uint8 ⟨p, first :: rest⟩ = (.ok first, ⟨p + 1, rest⟩) :=
      (reads_uint8 p).whole rfl rest
    have hbroken : SizeBrokenOff ⟨p, first :: rest⟩ ↔
        rest.length < CompactSize.payloadWidth first := by
      simp [SizeBrokenOff]
    have hread : CompactSize.read ⟨p, first :: rest⟩ = (if CompactSize.payloadWidth first = 0 then
        pure first.toNat else number (CompactSize.payloadWidth first)) ⟨p + 1, rest⟩ :=
      bind_ok hfirst
    rw [hbroken, hread]
    by_cases hzero : CompactSize.payloadWidth first = 0
    · rw [if_pos hzero]
      exact .inr (.inr ⟨by omega, _, _, rfl⟩)
    · rw [if_neg hzero]
      by_cases hle : CompactSize.payloadWidth first ≤ rest.length
      · exact .inr (.inr ⟨by omega, _, _, map_of_ok _ (if_pos hle)⟩)
      · exact .inr (.inl ⟨by omega, _, map_of_error _ (if_neg hle)⟩)

theorem perform_of_size_error {r : Reading} (hr : r = .size ∨ r = .prefixed) {c c' : Cursor}
    {t : Truncated} (h : CompactSize.read c = (.error t, c')) :
    r.perform c = (.error (.truncated t), c') := by
  rcases hr with rfl | rfl
  · exact answering_of_error h
  · exact answering_of_error (by simp only [CompactSize.readPrefixed, h])

theorem place_of_size_ok {r : Reading} (hr : r = .size ∨ r = .prefixed) {c c₁ c' : Cursor}
    {n : Nat} {e : NumberError} (h : CompactSize.read c = (.ok n, c₁))
    (hfail : r.perform c = (.error e, c')) : c' = c := by
  rcases hr with rfl | rfl <;> obtain ⟨t, ht, -⟩ := answering_eq_error_iff.1 hfail
  · rw [h] at ht
    cases ht
  · simp only [CompactSize.readPrefixed, h] at ht
    split at ht <;> cases ht
    rfl

/-- A failed read of a compact size, with bytes behind it or not, stands behind the first byte of
the size if this breaks off there, and in its place if not. -/
theorem failed_size_place {r : Reading} (hr : r = .size ∨ r = .prefixed) {c c' : Cursor}
    {e : NumberError} (h : r.perform c = (.error e, c')) :
    (SizeBrokenOff c ∧ c' = c.advance 1) ∨ (¬ SizeBrokenOff c ∧ c' = c) := by
  rcases size_cases c with ⟨hb, t, hread⟩ | ⟨hb, t, hread⟩ | ⟨hb, n, c₁, hread⟩
  · rw [perform_of_size_error hr hread] at h
    cases h
    exact .inr ⟨hb, rfl⟩
  · rw [perform_of_size_error hr hread] at h
    cases h
    exact .inl ⟨hb, rfl⟩
  · exact .inr ⟨hb, place_of_size_ok hr hread h⟩

/-- Where the cursor stands after a failed read. Any other read than one of a compact size stands
where it stood. -/
theorem failed_place (r : Reading) {c c' : Cursor} {e : NumberError}
    (h : r.perform c = (.error e, c')) :
    ((r = .size ∨ r = .prefixed) ∧ SizeBrokenOff c ∧ c' = c.advance 1) ∨
    (¬ ((r = .size ∨ r = .prefixed) ∧ SizeBrokenOff c) ∧ c' = c) := by
  by_cases hsize : r = .size ∨ r = .prefixed
  · rcases failed_size_place hsize h with ⟨hb, hc⟩ | ⟨hb, hc⟩
    · exact .inl ⟨hsize, hb, hc⟩
    · exact .inr ⟨fun h => hb h.2, hc⟩
  · refine .inr ⟨fun h => hsize h.1, ?_⟩
    rcases r.perform_cases with ⟨n, v, hr, -⟩ | ⟨width, order, rfl, hw⟩ | hr
    · rw [hr] at h
      obtain ⟨t, ht, -⟩ := answering_eq_error_iff.1 h
      exact (bytes_eq_error_iff.1 ht).2.2
    · rw [perform_of_no_width order hw] at h
      cases h
      rfl
    · exact absurd hr hsize

/-- A failed read leaves position and remaining bytes as they were, except a read of a compact
size, with bytes behind it or not, where the size breaks off behind its first byte: that byte stays
read. -/
theorem failed_read_place (buf : Bytes) (ops : List Operation) (r : Reading) {c' : Cursor}
    {e : NumberError} (h : r.perform (after ops (start buf)) = (.error e, c')) :
    (¬ ((r = .size ∨ r = .prefixed) ∧ SizeBrokenOff (after ops (start buf))) →
      c'.position = (after ops (start buf)).position ∧
      c'.remaining = (after ops (start buf)).remaining) ∧
    ((r = .size ∨ r = .prefixed) ∧ SizeBrokenOff (after ops (start buf)) →
      c'.position = (after ops (start buf)).position + 1 ∧
      c'.remaining + 1 = (after ops (start buf)).remaining) := by
  rcases failed_place r h with ⟨hsize, hb, rfl⟩ | ⟨hkeep, rfl⟩
  · refine ⟨fun hkeep => absurd ⟨hsize, hb⟩ hkeep, fun _ => ⟨rfl, ?_⟩⟩
    obtain ⟨first, rest, hrest, -⟩ := hb
    simp [remaining, advance, hrest]
  · exact ⟨fun _ => ⟨rfl, rfl⟩, fun hbroken => absurd hbroken hkeep⟩

/-- Behind a byte that was read stands a length of five and one more byte: the cursor goes back. -/
theorem failed_read_place_payload :
    Reading.prefixed.perform (after [.read .uint8] (start [0x00, 0x05, 0x01])) =
      (.error (.truncated ⟨2, 5, 1⟩), ⟨1, [0x05, 0x01]⟩) ∧
    (⟨1, [0x05, 0x01]⟩ : Cursor).position =
      (after [.read .uint8] (start [0x00, 0x05, 0x01])).position ∧
    (⟨1, [0x05, 0x01]⟩ : Cursor).remaining =
      (after [.read .uint8] (start [0x00, 0x05, 0x01])).remaining := by
  have h : Reading.prefixed.perform (after [.read .uint8] (start [0x00, 0x05, 0x01])) =
      (.error (.truncated ⟨2, 5, 1⟩), ⟨1, [0x05, 0x01]⟩) := rfl
  have hwhole : ¬ SizeBrokenOff (after [.read .uint8] (start [0x00, 0x05, 0x01])) := by
    rintro ⟨first, rest, hrest, hlt⟩
    cases hrest
    exact absurd hlt (by decide)
  exact ⟨h, (failed_read_place [0x00, 0x05, 0x01] [.read .uint8] .prefixed h).1 fun hb =>
    hwhole hb.2⟩

/-- A compact size of which only the marker and one of two bytes are there leaves the cursor behind
the marker. -/
theorem failed_size_moves : ¬ ∀ (buf : Bytes) (ops : List Operation) (r : Reading) (c' : Cursor)
    (e : NumberError), r.perform (after ops (start buf)) = (.error e, c') →
      c'.position = (after ops (start buf)).position ∧
      c'.remaining = (after ops (start buf)).remaining := by
  intro h
  have hmoved := h [0xfd, 0x01] [] .size ⟨1, [0x01]⟩ (.truncated ⟨1, 2, 1⟩) rfl
  exact absurd hmoved.1 (by decide)

end Cursor

end TxScope
