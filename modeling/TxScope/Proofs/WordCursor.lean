import TxScope.Proofs.Operations

/-!
# A cursor made of words

A machine keeps a cursor as the whole buffer and a word for the position. It adds and subtracts
words and cuts slices out of the buffer; where a sum is no word, a difference is below zero or a
slice leaves the buffer, it has no outcome. In a buffer whose length is a word this does not happen:
each operation has an outcome, and it is the one of the cursor that the machine stands for
(`follows_perform`).
-/

namespace TxScope

open Cursor (Reading Operation Answer answering)
open Reader (mapError mapError_of_ok mapError_of_error map_mapError)

structure WordCursor where
  buffer : Bytes
  position : UInt64

namespace WordCursor

/-! ## Arithmetic and slices that may have no outcome -/

def sum? (m n : UInt64) : Option UInt64 := if m.toNat + n.toNat < 2 ^ 64 then some (m + n) else none

def difference? (m n : UInt64) : Option UInt64 := if n ≤ m then some (m - n) else none

/-- The bytes from offset `start` up to, and without, offset `stop`. -/
def slice? (bs : Bytes) (start stop : UInt64) : Option Bytes :=
  if start ≤ stop ∧ stop.toNat ≤ bs.length then some (slice bs start.toNat stop.toNat) else none

/-! ## Operations -/

/-- An operation on words, with what it gives or why it gives nothing. -/
def Step (α : Type) := WordCursor → Option (Except NumberError α × WordCursor)

instance : Monad Step where
  pure x := fun m => some (.ok x, m)
  bind step next := fun m =>
    match step m with
    | some (.ok x, m') => next x m'
    | some (.error e, m') => some (.error e, m')
    | none => none

def refuse {α : Type} (e : NumberError) : Step α := fun m => some (.error e, m)

def remaining? (m : WordCursor) : Option UInt64 :=
  difference? (UInt64.ofNat m.buffer.length) m.position

def bytes (count : UInt64) : Step Bytes := fun m => do
  let left ← m.remaining?
  if left < count then
    return (.error (.truncated ⟨m.position.toNat, count.toNat, left.toNat⟩), m)
  else
    let stop ← sum? m.position count
    let bs ← slice? m.buffer m.position stop
    return (.ok bs, { m with position := stop })

def peek (count : UInt64) : Step (Option Bytes) := fun m => do
  let left ← m.remaining?
  if left < count then
    return (.ok none, m)
  else
    let stop ← sum? m.position count
    let bs ← slice? m.buffer m.position stop
    return (.ok (some bs), m)

/-- The bytes of a number, cut out of the slice that was read. -/
def digits (width : UInt64) : Step Bytes := do
  let bs ← bytes width
  fun m => (slice? bs 0 width).map fun ds => (.ok ds, m)

def number (width : UInt64) : Step Nat := littleEndian <$> digits width

def numberOf (width : UInt64) (order : ByteOrder) : Step Nat :=
  if 1 ≤ width ∧ width ≤ 8 then order.value <$> digits width
  else refuse (.invalidWidth width.toNat)

/-- A compact size: the first byte, and behind a marker a number of the width it calls for. -/
def size : Step Nat := do
  let first ← UInt8.ofNat <$> number 1
  if first = 0xfd then number 2
  else if first = 0xfe then number 4
  else if first = 0xff then number 8
  else return first.toNat

/-- A compact size and that many bytes. -/
def prefixed : Step Bytes := fun m =>
  match size m with
  | some (.ok count, m') =>
    match bytes (UInt64.ofNat count) m' with
    | some (.error e, m'') => some (.error e, { m'' with position := m.position })
    | outcome => outcome
  | some (.error e, m') => some (.error e, m')
  | none => none

def read : Reading → Step Answer
  | .bytes count => .bytes <$> bytes count
  | .number width order => .number <$> numberOf width order
  | .uint8 => (fun n => .number (UInt8.ofNat n).toNat) <$> number 1
  | .uint16 => (fun n => .number (UInt16.ofNat n).toNat) <$> number 2
  | .uint32 => (fun n => .number (UInt32.ofNat n).toNat) <$> number 4
  | .int32 => (fun n => .signed (UInt32.ofNat n).toInt32.toInt) <$> number 4
  | .uint64 => (fun n => .number (UInt64.ofNat n).toNat) <$> number 8
  | .size => .number <$> size
  | .prefixed => .bytes <$> prefixed

def perform : Operation → Step Answer
  | .read reading => read reading
  | .peek count => .ahead <$> peek count

/-! ## The cursor that a machine stands for -/

/-- The length of the buffer is a word, and the position is inside. -/
structure InRange (m : WordCursor) : Prop where
  length_lt : m.buffer.length < 2 ^ 64
  position_le : m.position.toNat ≤ m.buffer.length

def view (m : WordCursor) : Cursor := ⟨m.position.toNat, m.buffer.drop m.position.toNat⟩

/-- In range the step has an outcome: that of the read, and it stays in range and in the buffer. -/
def Follows {α : Type} (step : Step α) (reader : Reader NumberError α) : Prop :=
  ∀ m : WordCursor, m.InRange → ∃ m', step m = some ((reader m.view).1, m') ∧
    m'.InRange ∧ m'.buffer = m.buffer ∧ m'.view = (reader m.view).2

section Laws

variable {α β : Type} {step : Step α} {reader : Reader NumberError α}

theorem follows_pure (x : α) : Follows (pure x) (pure x) := fun m hm => ⟨m, rfl, hm, rfl, rfl⟩

theorem Follows.bind {next : α → Step β} {next' : α → Reader NumberError β}
    (h : Follows step reader) (hn : ∀ x, Follows (next x) (next' x)) :
    Follows (step >>= next) (reader >>= next') := by
  intro m hm
  obtain ⟨m', hstep, hm', hbuf, hview⟩ := h m hm
  rcases hr : reader m.view with ⟨e | x, c⟩
  · rw [hr] at hstep hview
    refine ⟨m', ?_, hm', hbuf, ?_⟩
    · rw [Reader.bind_error hr]
      simp only [Bind.bind, hstep]
    · rw [Reader.bind_error hr]
      exact hview
  · rw [hr] at hstep hview
    obtain ⟨m'', hnext, hm'', hbuf', hview'⟩ := hn x m' hm'
    rw [hview] at hnext hview'
    refine ⟨m'', ?_, hm'', hbuf'.trans hbuf, ?_⟩
    · rw [Reader.bind_ok hr]
      simp only [Bind.bind, hstep, hnext]
    · rw [Reader.bind_ok hr]
      exact hview'

theorem Follows.map (h : Follows step reader) (f : α → β) : Follows (f <$> step) (f <$> reader) :=
  Follows.bind h fun x => follows_pure (f x)

end Laws

/-! ## Every step is in range -/

variable {m : WordCursor}

theorem remaining?_of_inRange (hm : m.InRange) :
    ∃ left, m.remaining? = some left ∧ left.toNat = m.view.remaining := by
  have hlen : (UInt64.ofNat m.buffer.length).toNat = m.buffer.length :=
    UInt64.toNat_ofNat_of_lt' hm.length_lt
  have hle : m.position ≤ UInt64.ofNat m.buffer.length := by
    rw [UInt64.le_iff_toNat_le, hlen]
    exact hm.position_le
  refine ⟨_, if_pos hle, ?_⟩
  rw [UInt64.toNat_sub_of_le _ _ hle, hlen]
  simp [view, Cursor.remaining]

/-- Where the bytes are there, neither the sum nor the slice leaves its range. -/
theorem slice?_of_inRange (hm : m.InRange) {count : UInt64}
    (h : count.toNat ≤ m.view.remaining) : ∃ stop, sum? m.position count = some stop ∧
      stop.toNat = m.position.toNat + count.toNat ∧ stop.toNat ≤ m.buffer.length ∧
      slice? m.buffer m.position stop = some (m.view.rest.take count.toNat) := by
  have hpos := hm.position_le
  have hsum : m.position.toNat + count.toNat ≤ m.buffer.length := by
    simp only [view, Cursor.remaining, List.length_drop] at h
    omega
  have hlt : m.position.toNat + count.toNat < 2 ^ 64 := Nat.lt_of_le_of_lt hsum hm.length_lt
  have hstop : (m.position + count).toNat = m.position.toNat + count.toNat :=
    (UInt64.toNat_add _ _).trans (Nat.mod_eq_of_lt hlt)
  refine ⟨m.position + count, if_pos hlt, hstop, hstop.trans_le hsum, ?_⟩
  rw [slice?, if_pos ⟨by rw [UInt64.le_iff_toNat_le]; omega, hstop.trans_le hsum⟩, slice, hstop,
    Nat.add_sub_cancel_left]
  rfl

theorem follows_bytes (count : UInt64) :
    Follows (bytes count) ((Reader.bytes count.toNat).mapError .truncated) := by
  intro m hm
  obtain ⟨left, hleft, hval⟩ := remaining?_of_inRange hm
  by_cases h : count.toNat ≤ m.view.remaining
  · obtain ⟨stop, hsum, hstop, hle, hslice⟩ := slice?_of_inRange hm h
    have hread : (Reader.bytes count.toNat).mapError NumberError.truncated m.view =
        (.ok (m.view.rest.take count.toNat), m.view.advance count.toNat) :=
      mapError_of_ok _ (if_pos h)
    have hlt : ¬ left < count := by
      rw [UInt64.lt_iff_toNat_lt]
      omega
    rw [hread]
    refine ⟨{ m with position := stop }, ?_, ⟨hm.length_lt, hle⟩, rfl, ?_⟩
    · simp [bytes, hleft, hlt, hsum, hslice]
    · simp [view, Cursor.advance, hstop]
  · have hread : (Reader.bytes count.toNat).mapError NumberError.truncated m.view =
        (.error (.truncated (m.view.shortage count.toNat)), m.view) :=
      mapError_of_error _ (if_neg h)
    have hlt : left < count := by
      rw [UInt64.lt_iff_toNat_lt]
      omega
    rw [hread]
    refine ⟨m, ?_, hm, rfl, rfl⟩
    simp [bytes, hleft, hlt, Cursor.shortage, hval, view]

theorem follows_peek (count : UInt64) :
    Follows (peek count) fun c => (.ok (c.peek count.toNat), c) := by
  intro m hm
  obtain ⟨left, hleft, hval⟩ := remaining?_of_inRange hm
  refine ⟨m, ?_, hm, rfl, rfl⟩
  by_cases h : count.toNat ≤ m.view.remaining
  · obtain ⟨stop, hsum, -, -, hslice⟩ := slice?_of_inRange hm h
    have hlt : ¬ left < count := by
      rw [UInt64.lt_iff_toNat_lt]
      omega
    simp [peek, hleft, hlt, hsum, hslice, Cursor.peek, h]
  · have hlt : left < count := by
      rw [UInt64.lt_iff_toNat_lt]
      omega
    simp [peek, hleft, hlt, Cursor.peek, h]

/-- The slice that was read is as long as the number that is cut out of it. -/
theorem follows_digits (width : UInt64) :
    Follows (digits width) ((Reader.bytes width.toNat).mapError .truncated) := by
  intro m hm
  obtain ⟨m', hstep, hrest⟩ := follows_bytes width m hm
  refine ⟨m', ?_, hrest⟩
  rcases hread : Reader.bytes width.toNat m.view with ⟨t | bs, c⟩
  · rw [mapError_of_error _ hread] at hstep ⊢
    simp only [digits, Bind.bind, hstep]
  · obtain ⟨hle, rfl, -⟩ := Cursor.bytes_eq_ok_iff.1 hread
    have hlen : (m.view.rest.take width.toNat).length = width.toNat := List.length_take_of_le hle
    rw [mapError_of_ok _ hread] at hstep ⊢
    have hcut : slice? (m.view.rest.take width.toNat) 0 width =
        some (m.view.rest.take width.toNat) := by
      rw [slice?, if_pos ⟨UInt64.zero_le, hlen.ge⟩, slice]
      simp
    simp only [digits, Bind.bind, hstep, hcut, Option.map_some]

theorem follows_number (width : UInt64) :
    Follows (number width) ((Reader.number width.toNat).mapError .truncated) := by
  rw [Reader.number, ← map_mapError]
  exact (follows_digits width).map littleEndian

theorem follows_numberOf (width : UInt64) (order : ByteOrder) :
    Follows (numberOf width order) (Reader.numberOf width.toNat order) := by
  have hwidth : (1 ≤ width ∧ width ≤ 8) ↔ 1 ≤ width.toNat ∧ width.toNat ≤ 8 := by
    simp only [UInt64.le_iff_toNat_le, UInt64.reduceToNat]
  by_cases h : 1 ≤ width ∧ width ≤ 8
  · rw [numberOf, if_pos h, Cursor.numberOf_of_width order (hwidth.1 h), ← map_mapError]
    exact (follows_digits width).map order.value
  · intro m hm
    rw [numberOf, if_neg h, Cursor.numberOf_of_no_width order (hwidth.not.1 h)]
    exact ⟨m, rfl, hm, rfl, rfl⟩

theorem follows_size : Follows size (CompactSize.read.mapError .truncated) := by
  have hfirst : Follows (UInt8.ofNat <$> number 1) (Reader.uint8.mapError .truncated) := by
    rw [Reader.uint8, ← map_mapError]
    exact (follows_number 1).map UInt8.ofNat
  rw [CompactSize.read, Reader.mapError_bind]
  refine hfirst.bind fun first => ?_
  unfold CompactSize.payloadWidth
  by_cases htwo : first = 0xfd
  · rw [if_pos htwo, if_pos htwo]
    exact follows_number 2
  rw [if_neg htwo, if_neg htwo]
  by_cases hfour : first = 0xfe
  · rw [if_pos hfour, if_pos hfour]
    exact follows_number 4
  rw [if_neg hfour, if_neg hfour]
  by_cases height : first = 0xff
  · rw [if_pos height, if_pos height]
    exact follows_number 8
  · rw [if_neg height, if_neg height]
    exact follows_pure first.toNat

theorem follows_prefixed : Follows prefixed (CompactSize.readPrefixed.mapError .truncated) := by
  intro m hm
  obtain ⟨m', hsize, hm', hbuf, hview⟩ := follows_size m hm
  rcases hread : CompactSize.read m.view with ⟨t | n, c⟩
  · have hpre : CompactSize.readPrefixed m.view = (.error t, c) := by
      simp only [CompactSize.readPrefixed, hread]
    rw [mapError_of_error _ hread] at hsize hview
    rw [mapError_of_error _ hpre]
    exact ⟨m', by simp only [prefixed, hsize], hm', hbuf, hview⟩
  · rw [mapError_of_ok _ hread] at hsize hview
    obtain ⟨m'', hbytes, hm'', hbuf', hview'⟩ := follows_bytes (UInt64.ofNat n) m' hm'
    have hlt := CompactSize.lt_of_read CompactSize.reads_read hread
    rw [hview, UInt64.toNat_ofNat_of_lt' hlt] at hbytes hview'
    rcases hbody : Reader.bytes n c with ⟨t | bs, c'⟩
    · have hpre : CompactSize.readPrefixed m.view = (.error t, m.view) := by
        simp only [CompactSize.readPrefixed, hread, hbody]
      rw [mapError_of_error _ hbody] at hbytes
      rw [mapError_of_error _ hpre]
      have hback : { m'' with position := m.position } = m := by
        rw [hbuf'.trans hbuf]
      exact ⟨m, by simp only [prefixed, hsize, hbytes, hback], hm, rfl, rfl⟩
    · have hpre : CompactSize.readPrefixed m.view = (.ok bs, c') := by
        simp only [CompactSize.readPrefixed, hread, hbody]
      rw [mapError_of_ok _ hbody] at hbytes hview'
      rw [mapError_of_ok _ hpre]
      exact ⟨m'', by simp only [prefixed, hsize, hbytes], hm'', hbuf'.trans hbuf, hview'⟩

theorem follows_answering {α : Type} {step : Step α} {reader : Reader Truncated α}
    (h : Follows step (reader.mapError .truncated)) (f : α → Answer) :
    Follows (f <$> step) (answering f reader) := by
  rw [answering, ← map_mapError]
  exact h.map f

/-- A number that is kept in a type of its own. -/
theorem follows_word {α : Type} (width : UInt64) (ofNat : Nat → α) (f : α → Answer) :
    Follows ((fun n => f (ofNat n)) <$> number width)
      (answering f (ofNat <$> Reader.number width.toNat)) := by
  rw [answering, Reader.map_map, ← map_mapError]
  exact (follows_number width).map _

theorem follows_read : ∀ r : Reading, Follows (read r) r.perform
  | .bytes count => follows_answering (follows_bytes count) .bytes
  | .number width order => (follows_numberOf width order).map Answer.number
  | .uint8 => follows_word 1 UInt8.ofNat fun n => .number n.toNat
  | .uint16 => follows_word 2 UInt16.ofNat fun n => .number n.toNat
  | .uint32 => follows_word 4 UInt32.ofNat fun n => .number n.toNat
  | .int32 => by
    rw [Reading.perform, Reader.int32, Reader.uint32, Reader.map_map]
    exact follows_word 4 (fun n => (UInt32.ofNat n).toInt32) fun n => .signed n.toInt
  | .uint64 => follows_word 8 UInt64.ofNat fun n => .number n.toNat
  | .size => follows_answering follows_size .number
  | .prefixed => follows_answering follows_prefixed .bytes

theorem follows_perform : ∀ op : Operation, Follows (perform op) op.perform
  | .read reading => follows_read reading
  | .peek count => (follows_peek count).map Answer.ahead

end WordCursor

end TxScope
