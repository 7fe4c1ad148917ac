import TxScope.Proofs.Recorder
import TxScope.Proofs.Sizes

/-!
# Forged counts

The number of elements that a transaction declares comes from its bytes and may be forged. But each
element takes its smallest number of bytes or more (`Reads.takes`), and so the bytes that remain
bound the rounds of the loop, whatever was declared. The room made in advance is enough for what is
read, so the buffer never makes more, and a loop that reads all its elements had room for just as
many (`harmless_counted`).

Every loop in the reading of a byte string is of this kind, and the loops of a transaction are the
ones of its inputs, its outputs and its witnesses (`records_read`). The bytes of a transaction are
no fewer than its elements take (`Layout.Spells.minimum_le`).
-/

namespace TxScope

open CompactSize Reader

/-! ## The smallest words -/

theorem Spelling.Each.sum_le {α : Type} {F : Spelling α} {size : α → Nat}
    (hF : ∀ x w, F x w → size x ≤ w.length) {xs : List α} {w : Bytes} (h : F.Each xs w) :
    (xs.map size).sum ≤ w.length := by
  induction h with
  | nil => exact Nat.le_refl 0
  | cons hv _ ih =>
    rw [List.map_cons, List.sum_cons, List.length_append]
    exact Nat.add_le_add (hF _ _ hv) ih

theorem CompactSize.SpellsCounted.sum_lt {α : Type} {F : Spelling α} {size : α → Nat}
    (hF : ∀ x w, F x w → size x ≤ w.length) {xs : List α} {w : Bytes} (h : SpellsCounted F xs w) :
    1 + (xs.map size).sum ≤ w.length := by
  obtain ⟨count, words, hcount, hwords, rfl⟩ := h
  rw [List.length_append]
  exact Nat.add_le_add hcount.length_pos (hwords.sum_le hF)

theorem CompactSize.SpellsPrefixed.length_ge {bs w : Bytes} (h : SpellsPrefixed bs w) :
    1 + bs.length ≤ w.length := by
  obtain ⟨size, hsize, rfl⟩ := h
  rw [List.length_append]
  exact Nat.add_le_add_right hsize.length_pos bs.length

theorem Input.Spells.length_ge {i : Input} {w : Bytes} (h : i.Spells w) : 41 ≤ w.length := by
  obtain ⟨script, hscript, rfl⟩ := h
  have hlen := hscript.length_ge
  simp only [List.length_append, i.prevHash.size_eq, toLittleEndian_length]
  omega

theorem Output.Spells.length_ge {o : Output} {w : Bytes} (h : o.Spells w) : 9 ≤ w.length := by
  obtain ⟨script, hscript, rfl⟩ := h
  have hlen := hscript.length_ge
  simp only [List.length_append, toLittleEndian_length]
  omega

theorem Input.SpellsWitness.length_ge {i : Input} {w : Bytes} (h : i.SpellsWitness w) :
    1 + (i.witness.length + (i.witness.map List.length).sum) ≤ w.length := by
  have hsum := SpellsCounted.sum_lt (fun _ _ hitem => SpellsPrefixed.length_ge hitem) h
  rw [List.sum_map_add] at hsum
  simpa using hsum

namespace Layout

variable {l : Layout} {tx : Transaction}

theorem SpellsFields.length_inputs_ge (h : l.SpellsFields tx) :
    1 + 41 * tx.inputs.length ≤ l.inputs.length := by
  have hsum := SpellsCounted.sum_lt (fun _ _ hi => Input.Spells.length_ge hi) h.inputs
  simpa [Nat.mul_comm] using hsum

theorem SpellsFields.length_outputs_ge (h : l.SpellsFields tx) :
    1 + 9 * tx.outputs.length ≤ l.outputs.length := by
  have hsum := SpellsCounted.sum_lt (fun _ _ ho => Output.Spells.length_ge ho) h.outputs
  simpa [Nat.mul_comm] using hsum

theorem SpellsFields.length_witnesses_ge (h : l.SpellsFields tx) (hw : tx.hasWitness = true) :
    (tx.inputs.map fun i => 1 + i.witness.length).sum + tx.witnessBytes ≤ l.witnesses.length := by
  have heach := h.witnesses
  rw [hw, if_pos rfl] at heach
  have hsum := heach.sum_le fun _ _ hi => Input.SpellsWitness.length_ge hi
  simp only [← Nat.add_assoc, List.sum_map_add] at hsum ⊢
  rw [Transaction.witnessBytes_eq]
  omega

/-- The bytes are no fewer than the elements take at least. -/
theorem Spells.minimum_le (h : l.Spells tx) :
    10 + 41 * tx.inputs.length + 9 * tx.outputs.length ≤ l.bytes.length ∧
    (tx.hasWitness = true → 12 + 41 * tx.inputs.length + 9 * tx.outputs.length +
      (tx.inputs.map fun i => 1 + i.witness.length).sum + tx.witnessBytes ≤ l.bytes.length) := by
  have hin := h.length_inputs_ge
  have hout := h.length_outputs_ge
  rw [h.length_eq, Layout.body, List.length_append]
  refine ⟨by omega, fun hw => ?_⟩
  have hwit := h.length_witnesses_ge hw
  have hmarker : l.marker.length = 2 := by
    rw [h.marker, hw]
    rfl
  omega

end Layout

/-! ## What the rounds of a loop do -/

/-- The reader passes over at least `smallest` bytes when it succeeds. -/
def Reader.Takes {ε α : Type} (smallest : Nat) (read : Reader ε α) : Prop :=
  ∀ {c x c'}, read c = (.ok x, c') → ∃ n, smallest ≤ n ∧ n ≤ c.remaining ∧ c' = c.advance n

theorem Reader.Reads.takes {ε α : Type} [Shortage ε] {read : Reader ε α} {F : Spelling α}
    {smallest : Nat} (h : Reads read F) (hF : ∀ x w, F x w → smallest ≤ w.length) :
    Takes smallest read := by
  intro c x c' hr
  obtain ⟨w, rest, hw, hrest, rfl⟩ := (h c.position).of_ok hr
  refine ⟨w.length, hF x w hw, ?_, ?_⟩
  · rw [Cursor.remaining, hrest, List.length_append]
    exact Nat.le_add_right _ _
  · rw [Cursor.advance, hrest, List.drop_left]

/-- The rounds of a loop from a cursor on, when `count` elements are still to be read. Each round
reads an element and passes over at least `smallest` bytes, and the next begins where it ends; a
round that fails is the last one. -/
inductive Rounds (smallest : Nat) : (count : Nat) → Cursor → List Round → (completed : Bool) → Prop
  | done (c : Cursor) : Rounds smallest 0 c [] true
  | failed {count : Nat} (c c' : Cursor) : Rounds smallest (count + 1) c [⟨c, c', false⟩] false
  | read {count n : Nat} {c : Cursor} {rounds : List Round} {completed : Bool} :
    smallest ≤ n → n ≤ c.remaining → Rounds smallest count (c.advance n) rounds completed →
    Rounds smallest (count + 1) c (⟨c, c.advance n, true⟩ :: rounds) completed

theorem Cursor.remaining_advance (c : Cursor) (n : Nat) :
    (c.advance n).remaining = c.remaining - n := by
  simp [advance, remaining]

namespace Rounds

variable {smallest count : Nat} {c : Cursor} {rounds : List Round} {completed : Bool}

theorem advances (h : Rounds smallest count c rounds completed) :
    ∀ r ∈ rounds, r.succeeded = false ∨ r.before.position + smallest ≤ r.after.position := by
  induction h with
  | done c => simp
  | failed c c' => simp
  | @read count n c rounds completed hn _ _ ih =>
    rw [List.forall_mem_cons]
    exact ⟨.inr (Nat.add_le_add_left hn c.position), ih⟩

/-- The bytes bound the elements that are read, and one round more may fail. -/
theorem elements (h : Rounds smallest count c rounds completed) :
    rounds.countP (·.succeeded) * smallest ≤ c.remaining ∧ rounds.countP (·.succeeded) ≤ count ∧
      rounds.length ≤ rounds.countP (·.succeeded) + 1 ∧
      (completed = true → rounds.countP (·.succeeded) = count ∧ rounds.length = count) := by
  induction h with
  | done c => exact ⟨by simp, Nat.le_refl 0, by simp, fun _ => ⟨rfl, rfl⟩⟩
  | failed c c' => exact ⟨by simp, by simp, by simp, nofun⟩
  | @read count n c rounds completed hn hc _ ih =>
    obtain ⟨hbytes, hcount, hlen, hdone⟩ := ih
    rw [Cursor.remaining_advance] at hbytes
    rw [List.countP_cons_of_pos rfl, List.length_cons]
    refine ⟨?_, Nat.succ_le_succ hcount, Nat.succ_le_succ hlen, fun hcompleted => ?_⟩
    · rw [Nat.succ_mul]
      omega
    · obtain ⟨hread, hlen'⟩ := hdone hcompleted
      exact ⟨congrArg Nat.succ hread, congrArg Nat.succ hlen'⟩

end Rounds

/-- The bytes of the smallest element. -/
def LoopSite.smallest : LoopSite → Nat
  | .inputs => 41
  | .outputs => 9
  | .witness _ => 1

/-- The room that is made for the elements of a loop is no more than the bytes hold and is never
made again, the bytes bound the rounds, and a loop that reads all its elements had room for just as
many. -/
structure CountedLoop.Harmless (l : CountedLoop) : Prop where
  count_lt : l.count < 2 ^ 64
  smallest_eq : l.smallest = l.site.smallest
  room_le : l.room ≤ l.count
  room_mul_le : l.room * l.smallest ≤ l.start.remaining
  finalRoom_eq : l.finalRoom = l.room
  rounds : Rounds l.smallest l.count l.start l.rounds l.completed
  advances : ∀ r ∈ l.rounds, r.succeeded = false ∨
    r.before.position + l.smallest ≤ r.after.position
  length_rounds_le : l.rounds.length ≤ l.start.remaining / l.smallest + 1
  length_rounds_eq : l.completed = true → l.rounds.length = l.count
  room_eq : l.completed = true → l.room = l.count

theorem LoopSite.smallest_pos : ∀ site : LoopSite, 0 < site.smallest
  | .inputs => by decide
  | .outputs => by decide
  | .witness _ => Nat.one_pos

namespace Recorder

variable {ε ε' α β : Type}

theorem rounds_fill {smallest : Nat} {element : Nat → Reader ε α}
    (h : ∀ i, Takes smallest (element i)) : ∀ (count index : Nat) (buffer : Buffer α) (c : Cursor),
      Rounds smallest count c (fill element count index buffer c).rounds
        (fill element count index buffer c).failure?.isNone
  | 0, _, _, c => .done c
  | count + 1, index, buffer, c => by
    rcases hx : element index c with ⟨e | x, c'⟩
    · simp only [fill, hx]
      exact .failed c c'
    · obtain ⟨n, hn, hc, rfl⟩ := h index hx
      simp only [fill, hx]
      exact .read hn hc (rounds_fill h count (index + 1) (buffer.push x) (c.advance n))

/-- Each round that succeeds adds one element. -/
theorem size_fill (element : Nat → Reader ε α) : ∀ (count index : Nat) (buffer : Buffer α)
    (c : Cursor), (fill element count index buffer c).buffer.size =
      buffer.size + (fill element count index buffer c).rounds.countP (·.succeeded)
  | 0, _, _, _ => rfl
  | count + 1, index, buffer, c => by
    rcases hx : element index c with ⟨e | x, c'⟩
    · simp only [fill, hx]
      rfl
    · simp only [fill, hx]
      rw [size_fill element count (index + 1) (buffer.push x) c', List.countP_cons_of_pos rfl,
        Buffer.size_push]
      omega

/-- A buffer in which all elements fit makes no more room. -/
theorem room_fill (element : Nat → Reader ε α) : ∀ (count index : Nat) (buffer : Buffer α)
    (c : Cursor), (fill element count index buffer c).buffer.size ≤ buffer.room →
      (fill element count index buffer c).buffer.room = buffer.room
  | 0, _, _, _, _ => rfl
  | count + 1, index, buffer, c, h => by
    rcases hx : element index c with ⟨e | x, c'⟩
    · simp only [fill, hx]
    · simp only [fill, hx] at h ⊢
      have hsize := size_fill element count (index + 1) (buffer.push x) c'
      have hpush := Buffer.size_push buffer x
      have hroom : (buffer.push x).room = buffer.room := Buffer.room_push x (by omega)
      rw [room_fill element count (index + 1) (buffer.push x) c' (hroom ▸ h), hroom]

theorem harmless_counted {site : LoopSite} {count : Nat} {element : Nat → Reader ε α}
    (hcount : count < 2 ^ 64) (h : ∀ i, Takes site.smallest (element i)) (c : Cursor) :
    ∀ l ∈ (counted site count site.smallest element c).2, l.Harmless := by
  have hrounds := rounds_fill h count 0 (Buffer.reserve (roomFor count c.remaining site.smallest)) c
  obtain ⟨hbytes, hread, hlen, hdone⟩ := hrounds.elements
  have hfit := (Nat.le_div_iff_mul_le site.smallest_pos).2 hbytes
  have hroom := Buffer.room_reserve (α := α) (roomFor count c.remaining site.smallest)
  refine List.forall_mem_singleton.2 {
    count_lt := hcount
    smallest_eq := rfl
    room_le := hroom.trans_le (Nat.min_le_left _ _)
    room_mul_le := (Nat.mul_le_mul_right _ (hroom.trans_le (Nat.min_le_right _ _))).trans
      (Nat.div_mul_le_self _ _)
    finalRoom_eq := room_fill element count 0 _ c ?_
    rounds := hrounds
    advances := hrounds.advances
    length_rounds_le := hlen.trans (Nat.succ_le_succ hfit)
    length_rounds_eq := fun hcompleted => (hdone hcompleted).2
    room_eq := fun hcompleted => hroom.trans (Nat.min_eq_left ((hdone hcompleted).1 ▸ hfit)) }
  rw [size_fill, Buffer.room_reserve]
  exact (Nat.zero_add _).trans_le (Nat.le_min.2 ⟨hread, hfit⟩)

end Recorder

/-! ## The loops of a transaction -/

/-- What a loop is for, how many elements were declared, and whether all of them were read. -/
abbrev Heading := LoopSite × Nat × Bool

def CountedLoop.heading (l : CountedLoop) : Heading := (l.site, l.count, l.completed)

/-- The loops of the witnesses. The first input has number `index`. -/
def Input.witnessHeadings (index : Nat) (is : List Input) : List Heading :=
  (is.zipIdx index).map fun p => (.witness p.2, p.1.witness.length, true)

def Transaction.loopHeadings (tx : Transaction) : List Heading :=
  (.inputs, tx.inputs.length, true) :: (.outputs, tx.outputs.length, true) ::
    if tx.hasWitness then Input.witnessHeadings 0 tx.inputs else []

namespace Recorder

variable {ε α β : Type}

/-- Every loop in the read is harmless, and when the read succeeds `H` says which there were. -/
structure Records (read : Recorder ε α) (H : α → List Heading → Prop) : Prop where
  harmless : ∀ c, ∀ l ∈ (read c).2, l.Harmless
  headings : ∀ {c x c'}, (read c).1 = (.ok x, c') → H x ((read c).2.map CountedLoop.heading)

section Laws

variable {read : Recorder ε α} {H H' : α → List Heading → Prop}

theorem Records.mono (h : Records read H) (hH : ∀ x hs, H x hs → H' x hs) : Records read H' where
  harmless := h.harmless
  headings hx := hH _ _ (h.headings hx)

theorem records_pure (x : α) : Records (pure x : Recorder ε α) fun y hs => y = x ∧ hs = [] where
  harmless _ := List.forall_mem_nil _
  headings hy := by
    cases hy
    exact ⟨rfl, rfl⟩

theorem records_lift {read : Reader ε α} {P : α → Prop}
    (h : ∀ {c x c'}, read c = (.ok x, c') → P x) :
    Records (liftM read : Recorder ε α) fun x hs => P x ∧ hs = [] where
  harmless _ := List.forall_mem_nil _
  headings hx := ⟨h hx, rfl⟩

theorem Records.during {read : Recorder Truncated α} (h : Records read H) (stage : Stage) :
    Records (read.during stage) H where
  harmless := h.harmless
  headings {c x c'} hx := by
    have hok : read.plain c = (.ok x, c') := by
      simp only [Recorder.during, Recorder.mapError, Reader.mapError] at hx
      split at hx
      · rename_i hread
        cases hx
        exact hread
      · cases hx
    exact h.headings hok

theorem Records.bind {next : α → Recorder ε β} {G : α → β → List Heading → Prop}
    (hr : Records read H) (hn : ∀ x hs, H x hs → Records (next x) (G x)) :
    Records (read >>= next) fun y hs =>
      ∃ x hs₁ hs₂, H x hs₁ ∧ G x y hs₂ ∧ hs = hs₁ ++ hs₂ where
  harmless c l hl := by
    rcases h : (read c).1 with ⟨e | x, c'⟩
    · rw [bind_error h] at hl
      exact hr.harmless c l hl
    · rw [bind_ok h] at hl
      rcases List.mem_append.1 hl with hl | hl
      · exact hr.harmless c l hl
      · exact (hn x _ (hr.headings h)).harmless c' l hl
  headings {c y c'} hy := by
    rcases h : (read c).1 with ⟨e | x, c₁⟩
    · rw [bind_error h] at hy
      cases hy
    · rw [bind_ok h] at hy ⊢
      exact ⟨x, _, _, hr.headings h, (hn x _ (hr.headings h)).headings hy, List.map_append⟩

/-- A plain read in front runs no loops. -/
theorem records_behind {read : Reader ε α} {next : α → Recorder ε β}
    {G : α → β → List Heading → Prop} (hn : ∀ x, Records (next x) (G x)) :
    Records ((liftM read : Recorder ε α) >>= next) fun y hs => ∃ x, G x y hs := by
  refine ((records_lift fun _ => trivial).bind fun x _ _ => hn x).mono ?_
  rintro y _ ⟨x, _, hs, ⟨-, rfl⟩, hG, rfl⟩
  exact ⟨x, hG⟩

end Laws

theorem Filled.failure?_of_ok {f : Filled ε α} {xs : List α} (h : f.outcome = .ok xs) :
    f.failure? = none := by
  unfold Filled.outcome at h
  split at h
  · cases h
  · assumption

section Declared

variable [Shortage ε] {site : LoopSite} {element : Nat → Reader ε α} {F : Spelling α}

theorem records_counted {count : Nat} (hcount : count < 2 ^ 64) (he : ∀ i, Reads (element i) F)
    (hF : ∀ x w, F x w → site.smallest ≤ w.length) :
    Records (counted site count site.smallest element) fun xs hs =>
      hs = [(site, xs.length, true)] where
  harmless := harmless_counted hcount fun i => (he i).takes hF
  headings {c xs c'} h := by
    have hread : inTurn element count 0 c = (.ok xs, c') := by
      rw [← plain_counted site count site.smallest element]
      exact h
    obtain ⟨w, rest, ⟨hlen, -⟩, -⟩ := (reads_inTurn he count 0 c.position).of_ok hread
    have hdone := Filled.failure?_of_ok (congrArg Prod.fst h)
    simp only [counted, List.map_cons, List.map_nil, CountedLoop.heading, hdone, hlen,
      Option.isNone_none]

/-- A declared number and the loop that it starts. -/
theorem records_declared {size : Reader ε Nat} (hsize : Reads size Spells)
    (he : ∀ i, Reads (element i) F) (hF : ∀ x w, F x w → site.smallest ≤ w.length) :
    Records ((liftM size : Recorder ε Nat) >>= fun count =>
      counted site count site.smallest element) fun xs hs => hs = [(site, xs.length, true)] := by
  refine ((records_lift (lt_of_read hsize)).bind fun n _ hn =>
    records_counted hn.1 he hF).mono ?_
  rintro xs _ ⟨n, _, hs, ⟨-, rfl⟩, hhs, rfl⟩
  exact hhs

end Declared

end Recorder

open Recorder

theorem Input.records_readWitness (input : Nat) : Records (readWitness input) fun items hs =>
    hs = [(.witness input, items.length, true)] :=
  records_declared CompactSize.reads_read (fun _ => reads_readPrefixed) fun _ _ hitem =>
    (Nat.le_add_right _ _).trans hitem.length_ge

theorem Input.records_readWitnesses : ∀ (index : Nat) (bare : List Input),
    Records (readWitnesses index bare) fun is hs =>
      is.length = bare.length ∧ hs = witnessHeadings index is
  | index, [] => (records_pure []).mono fun is hs h => by
    obtain ⟨rfl, rfl⟩ := h
    exact ⟨rfl, rfl⟩
  | index, i :: bare => by
    refine (((records_readWitness index).during _).bind fun witness _ _ =>
      (records_readWitnesses (index + 1) bare).bind fun is _ _ => records_pure _).mono ?_
    rintro _ _ ⟨witness, _, _, rfl, ⟨is, _, _, ⟨hlen, rfl⟩, ⟨rfl, rfl⟩, rfl⟩, rfl⟩
    exact ⟨congrArg Nat.succ hlen, by simp [witnessHeadings, List.zipIdx_cons]⟩

namespace Transaction

theorem records_readInputs : Records readInputs fun is hs =>
    hs = [(.inputs, is.length, true)] :=
  records_declared (CompactSize.reads_read.during _) (fun _ => Input.reads_read.during _)
    fun _ _ hi => hi.1.length_ge

theorem records_readOutputs : Records readOutputs fun os hs =>
    hs = [(.outputs, os.length, true)] :=
  records_declared (CompactSize.reads_read.during _) (fun _ => Output.reads_read.during _)
    fun _ _ ho => ho.length_ge

theorem records_readAttached (hasWitness : Bool) (bare : List Input) :
    Records (readAttached hasWitness bare) fun is hs =>
      is.length = bare.length ∧ hs = if hasWitness then Input.witnessHeadings 0 is else [] := by
  cases hasWitness
  · refine (records_pure bare).mono ?_
    rintro is _ ⟨rfl, rfl⟩
    exact ⟨rfl, rfl⟩
  · exact Input.records_readWitnesses 0 bare

theorem records_read (raw : Bytes) : Records (read raw) fun tx hs => hs = tx.loopHeadings := by
  refine (records_behind fun version => records_behind fun hasWitness => records_behind fun start =>
    records_readInputs.bind fun bare _ _ => records_readOutputs.bind fun outputs _ _ =>
    records_behind fun stop => (records_readAttached hasWitness bare).bind fun inputs _ _ =>
    records_behind fun lockTime => records_pure _).mono ?_
  rintro _ _ ⟨version, hasWitness, start, bare, _, _, rfl, ⟨outputs, _, _, rfl,
    ⟨stop, inputs, _, _, ⟨hlen, rfl⟩, ⟨lockTime, rfl, rfl⟩, rfl⟩, rfl⟩, rfl⟩
  simp [loopHeadings, hlen]

theorem decodeRecorded_snd (raw : Bytes) : (decodeRecorded raw).2 =
    if raw.isEmpty then [] else (read raw (Cursor.start raw)).2 := by
  rw [decodeRecorded, apply_ite Prod.snd]
  congr 1
  rcases h : read raw (Cursor.start raw) with ⟨⟨e | tx, c⟩, loops⟩ <;> simp only

theorem harmless_of_mem {raw : Bytes} {l : CountedLoop} (hl : l ∈ (decodeRecorded raw).2) :
    l.Harmless := by
  rw [decodeRecorded_snd] at hl
  split_ifs at hl with hempty
  · cases hl
  · exact (records_read raw).harmless _ l hl

theorem headings_of_decode {raw : Bytes} {tx : Transaction} (h : decode raw = .ok tx) :
    (decodeRecorded raw).2.map CountedLoop.heading = tx.loopHeadings := by
  rw [decode_eq] at h
  split_ifs at h with hempty
  rw [decodeRecorded_snd, if_neg hempty]
  split at h
  · cases h
  · rename_i tx' c hread
    split_ifs at h with hend
    cases h
    exact (records_read raw).headings hread

/-- Decoding makes room for no more elements than the bytes hold, and no declared count makes one of
its loops longer than the bytes allow. A loop that reads all that was declared had room for just
that, and these are the loops of every transaction; so its bytes are no fewer than its elements
take. -/
theorem declared_counts_harmless (raw : Bytes) :
    (∀ l ∈ (decodeRecorded raw).2, l.Harmless) ∧
    ∀ tx, decode raw = .ok tx →
      (decodeRecorded raw).2.map CountedLoop.heading = tx.loopHeadings ∧
      10 + 41 * tx.inputs.length + 9 * tx.outputs.length ≤ raw.length ∧
      (tx.hasWitness = true → 12 + 41 * tx.inputs.length + 9 * tx.outputs.length +
        (tx.inputs.map fun i => 1 + i.witness.length).sum + tx.witnessBytes ≤ raw.length) := by
  refine ⟨fun l hl => harmless_of_mem hl, fun tx h => ?_⟩
  obtain ⟨-, l, hl, hraw⟩ := layout_of_decode h
  rw [hraw]
  exact ⟨hraw ▸ headings_of_decode h, hl.minimum_le⟩

/-- A version, and 2^64 - 1 inputs that are not there. -/
def forgedInputs : Bytes := [1, 0, 0, 0] ++ List.replicate 9 0xff

/-- For the forged inputs no room is made, and one round is run. -/
theorem declared_counts_harmless_forged :
    (∃ l ∈ (decodeRecorded forgedInputs).2, l.Harmless ∧ l.count = 2 ^ 64 - 1 ∧ l.room = 0 ∧
      l.rounds.length = 1) ∧
    decode longLengths.raw = .ok longLengths ∧ longLengths.hasWitness = true ∧
    12 + 41 + 9 + (1 + 1) + 1 ≤ longLengths.raw.length := by
  have hloop : ∃ l, (decodeRecorded forgedInputs).2 = [l] ∧ l.count = 2 ^ 64 - 1 ∧ l.room = 0 ∧
      l.rounds.length = 1 := ⟨_, rfl, rfl, rfl, rfl⟩
  have hdecode : decode longLengths.raw = .ok longLengths := rfl
  obtain ⟨l, hl, hfacts⟩ := hloop
  have hmem : l ∈ (decodeRecorded forgedInputs).2 := hl ▸ List.mem_singleton_self l
  refine ⟨⟨l, hmem, (declared_counts_harmless forgedInputs).1 l hmem, hfacts⟩, hdecode, rfl, ?_⟩
  exact ((declared_counts_harmless longLengths.raw).2 longLengths hdecode).2.2 rfl

end Transaction

end TxScope
