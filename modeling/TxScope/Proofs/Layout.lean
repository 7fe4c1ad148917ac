import TxScope.Proofs.CompactSize

/-!
# The layout of a transaction

A transaction is written as version, inputs, outputs and lock time, with a marker behind the
version and the witnesses behind the outputs if it has any (`Layout.Spells`). The layout leaves
open only in which of its forms each compact size stands.

Reading follows the layout (`Transaction.readsAt_read`). Whether a byte string has the marker is
told from the two bytes behind the version: what is written without marker must not begin like one
(`readsAt_readMarker`).
-/

namespace TxScope

open CompactSize Reader

/-- An input, its witness apart. -/
def Input.Spells : Spelling Input := fun i w => ∃ script, SpellsPrefixed i.scriptSig script ∧
  w = i.prevHash.bytes ++ toLittleEndian 4 i.prevIndex.toNat ++ script ++
    toLittleEndian 4 i.sequence.toNat

/-- The witness of an input: a stack of items. -/
def Input.SpellsWitness : Spelling Input := fun i w => SpellsCounted SpellsPrefixed i.witness w

/-- An input that has no witness, or not yet. -/
def Input.SpellsBare : Spelling Input := fun i w => i.Spells w ∧ i.witness = []

/-- The input without its witness. -/
def Input.bare (i : Input) : Input := { i with witness := [] }

theorem Input.bare_eq_iff {i j : Input} :
    j.bare = i.bare ↔ j = { i with witness := j.witness } := by
  cases i
  cases j
  simp [Input.bare]

theorem Input.map_bare_eq_self_iff {is : List Input} :
    is.map Input.bare = is ↔ ∀ i ∈ is, i.witness = [] := by
  have hself : ∀ i : Input, i.bare = i ↔ i.witness = [] := fun i => by
    cases i
    simp [Input.bare, eq_comm]
  calc is.map Input.bare = is ↔ is.map Input.bare = is.map id := by rw [List.map_id]
    _ ↔ ∀ i ∈ is, i.bare = i := List.map_inj_left
    _ ↔ ∀ i ∈ is, i.witness = [] := by simp only [hself]

def Output.Spells : Spelling Output := fun o w => ∃ script, SpellsPrefixed o.scriptPubKey script ∧
  w = toLittleEndian 8 o.value.toNat ++ script

/-- The pieces in which a transaction is written, in their order. -/
structure Layout where
  version : Bytes
  marker : Bytes
  inputs : Bytes
  outputs : Bytes
  witnesses : Bytes
  lockTime : Bytes

namespace Layout

def body (l : Layout) : Bytes := l.inputs ++ l.outputs

/-- What stands behind the version and the marker. -/
def fields (l : Layout) : Bytes := l.body ++ l.witnesses ++ l.lockTime

def bytes (l : Layout) : Bytes := l.version ++ l.marker ++ l.fields

/-- The pieces behind the marker spell the fields of the transaction. -/
structure SpellsFields (l : Layout) (tx : Transaction) : Prop where
  inputs : SpellsCounted Input.Spells tx.inputs l.inputs
  outputs : SpellsCounted Output.Spells tx.outputs l.outputs
  witnesses : if tx.hasWitness then Spelling.Each Input.SpellsWitness tx.inputs l.witnesses
    else l.witnesses = [] ∧ ∀ i ∈ tx.inputs, i.witness = []
  lockTime : l.lockTime = toLittleEndian 4 tx.lockTime.toNat

/-- The pieces spell the transaction. A version is signed, in two's complement. -/
structure Spells (l : Layout) (tx : Transaction) : Prop extends SpellsFields l tx where
  version_length : l.version.length = 4
  version : tx.version.toInt = (littleEndian l.version : Int).bmod (2 ^ 32)
  marker : l.marker = if tx.hasWitness then Transaction.witnessMarker else []
  unmarked : tx.hasWitness = false → ¬ Transaction.witnessMarker <+: l.fields
  body : tx.body = ⟨4 + l.marker.length, 4 + l.marker.length + l.body.length⟩

theorem SpellsFields.length_fields {l : Layout} {tx : Transaction} (h : l.SpellsFields tx) :
    4 ≤ l.fields.length := by
  simp only [fields, List.length_append, h.lockTime, toLittleEndian_length]
  omega

theorem Spells.bytes_ne_nil {l : Layout} {tx : Transaction} (h : l.Spells tx) : l.bytes ≠ [] := by
  intro hnil
  simp only [bytes, List.append_eq_nil_iff] at hnil
  have hlen := h.version_length
  rw [hnil.1.1] at hlen
  cases hlen

/-- Which bytes a transaction says it was read from is no matter of its layout. -/
theorem Spells.withRaw {l : Layout} {tx : Transaction} (h : l.Spells tx) (raw : Bytes) :
    l.Spells { tx with raw } where
  inputs := h.inputs
  outputs := h.outputs
  witnesses := h.witnesses
  lockTime := h.lockTime
  version_length := h.version_length
  version := h.version
  marker := h.marker
  unmarked := h.unmarked
  body := h.body

end Layout

theorem Reader.Reads.during {α : Type} {read : Reader Truncated α} {F : Spelling α}
    (h : Reads read F) (stage : Stage) : Reads (read.during stage) F := fun p =>
  (h p).mapError fun _ _ he => ⟨stage, congrArg _ he⟩

theorem Hash256.reads_read : Reads Hash256.read fun h w => w = h.bytes := by
  refine fun p => ⟨?_, fun bs => ?_⟩
  · rintro h _ rfl rest
    have hle : 32 ≤ (h.bytes ++ rest).length := by simp [h.size_eq]
    simp [Hash256.read, Cursor.remaining, Cursor.advance, h.size_eq]
  · rcases (reads_bytes 32 p).short bs with
      ⟨w, _, rest, ⟨rfl, hw⟩, rfl⟩ | ⟨⟨e, t, c, he, ht⟩, w, more, rfl, hw⟩
    · exact .inl ⟨⟨_, hw⟩, _, rest, rfl, rfl⟩
    · refine .inr ⟨⟨e, t, c, ?_, ht⟩, ⟨_, hw⟩, more, rfl⟩
      by_cases h : 32 ≤ bs.length
      · simp [Reader.bytes, Cursor.remaining, h] at he
      · simpa [Reader.bytes, Hash256.read, Cursor.remaining, h] using he

theorem Input.reads_read : Reads Input.read Input.SpellsBare := by
  intro p
  refine ((Hash256.reads_read p).bind fun hash _ _ => (reads_uint32 _).bind fun index _ _ =>
    (reads_readPrefixed _).bind fun script _ _ => (reads_uint32 _).bind fun sequence _ _ =>
    readsAt_pure _).congr fun i w => ?_
  constructor
  · rintro ⟨hash, _, _, rfl, ⟨index, _, _, rfl, ⟨script, v, _, hv, ⟨sequence, _, _, rfl,
      ⟨rfl, rfl⟩, rfl⟩, rfl⟩, rfl⟩, rfl⟩
    exact ⟨⟨v, hv, by simp⟩, rfl⟩
  · obtain ⟨hash, index, script, sequence, witness⟩ := i
    rintro ⟨⟨v, hv, rfl⟩, rfl⟩
    exact ⟨hash, _, _, rfl, ⟨index, _, _, rfl, ⟨script, v, _, hv, ⟨sequence, _, [], rfl,
      ⟨rfl, rfl⟩, rfl⟩, rfl⟩, rfl⟩, by simp⟩

theorem Output.reads_read : Reads Output.read Output.Spells := by
  intro p
  refine ((reads_uint64 p).bind fun value _ _ => (reads_readPrefixed _).bind fun script _ _ =>
    readsAt_pure _).congr fun o w => ?_
  constructor
  · rintro ⟨value, _, _, rfl, ⟨script, v, _, hv, ⟨rfl, rfl⟩, rfl⟩, rfl⟩
    exact ⟨v, hv, by simp⟩
  · obtain ⟨value, script⟩ := o
    rintro ⟨v, hv, rfl⟩
    exact ⟨value, _, _, rfl, ⟨script, v, [], hv, ⟨rfl, rfl⟩, rfl⟩, by simp⟩

theorem Input.reads_readWitness (index : Nat) :
    Reads (Input.readWitness index).plain (SpellsCounted SpellsPrefixed) := fun p => by
  rw [Input.readWitness, Recorder.plain_bind, Recorder.plain_lift]
  exact readsAt_counted (CompactSize.reads_read p) fun _ => reads_readPrefixed

theorem Input.plain_readWitnesses (index : Nat) (i : Input) (bare : List Input) :
    (Input.readWitnesses index (i :: bare)).plain =
      (Input.readWitness index).plain.during (.witness index) >>= fun witness =>
      (Input.readWitnesses (index + 1) bare).plain >>= fun is =>
      pure ({ i with witness } :: is) := by
  simp only [Input.readWitnesses, Recorder.plain_bind, Recorder.plain_during, Recorder.plain_pure]

/-- Each input keeps what it is and gets the witness that is read for it. -/
theorem Input.reads_readWitnesses : ∀ (index : Nat) (bare : List Input),
    Reads (Input.readWitnesses index bare).plain fun is w =>
      is.map Input.bare = bare.map Input.bare ∧ Spelling.Each Input.SpellsWitness is w
  | index, [] => fun p => (readsAt_pure []).congr fun is w => by
    constructor
    · rintro ⟨rfl, rfl⟩
      exact ⟨rfl, .nil⟩
    · rintro ⟨his, hw⟩
      obtain rfl := List.map_eq_nil_iff.1 his
      cases hw
      exact ⟨rfl, rfl⟩
  | index, i :: bare => fun p => by
    rw [Input.plain_readWitnesses]
    refine (((Input.reads_readWitness index).during _ p).bind fun witness v _ =>
      (Input.reads_readWitnesses (index + 1) bare (p + v.length)).bind fun is _ _ =>
      readsAt_pure ({ i with witness } :: is)).congr fun is w => ?_
    constructor
    · rintro ⟨witness, v, _, hv, ⟨is, w, _, ⟨his, hw⟩, ⟨rfl, rfl⟩, rfl⟩, rfl⟩
      refine ⟨?_, ?_⟩
      · simp only [List.map_cons, his, Input.bare]
      · rw [List.append_nil]
        exact .cons hv hw
    · rintro ⟨his, hw⟩
      cases hw with
      | nil => simp at his
      | @cons j js v w hv hw =>
        simp only [List.map_cons, List.cons.injEq] at his
        refine ⟨j.witness, v, w, hv, ⟨js, w, [], ⟨his.2, hw⟩, ⟨?_, rfl⟩, by simp⟩, rfl⟩
        rw [← Input.bare_eq_iff.1 his.1]

/-! ## The marker -/

namespace Transaction

theorem readMarker_marked (p : Nat) (rest : Bytes) :
    readMarker ⟨p, witnessMarker ++ rest⟩ = (.ok true, ⟨p + 2, rest⟩) := by
  simp [readMarker, lookingAt, Cursor.peek, Cursor.remaining, witnessMarker, bind, during,
    Reader.mapError, Reader.bytes, Cursor.advance, pure]

theorem readMarker_plain {p : Nat} {bs : Bytes} (h : ¬ witnessMarker <+: bs) :
    readMarker ⟨p, bs⟩ = (.ok false, ⟨p, bs⟩) := by
  have hpeek : (Cursor.peek ⟨p, bs⟩ witnessMarker.length == some witnessMarker) = false := by
    rw [beq_eq_false_iff_ne]
    intro heq
    simp only [Cursor.peek] at heq
    split at heq
    · exact h (List.prefix_iff_eq_take.2 (Option.some.inj heq).symm)
    · cases heq
  simp only [readMarker, lookingAt, bind, hpeek, Bool.false_eq_true]
  rfl

/-- What follows a marker is read as such, and the rest is what does not begin like one. Bytes that
are too few for either can be completed; a completion that would begin like a marker is replaced by
one behind a marker. -/
theorem readsAt_readMarker {α : Type} {next : Bool → Reader DecodeError α} {G : Bool → Spelling α}
    {p : Nat} (hmarked : ReadsAt (p + 2) (next true) (G true))
    (hplain : ReadsAt p (next false) (G false)) (hlen : ∀ x w, G false x w → 2 ≤ w.length) :
    ReadsAt p (readMarker >>= next) fun x u =>
      (∃ w, G true x w ∧ u = witnessMarker ++ w) ∨ G false x u ∧ ¬ witnessMarker <+: u := by
  have hmark : ∀ rest, (readMarker >>= next) ⟨p, witnessMarker ++ rest⟩ = next true ⟨p + 2, rest⟩ :=
    fun rest => bind_ok (readMarker_marked p rest)
  have hno : ∀ bs, ¬ witnessMarker <+: bs → (readMarker >>= next) ⟨p, bs⟩ = next false ⟨p, bs⟩ :=
    fun bs hbs => bind_ok (readMarker_plain hbs)
  refine ⟨?_, fun bs => ?_⟩
  · rintro x u (⟨w, hw, rfl⟩ | ⟨hw, hu⟩) rest
    · rw [List.append_assoc, hmark, hmarked.whole hw, List.length_append, ← Nat.add_assoc]
      rfl
    · have hrest : ¬ witnessMarker <+: u ++ rest := fun h =>
        hu (List.prefix_of_prefix_length_le h (List.prefix_append u rest) (hlen x u hw))
      rw [hno _ hrest, hplain.whole hw]
  · by_cases hbs : witnessMarker <+: bs
    · obtain ⟨rest, rfl⟩ := hbs
      rw [hmark]
      rcases hmarked.short rest with ⟨x, w, rest', hw, rfl⟩ | ⟨he, x, more, hx⟩
      · exact .inl ⟨x, witnessMarker ++ w, rest', .inl ⟨w, hw, rfl⟩, by simp⟩
      · exact .inr ⟨he, x, more, .inl ⟨_, hx, by simp⟩⟩
    · rw [hno bs hbs]
      rcases hplain.short bs with ⟨x, w, rest, hw, rfl⟩ | ⟨he, x, more, hx⟩
      · refine .inl ⟨x, w, rest, .inr ⟨hw, fun h => hbs ?_⟩, rfl⟩
        exact h.trans (List.prefix_append w rest)
      · refine .inr ⟨he, ?_⟩
        by_cases hm : witnessMarker <+: bs ++ more
        · have hcut : bs <+: witnessMarker :=
            (List.prefix_or_prefix_of_prefix hm (List.prefix_append bs more)).resolve_left hbs
          obtain ⟨tail, htail⟩ := hcut
          obtain ⟨y, w, hw⟩ := hmarked.exists_word
          exact ⟨y, tail ++ w, .inl ⟨w, hw, by rw [← htail, List.append_assoc]⟩⟩
        · exact ⟨x, more, .inr ⟨hx, hm⟩⟩

/-! ## The fields -/

theorem reads_readInputs : Reads readInputs.plain (SpellsCounted Input.SpellsBare) := fun p => by
  rw [readInputs, Recorder.plain_bind, Recorder.plain_lift]
  exact readsAt_counted ((CompactSize.reads_read.during _) p) fun _ => Input.reads_read.during _

theorem reads_readOutputs : Reads readOutputs.plain (SpellsCounted Output.Spells) := fun p => by
  rw [readOutputs, Recorder.plain_bind, Recorder.plain_lift]
  exact readsAt_counted ((CompactSize.reads_read.during _) p) fun _ => Output.reads_read.during _

/-- Inputs as they are read before the witnesses, and the inputs they become. -/
theorem spellsCounted_bare_iff {is : List Input} {w : Bytes} :
    SpellsCounted Input.SpellsBare (is.map Input.bare) w ↔ SpellsCounted Input.Spells is w := by
  have hbare : (fun i => Input.SpellsBare (Input.bare i)) = Input.Spells := by
    funext i w
    exact propext (and_iff_left rfl)
  rw [spellsCounted_map, hbare]

/-- The witnesses read behind the outputs belong to the inputs as they were read. -/
theorem attach_iff {marked : Bool} {bare is : List Input} {v w : Bytes} :
    (SpellsCounted Input.SpellsBare bare v ∧ is.map Input.bare = bare.map Input.bare ∧
      if marked then Spelling.Each Input.SpellsWitness is w else w = [] ∧ is = bare) ↔
    bare = is.map Input.bare ∧ SpellsCounted Input.Spells is v ∧
      if marked then Spelling.Each Input.SpellsWitness is w
      else w = [] ∧ ∀ i ∈ is, i.witness = [] := by
  constructor
  · rintro ⟨hv, his, hw⟩
    have hself : bare.map Input.bare = bare := by
      obtain ⟨size, words, -, hwords, -⟩ := hv
      exact Input.map_bare_eq_self_iff.2 (Spelling.each_and.1 hwords).2
    rw [hself] at his
    subst his
    refine ⟨rfl, spellsCounted_bare_iff.1 hv, ?_⟩
    cases marked
    · exact ⟨hw.1, Input.map_bare_eq_self_iff.1 hw.2.symm⟩
    · exact hw
  · rintro ⟨rfl, hv, hw⟩
    refine ⟨spellsCounted_bare_iff.2 hv, by simp [Input.bare], ?_⟩
    cases marked
    · exact ⟨hw.1, (Input.map_bare_eq_self_iff.2 hw.2).symm⟩
    · exact hw

/-- The part of the reading behind the marker. -/
def readFields (raw : Bytes) (version : Int32) (hasWitness : Bool) :
    Reader DecodeError Transaction := do
  let start ← Reader.position
  let bare ← readInputs.plain
  let outputs ← readOutputs.plain
  let stop ← Reader.position
  let inputs ← (readAttached hasWitness bare).plain
  let lockTime ← Reader.uint32.during .lockTime
  return { version, hasWitness, inputs, outputs, lockTime, raw, body := ⟨start, stop⟩ }

theorem plain_read (raw : Bytes) : (read raw).plain =
    Reader.int32.during .version >>= fun version => readMarker >>= readFields raw version := by
  simp only [read, Recorder.plain_bind, Recorder.plain_lift, Recorder.plain_pure]
  rfl

theorem reads_readAttached (marked : Bool) (bare : List Input) :
    Reads (readAttached marked bare).plain fun is w => is.map Input.bare = bare.map Input.bare ∧
      if marked then Spelling.Each Input.SpellsWitness is w else w = [] ∧ is = bare := by
  cases marked
  · refine fun p => (readsAt_pure bare).congr fun is w => ?_
    constructor
    · rintro ⟨rfl, rfl⟩
      exact ⟨rfl, rfl, rfl⟩
    · rintro ⟨-, rfl, rfl⟩
      exact ⟨rfl, rfl⟩
  · exact Input.reads_readWitnesses 0 bare

/-- What is read behind the marker, from position `p` on. -/
def SpellsFieldsAt (raw : Bytes) (version : Int32) (p : Nat) (hasWitness : Bool) :
    Spelling Transaction := fun tx w =>
  tx.raw = raw ∧ tx.version = version ∧ tx.hasWitness = hasWitness ∧ ∃ l : Layout,
    l.SpellsFields tx ∧ tx.body = ⟨p, p + l.body.length⟩ ∧ w = l.fields

theorem readsAt_readFields (raw : Bytes) (version : Int32) (p : Nat) (hasWitness : Bool) :
    ReadsAt p (readFields raw version hasWitness) (SpellsFieldsAt raw version p hasWitness) := by
  refine (readsAt_position.bind fun start _ _ => (reads_readInputs _).bind fun bare _ _ =>
    (reads_readOutputs _).bind fun outputs _ _ => readsAt_position.bind fun stop _ _ =>
    (reads_readAttached hasWitness bare _).bind fun inputs _ _ =>
    (reads_uint32.during .lockTime _).bind fun lockTime _ _ => readsAt_pure _).congr fun tx w => ?_
  constructor
  · rintro ⟨start, _, _, ⟨rfl, rfl⟩, ⟨bare, v, _, hv, ⟨outputs, u, _, hu, ⟨stop, _, _, ⟨rfl, rfl⟩,
      ⟨inputs, s, _, hs, ⟨lockTime, _, _, rfl, ⟨rfl, rfl⟩, rfl⟩, rfl⟩, rfl⟩, rfl⟩, rfl⟩, rfl⟩
    obtain ⟨hbare, hv, hs⟩ := attach_iff.1 ⟨hv, hs⟩
    refine ⟨rfl, rfl, rfl, ⟨[], [], v, u, s, toLittleEndian 4 lockTime.toNat⟩,
      ⟨hv, hu, hs, rfl⟩, ?_, ?_⟩
    · simp [Layout.body, Nat.add_assoc]
    · simp [Layout.fields, Layout.body]
  · obtain ⟨version, hasWitness, inputs, outputs, lockTime, raw, body⟩ := tx
    rintro ⟨rfl, rfl, rfl, l, ⟨hv, hu, hs, hl⟩, hbody, rfl⟩
    obtain ⟨hv, hmap, hs⟩ := attach_iff.2 ⟨rfl, hv, hs⟩
    refine ⟨p, [], _, ⟨rfl, rfl⟩, ⟨_, l.inputs, _, hv, ⟨outputs, l.outputs, _, hu,
      ⟨_, [], _, ⟨rfl, rfl⟩, ⟨inputs, l.witnesses, _, ⟨hmap, hs⟩,
      ⟨lockTime, l.lockTime, [], hl, ⟨?_, rfl⟩, rfl⟩, rfl⟩, rfl⟩, rfl⟩, rfl⟩, ?_⟩
    · dsimp only at hbody
      simp [hbody, Layout.body, Nat.add_assoc]
    · simp [Layout.fields, Layout.body]

theorem reads_int32 : Reads Reader.int32 fun v w =>
    w.length = 4 ∧ v.toInt = (littleEndian w : Int).bmod (2 ^ 32) := by
  have hsigned : ∀ n : UInt32, n.toInt32.toInt = (n.toNat : Int).bmod (2 ^ 32) := fun n =>
    BitVec.toInt_eq_toNat_bmod n.toBitVec
  refine fun p => ((reads_uint32 p).map UInt32.toInt32).congr fun v w => ?_
  constructor
  · rintro ⟨n, rfl, rfl⟩
    rw [hsigned, littleEndian_toLittleEndian n.toNat_lt]
    exact ⟨toLittleEndian_length 4 _, rfl⟩
  · rintro ⟨hlen, hv⟩
    have hlt := littleEndian_lt w
    rw [hlen] at hlt
    have hn : (UInt32.ofNat (littleEndian w)).toNat = littleEndian w :=
      UInt32.toNat_ofNat_of_lt' hlt
    refine ⟨UInt32.ofNat (littleEndian w), ?_, Int32.toInt_inj.1 ?_⟩
    · rw [hn, ← hlen, toLittleEndian_littleEndian]
    · rw [hsigned, hn, hv]

/-- What is read behind the version: a marker or none, and the fields. -/
def SpellsMarked (raw : Bytes) (version : Int32) : Spelling Transaction := fun tx w =>
  tx.raw = raw ∧ tx.version = version ∧ ∃ l : Layout, l.SpellsFields tx ∧
    l.marker = (if tx.hasWitness then witnessMarker else []) ∧
    (tx.hasWitness = false → ¬ witnessMarker <+: l.fields) ∧
    tx.body = ⟨4 + l.marker.length, 4 + l.marker.length + l.body.length⟩ ∧
    w = l.marker ++ l.fields

theorem readsAt_marked (raw : Bytes) (version : Int32) :
    ReadsAt 4 (readMarker >>= readFields raw version) (SpellsMarked raw version) := by
  refine (readsAt_readMarker (G := fun b => SpellsFieldsAt raw version (if b then 6 else 4) b)
    (readsAt_readFields raw version 6 true) (readsAt_readFields raw version 4 false) ?_).congr
    fun tx u => ?_
  · rintro tx _ ⟨-, -, -, l, hl, -, rfl⟩
    exact Nat.le_trans (by decide) hl.length_fields
  constructor
  · rintro (⟨_, ⟨hraw, hversion, hmarked, l, hl, hbody, rfl⟩, rfl⟩ |
      ⟨⟨hraw, hversion, hmarked, l, hl, hbody, rfl⟩, hu⟩)
    · exact ⟨hraw, hversion, { l with marker := witnessMarker }, ⟨hl.1, hl.2, hl.3, hl.4⟩,
        by rw [hmarked]; rfl, fun h => absurd (hmarked.symm.trans h) (by decide), hbody, rfl⟩
    · exact ⟨hraw, hversion, { l with marker := [] }, ⟨hl.1, hl.2, hl.3, hl.4⟩,
        by rw [hmarked]; rfl, fun _ => hu, hbody, rfl⟩
  · rintro ⟨hraw, hversion, l, hl, hmarker, hplain, hbody, rfl⟩
    cases hmarked : tx.hasWitness
    · rw [hmarked] at hmarker
      rw [hmarker] at hbody ⊢
      exact .inr ⟨⟨hraw, hversion, hmarked, l, hl, hbody, rfl⟩, hplain hmarked⟩
    · rw [hmarked] at hmarker
      rw [hmarker] at hbody ⊢
      exact .inl ⟨l.fields, ⟨hraw, hversion, hmarked, l, hl, hbody, rfl⟩, rfl⟩

/-- A transaction is read where its layout is, and nowhere else. -/
theorem readsAt_read (raw : Bytes) : ReadsAt 0 (read raw).plain fun tx w =>
    tx.raw = raw ∧ ∃ l : Layout, l.Spells tx ∧ w = l.bytes := by
  have hmarked : ∀ version v, v.length = 4 ∧ version.toInt = (littleEndian v : Int).bmod (2 ^ 32) →
      ReadsAt (0 + v.length) (readMarker >>= readFields raw version) (SpellsMarked raw version) :=
    fun version v hv => by
      rw [Nat.zero_add, hv.1]
      exact readsAt_marked raw version
  rw [plain_read]
  refine ((reads_int32.during .version 0).bind hmarked).congr fun tx w => ?_
  constructor
  · rintro ⟨_, v, _, hv, ⟨hraw, rfl, l, hl, hmarker, hplain, hbody, rfl⟩, rfl⟩
    refine ⟨hraw, { l with version := v }, ?_, by simp [Layout.bytes, Layout.fields, Layout.body]⟩
    exact ⟨⟨hl.1, hl.2, hl.3, hl.4⟩, hv.1, hv.2, hmarker, hplain, hbody⟩
  · rintro ⟨hraw, l, hl, rfl⟩
    exact ⟨tx.version, l.version, l.marker ++ l.fields, ⟨hl.version_length, hl.version⟩,
      ⟨hraw, rfl, l, hl.toSpellsFields, hl.marker, hl.unmarked, hl.body, rfl⟩,
      by simp [Layout.bytes]⟩

/-! ## Whole byte strings -/

/-- The record left out, decoding reads the fields and looks whether bytes are left. -/
theorem decode_eq (raw : Bytes) : decode raw =
    if raw.isEmpty then .error .emptyInput
    else
      match (read raw).plain (Cursor.start raw) with
      | (.error e, _) => .error e
      | (.ok tx, c) => if c.atEnd then .ok tx else .error (.trailingBytes c.remaining) := by
  rw [decode, decodeRecorded, apply_ite Prod.fst]
  congr 1
  rcases h : read raw (Cursor.start raw) with ⟨⟨e | tx, c⟩, loops⟩ <;> simp only [Recorder.plain, h]

theorem layout_of_decode {raw : Bytes} {tx : Transaction} (h : decode raw = .ok tx) :
    tx.raw = raw ∧ ∃ l : Layout, l.Spells tx ∧ raw = l.bytes := by
  rw [decode_eq] at h
  split_ifs at h
  split at h
  · cases h
  · rename_i tx' c hread
    obtain ⟨w, rest, ⟨htx, l, hl, rfl⟩, hraw, rfl⟩ := (readsAt_read raw).of_ok hread
    split_ifs at h with hend
    cases h
    obtain rfl : rest = [] := List.isEmpty_iff.1 hend
    exact ⟨htx, l, hl, by simpa using hraw⟩

theorem decode_of_layout {tx : Transaction} {l : Layout} (hl : l.Spells tx)
    (hraw : tx.raw = l.bytes) : decode l.bytes = .ok tx := by
  have hread := (readsAt_read l.bytes).whole ⟨hraw, l, hl, rfl⟩ []
  rw [List.append_nil] at hread
  have hne : l.bytes.isEmpty = false := List.isEmpty_eq_false_iff.2 hl.bytes_ne_nil
  simp only [decode_eq, hne, Bool.false_eq_true, Cursor.start, hread]
  rfl

/-- Decoding succeeds on the layouts of transactions, with the transaction that is laid out, and on
nothing else. -/
theorem decode_eq_ok_iff (raw : Bytes) (tx : Transaction) :
    decode raw = .ok tx ↔ tx.raw = raw ∧ ∃ l : Layout, l.Spells tx ∧ raw = l.bytes := by
  constructor
  · exact layout_of_decode
  · rintro ⟨hraw, l, hl, rfl⟩
    exact decode_of_layout hl hraw

end Transaction

end TxScope
