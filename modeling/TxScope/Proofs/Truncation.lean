import TxScope.Proofs.Shortage
import TxScope.Proofs.Verdict

/-!
# Truncated transactions

The report on a truncated transaction is exact. It names the field that is short, and in front of
this field stand whole fields only (`Reached`): of a counted kind fewer than were declared, and as
many as the report says.

Only behind the version can more bytes change what was read before: half a marker is read as a
count. The report on it asks for no more than the other half (`refusesAt_readMarker`).
-/

namespace TxScope

open CompactSize Reader

/-! ## Single fields -/

theorem CompactSize.refuses_read : Refuses CompactSize.read := fun p => by
  refine RefusesAt.bind_onePiece (reads_uint8 p) (refuses_word UInt8.ofNat p) fun first v _ => ?_
  split_ifs
  · exact refusesAt_pure _
  · exact refuses_number (payloadWidth first) _

theorem CompactSize.refuses_readPrefixed : Refuses readPrefixed := fun p =>
  (RefusesAt.bind_onePiece (CompactSize.reads_read p) (CompactSize.refuses_read p) fun n _ _ =>
    refuses_bytes n _).of_agree readPrefixed_of_ok readPrefixed_of_error

theorem Hash256.refuses_read : Refuses Hash256.read := fun _ =>
  refusesAt_of_piece (fun _ h => ⟨_, dif_pos h⟩) fun _ h => dif_neg h

theorem Input.refuses_read : Refuses Input.read := fun p =>
  RefusesAt.bind_onePiece (Hash256.reads_read p) (Hash256.refuses_read p) fun _ _ _ =>
  RefusesAt.bind_onePiece (reads_uint32 _) (refuses_word UInt32.ofNat _) fun _ _ _ =>
  RefusesAt.bind_onePiece (reads_readPrefixed _) (refuses_readPrefixed _) fun _ _ _ =>
  RefusesAt.bind_onePiece (reads_uint32 _) (refuses_word UInt32.ofNat _) fun _ _ _ =>
  refusesAt_pure _

theorem Output.refuses_read : Refuses Output.read := fun p =>
  RefusesAt.bind_onePiece (reads_uint64 p) (refuses_word UInt64.ofNat p) fun _ _ _ =>
  RefusesAt.bind_onePiece (reads_readPrefixed _) (refuses_readPrefixed _) fun _ _ _ =>
  refusesAt_pure _

theorem Input.refuses_readWitness (index : Nat) : Refuses (Input.readWitness index).plain := by
  intro p
  simp only [Input.readWitness, Recorder.plain_bind, Recorder.plain_lift, Recorder.plain_counted]
  refine RefusesAt.bind_onePiece (CompactSize.reads_read p) (CompactSize.refuses_read p)
    fun count v _ => ?_
  refine (refuses_inTurn (fun _ => reads_readPrefixed) (fun _ => refuses_readPrefixed) count 0
    (p + v.length)).onePiece ?_
  rintro say before rest ⟨xs, w, b, -, -, ⟨hsay, -⟩, -⟩
  exact hsay

/-! ## Fields with a stage -/

/-- The bytes of a whole field of the kind that a stage names. -/
def Stage.Field : Stage → Bytes → Prop
  | .version, w => w.length = 4
  | .inputCount, w => ∃ count, CompactSize.Spells count w
  | .input _, w => ∃ i, Input.Spells i w
  | .outputCount, w => ∃ count, CompactSize.Spells count w
  | .output _, w => ∃ o, Output.Spells o w
  | .witness _, w => ∃ items, SpellsCounted SpellsPrefixed items w
  | .lockTime, w => w.length = 4

/-- The stops in a field of a stage, where the rest does not begin with a whole such field. `R` says
which bytes may stand in front of the field. -/
def StopsIn (R : Stage → Bytes → Prop) : Stops DecodeError := fun say before rest =>
  ∃ stage, R stage before ∧ say = .truncated stage ∧ ∀ w, stage.Field w → ¬ w <+: rest

section Stages

variable {ε α β : Type} {p : Nat} {F : Spelling α} {R R' : Stage → Bytes → Prop}

theorem Reader.RefusesAt.monoIn {read : Reader DecodeError α} (h : RefusesAt p read (StopsIn R))
    (hR : ∀ stage before, R stage before → R' stage before) : RefusesAt p read (StopsIn R') :=
  h.mono fun _ before _ ⟨stage, hstage, hsay⟩ => ⟨stage, hR stage before hstage, hsay⟩

/-- A refusal is said of the field, and the bytes there are no whole field: it would have been
read. -/
theorem Reader.Refuses.during {read : Reader Truncated α} {stage : Stage} (h : Refuses read)
    (hr : Reads read F) (hF : ∀ w, stage.Field w → ∃ x, F x w) : RefusesAt p (read.during stage)
      (StopsIn fun stage' before => stage' = stage ∧ before = []) := by
  have hsay : RefusesAt p (read.during stage) _ :=
    (h p).mapError fun _ _ ht => ⟨stage, congrArg (DecodeError.truncated stage) ht⟩
  refine ⟨hsay.forward, fun {bs e c} hrefused => ?_⟩
  obtain ⟨_, _, _, t, hbs, ⟨say', ⟨rfl, rfl⟩, rfl⟩, he, hoff, hex⟩ := hsay.exact hrefused
  refine ⟨_, [], bs, t, rfl, ⟨stage, ⟨rfl, rfl⟩, rfl, ?_⟩, he, hoff, hex⟩
  rintro w hw ⟨tail, rfl⟩
  obtain ⟨x, hx⟩ := hF w hw
  rw [((hr.during stage) p).whole hx tail] at hrefused
  cases hrefused

theorem Reader.RefusesAt.bindIn {read : Reader DecodeError α} {next : α → Reader DecodeError β}
    {Q : α → Bytes → Stage → Bytes → Prop} (hr : ReadsAt p read F)
    (hs : RefusesAt p read (StopsIn R))
    (hn : ∀ x v, F x v → RefusesAt (p + v.length) (next x) (StopsIn (Q x v))) :
    RefusesAt p (read >>= next) (StopsIn fun stage before => R stage before ∨
      ∃ x v b, F x v ∧ Q x v stage b ∧ before = v ++ b) := by
  refine (RefusesAt.bind hr hs hn).mono ?_
  rintro say before rest (⟨stage, h, hsay⟩ | ⟨x, v, b, hv, ⟨stage, h, hsay⟩, rfl⟩)
  · exact ⟨stage, .inl h, hsay⟩
  · exact ⟨stage, .inr ⟨x, v, b, hv, h, rfl⟩, hsay⟩

/-- All bytes of the right number are a word, if this is the length of all words. -/
theorem Reader.ReadsAt.exists_of_length {read : Reader ε α} [Shortage ε] {n : Nat}
    (h : ReadsAt p read F) (hF : ∀ x w, F x w → w.length = n) {w : Bytes} (hw : w.length = n) :
    ∃ x, F x w := by
  rcases h.short w with ⟨x, v, rest, hv, rfl⟩ | ⟨-, x, more, hx⟩
  · have hlen := hF x v hv
    have hrest : rest = [] := List.eq_nil_of_length_eq_zero (by simp at hw; omega)
    exact ⟨x, by simpa [hrest] using hv⟩
  · have hlen := hF x _ hx
    have hmore : more = [] := List.eq_nil_of_length_eq_zero (by simp at hlen; omega)
    exact ⟨x, by simpa [hmore] using hx⟩

/-- A counted field stops in its count, or behind fewer elements than the count declares. -/
theorem refusesAt_countedIn {element : Reader Truncated α} {site : LoopSite} {smallest : Nat}
    {countStage : Stage} {stage : Nat → Stage} (he : Reads element F) (hs : Refuses element)
    (hcount : ∀ w, countStage.Field w → ∃ count, CompactSize.Spells count w)
    (hF : ∀ i w, (stage i).Field w → ∃ x, F x w) :
    RefusesAt p (CompactSize.read.during countStage >>= fun count =>
        (Recorder.counted site count smallest fun index => element.during (stage index)).plain)
      (StopsIn fun stage' before => stage' = countStage ∧ before = [] ∨
        ∃ count size xs words, CompactSize.Spells count size ∧ F.Each xs words ∧
          xs.length < count ∧ stage' = stage xs.length ∧ before = size ++ words) := by
  have hloop : ∀ count p, RefusesAt p
      (Reader.inTurn (fun index => element.during (stage index)) count 0)
      (StopsIn fun stage' before => ∃ xs words, F.Each xs words ∧ xs.length < count ∧
        stage' = stage xs.length ∧ before = words) := fun count p => by
    refine (refuses_inTurn (fun i => he.during (stage i)) (fun i p => hs.during he (hF i)) count 0
      p).mono ?_
    rintro say before rest ⟨xs, words, b, hlt, hwords, ⟨_, ⟨rfl, rfl⟩, hsay⟩, rfl⟩
    exact ⟨_, ⟨xs, words, hwords, hlt, by rw [Nat.zero_add], List.append_nil words⟩, hsay⟩
  simp only [Recorder.plain_counted]
  refine (RefusesAt.bindIn (CompactSize.reads_read.during countStage p)
    (CompactSize.refuses_read.during CompactSize.reads_read hcount) fun count size _ =>
    hloop count (p + size.length)).monoIn ?_
  rintro stage' before (h | ⟨count, size, _, hsize, ⟨xs, words, hwords, hlt, rfl, rfl⟩, rfl⟩)
  · exact .inl h
  · exact .inr ⟨count, size, xs, _, hsize, hwords, hlt, rfl, rfl⟩

end Stages

theorem Input.refuses_readWitnesses : ∀ (index : Nat) (bare : List Input) {p : Nat},
    RefusesAt p (Input.readWitnesses index bare).plain (StopsIn fun stage before =>
      ∃ ws : List (List Bytes), Spelling.Each (SpellsCounted SpellsPrefixed) ws before ∧
        ws.length < bare.length ∧ stage = .witness (index + ws.length))
  | index, [], p => refusesAt_pure []
  | index, i :: bare, p => by
    rw [Input.plain_readWitnesses]
    refine (RefusesAt.bindIn ((Input.reads_readWitness index).during (.witness index) p)
      ((Input.refuses_readWitness index).during (Input.reads_readWitness index) fun _ h => h)
      fun items v _ => RefusesAt.bindIn (Input.reads_readWitnesses (index + 1) bare (p + v.length))
        (Input.refuses_readWitnesses (index + 1) bare) fun is _ _ =>
        refusesAt_pure ({ i with witness := items } :: is)
          (S := StopsIn fun _ _ => False)).monoIn ?_
    rintro stage before (⟨rfl, rfl⟩ | ⟨items, v, b, hv,
      ⟨ws, hws, hlt, rfl⟩ | ⟨_, _, _, _, h, -⟩, rfl⟩)
    · exact ⟨[], .nil, Nat.succ_pos _, rfl⟩
    · refine ⟨items :: ws, .cons hv hws, Nat.succ_lt_succ hlt, ?_⟩
      rw [List.length_cons, Nat.add_comm ws.length, ← Nat.add_assoc]
    · exact h.elim

/-! ## The fields in their order -/

namespace Transaction

/-- The bytes between the marker and the field that a stage names: the fields in front of this one,
each of them whole. The next input or output is read while there are fewer of them than the count
declares, and the next witness while there are fewer of them than inputs. -/
inductive Behind (marked : Bool) : Stage → Bytes → Prop
  | inputCount : Behind marked .inputCount []
  | input {count : Nat} {is : List Input} {size words : Bytes}
    (hsize : CompactSize.Spells count size) (his : Spelling.Each Input.Spells is words)
    (hlt : is.length < count) : Behind marked (.input is.length) (size ++ words)
  | outputCount {is : List Input} {inputs : Bytes} (his : SpellsCounted Input.Spells is inputs) :
    Behind marked .outputCount inputs
  | output {is : List Input} {count : Nat} {os : List Output} {inputs size words : Bytes}
    (his : SpellsCounted Input.Spells is inputs) (hsize : CompactSize.Spells count size)
    (hos : Spelling.Each Output.Spells os words) (hlt : os.length < count) :
    Behind marked (.output os.length) (inputs ++ (size ++ words))
  | witness {is : List Input} {os : List Output} {ws : List (List Bytes)}
    {inputs outputs words : Bytes} (hmarked : marked = true)
    (his : SpellsCounted Input.Spells is inputs) (hos : SpellsCounted Output.Spells os outputs)
    (hws : Spelling.Each (SpellsCounted SpellsPrefixed) ws words) (hlt : ws.length < is.length) :
    Behind marked (.witness ws.length) (inputs ++ (outputs ++ words))
  | lockTime {is : List Input} {os : List Output} {inputs outputs words : Bytes}
    (his : SpellsCounted Input.Spells is inputs) (hos : SpellsCounted Output.Spells os outputs)
    (hws : if marked then Spelling.Each Input.SpellsWitness is words else words = []) :
    Behind marked .lockTime (inputs ++ (outputs ++ words))

/-- The bytes in front of the field that a stage names, each field among them whole. -/
inductive Reached (marked : Bool) : Stage → Bytes → Prop
  | version : Reached marked .version []
  | behind {stage : Stage} {version fields : Bytes} (hversion : version.length = 4)
    (hfields : Behind marked stage fields) :
    Reached marked stage (version ++ ((if marked then witnessMarker else []) ++ fields))

theorem each_spells_of_bare {is : List Input} {w : Bytes}
    (h : Spelling.Each Input.SpellsBare is w) : Spelling.Each Input.Spells is w :=
  (Spelling.each_and.1 h).1

theorem spellsCounted_of_bare {is : List Input} {w : Bytes}
    (h : SpellsCounted Input.SpellsBare is w) : SpellsCounted Input.Spells is w := by
  obtain ⟨size, words, hsize, hwords, rfl⟩ := h
  exact ⟨size, words, hsize, each_spells_of_bare hwords, rfl⟩

theorem refuses_readInputs {p : Nat} : RefusesAt p readInputs.plain (StopsIn fun stage before =>
    stage = .inputCount ∧ before = [] ∨ ∃ count size is words, CompactSize.Spells count size ∧
      Spelling.Each Input.SpellsBare is words ∧ is.length < count ∧ stage = .input is.length ∧
      before = size ++ words) := by
  rw [readInputs, Recorder.plain_bind, Recorder.plain_lift]
  refine refusesAt_countedIn Input.reads_read Input.refuses_read (fun _ h => h) ?_
  rintro _ _ ⟨i, hi⟩
  exact ⟨i.bare, hi, rfl⟩

theorem refuses_readOutputs {p : Nat} : RefusesAt p readOutputs.plain (StopsIn fun stage before =>
    stage = .outputCount ∧ before = [] ∨ ∃ count size os words, CompactSize.Spells count size ∧
      Spelling.Each Output.Spells os words ∧ os.length < count ∧ stage = .output os.length ∧
      before = size ++ words) := by
  rw [readOutputs, Recorder.plain_bind, Recorder.plain_lift]
  exact refusesAt_countedIn Output.reads_read Output.refuses_read (fun _ h => h) fun _ _ h => h

theorem refuses_readAttached (marked : Bool) (bare : List Input) {p : Nat} :
    RefusesAt p (readAttached marked bare).plain (StopsIn fun stage before => marked = true ∧
      ∃ ws : List (List Bytes), Spelling.Each (SpellsCounted SpellsPrefixed) ws before ∧
        ws.length < bare.length ∧ stage = .witness ws.length) := by
  cases marked
  · exact refusesAt_pure bare
  · refine (Input.refuses_readWitnesses 0 bare).monoIn ?_
    rintro stage before ⟨ws, hws, hlt, rfl⟩
    exact ⟨rfl, ws, hws, hlt, by rw [Nat.zero_add]⟩

theorem refuses_lockTime {p : Nat} : RefusesAt p (Reader.uint32.during .lockTime)
    (StopsIn fun stage before => stage = .lockTime ∧ before = []) :=
  Refuses.during (refuses_word UInt32.ofNat) reads_uint32 fun _ hw =>
    (reads_uint32 p).exists_of_length (fun _ _ h => h ▸ toLittleEndian_length 4 _) hw

theorem refuses_version {p : Nat} : RefusesAt p (Reader.int32.during .version)
    (StopsIn fun stage before => stage = .version ∧ before = []) := by
  have hrefuses : Refuses Reader.int32 := fun p =>
    RefusesAt.map (reads_uint32 p) (refuses_word UInt32.ofNat p) UInt32.toInt32
  exact hrefuses.during reads_int32 fun _ hw =>
    (reads_int32 p).exists_of_length (fun _ _ h => h.1) hw

theorem refuses_readFields (raw : Bytes) (version : Int32) (marked : Bool) {p : Nat} :
    RefusesAt p (readFields raw version marked) (StopsIn (Behind marked)) := by
  refine (RefusesAt.bindIn (R := fun _ _ => False) readsAt_position refusesAt_position
    fun start _ _ => RefusesAt.bindIn (reads_readInputs _) refuses_readInputs fun bare _ _ =>
    RefusesAt.bindIn (reads_readOutputs _) refuses_readOutputs fun outputs _ _ =>
    RefusesAt.bindIn (R := fun _ _ => False) readsAt_position refusesAt_position
    fun stop _ _ => RefusesAt.bindIn (reads_readAttached marked bare _)
      (refuses_readAttached marked bare) fun inputs _ _ =>
    RefusesAt.bindIn (reads_uint32.during .lockTime _) refuses_lockTime fun lockTime _ _ =>
    refusesAt_pure _ (S := StopsIn fun _ _ => False)).monoIn ?_
  rintro stage before (h | ⟨_, _, _, ⟨-, rfl⟩, hinputs, rfl⟩)
  · exact h.elim
  rcases hinputs with (⟨rfl, rfl⟩ | ⟨count, size, is, words, hsize, his, hlt, rfl, rfl⟩) |
    ⟨bare, inputs, _, hbare, houtputs, rfl⟩
  · exact .inputCount
  · exact .input hsize (each_spells_of_bare his) hlt
  have his := spellsCounted_of_bare hbare
  rcases houtputs with (⟨rfl, rfl⟩ | ⟨count, size, os, words, hsize, hos, hlt, rfl, rfl⟩) |
    ⟨os, outputs, _, hos, h | ⟨_, _, _, ⟨-, rfl⟩, hattached, rfl⟩, rfl⟩
  · rw [List.append_nil]
    exact .outputCount his
  · exact .output his hsize hos hlt
  · exact h.elim
  rcases hattached with ⟨hmarked, ws, hws, hlt, rfl⟩ | ⟨is, words, _, hattached, hlock, rfl⟩
  · exact .witness hmarked his hos hws hlt
  rcases hlock with ⟨rfl, rfl⟩ | ⟨_, _, _, -, h, -⟩
  · obtain ⟨-, his, hws⟩ := attach_iff.1 ⟨hbare, hattached⟩
    rw [List.append_nil]
    refine .lockTime his hos ?_
    cases marked
    · exact hws.1
    · exact hws
  · exact h.elim

/-! ## The marker -/

section Marker

variable {α : Type} {next : Bool → Reader DecodeError α} {S : Bool → Stops DecodeError} {p : Nat}

theorem exact_readMarker_marked {say : Truncated → DecodeError} {t : Truncated} {rest : Bytes}
    (h : Exact (next true) (p + 2) rest say t) :
    Exact (readMarker >>= next) p (witnessMarker ++ rest) say t where
  reports := h.reports
  total := by
    rw [h.total, List.length_append, ← Nat.add_assoc]
    rfl
  lacking := h.lacking
  fewer more hmore := by
    rw [List.append_assoc, bind_ok (readMarker_marked p _)]
    exact h.fewer more hmore
  enough more hmore := by
    rw [List.append_assoc, bind_ok (readMarker_marked p _)]
    exact h.enough more hmore

/-- A refusal of unmarked bytes stays exact where more bytes make them marked: then they are half a
marker, and nothing behind the other half is asked for. -/
theorem exact_readMarker_plain {say : Truncated → DecodeError} {t : Truncated} {bs : Bytes}
    (hmarked : ∀ rest, Reaches (p + 2) (next true ⟨p + 2, rest⟩)) (hbs : ¬ witnessMarker <+: bs)
    (hcut : bs <+: witnessMarker → t.offset + t.needed ≤ p + 2)
    (h : Exact (next false) p bs say t) : Exact (readMarker >>= next) p bs say t := by
  have hhalf : ∀ more, witnessMarker <+: bs ++ more →
      t.offset + t.needed ≤ p + 2 ∧ 2 ≤ bs.length + more.length := fun more hm => by
    have hpre : bs <+: witnessMarker :=
      (List.prefix_or_prefix_of_prefix hm (List.prefix_append bs more)).resolve_left hbs
    have hlen := hm.length_le
    rw [List.length_append] at hlen
    exact ⟨hcut hpre, hlen⟩
  have htotal := h.total
  refine ⟨h.reports, htotal, h.lacking, fun more hmore => ?_, fun more hmore => ?_⟩
  · by_cases hm : witnessMarker <+: bs ++ more
    · have := hhalf more hm
      omega
    · rw [bind_ok (readMarker_plain hm)]
      exact h.fewer more hmore
  · by_cases hm : witnessMarker <+: bs ++ more
    · have hle := (hhalf more hm).1
      obtain ⟨rest, hrest⟩ := hm
      rw [← hrest, bind_ok (readMarker_marked p rest)]
      exact (hmarked rest).mono hle
    · rw [bind_ok (readMarker_plain hm)]
      exact h.enough more hmore

theorem refusesAt_readMarker (hmarked : RefusesAt (p + 2) (next true) (S true))
    (hplain : RefusesAt p (next false) (S false))
    (hcut : ∀ {bs e c t}, bs <+: witnessMarker → bs ≠ witnessMarker →
      next false ⟨p, bs⟩ = (.error e, c) → Shortage.Reports e t → t.offset + t.needed ≤ p + 2) :
    RefusesAt p (readMarker >>= next) fun say before rest => ∃ marked b,
      (marked = true ↔ witnessMarker <+: before ++ rest) ∧
      before = (if marked then witnessMarker else []) ++ b ∧ S marked say b rest where
  forward bs := by
    by_cases hbs : witnessMarker <+: bs
    · obtain ⟨rest, rfl⟩ := hbs
      rw [bind_ok (readMarker_marked p rest)]
      exact (hmarked.forward rest).mono (Nat.le_add_right p 2)
    · rw [bind_ok (readMarker_plain hbs)]
      exact hplain.forward bs
  exact {bs e c} hr := by
    by_cases hbs : witnessMarker <+: bs
    · obtain ⟨rest, rfl⟩ := hbs
      rw [bind_ok (readMarker_marked p rest)] at hr
      obtain ⟨say, before, rest', t, rfl, hstop, he, hoff, hex⟩ := hmarked.exact hr
      refine ⟨say, witnessMarker ++ before, rest', t, (List.append_assoc ..).symm,
        ⟨true, before, by simp, rfl, hstop⟩, he, ?_, exact_readMarker_marked hex⟩
      rw [List.length_append, ← Nat.add_assoc]
      exact hoff
    · rw [bind_ok (readMarker_plain hbs)] at hr
      obtain ⟨say, before, rest, t, rfl, hstop, rfl, hoff, hex⟩ := hplain.exact hr
      have hne : before ++ rest ≠ witnessMarker := fun heq =>
        hbs (heq ▸ List.prefix_refl witnessMarker)
      exact ⟨say, before, rest, t, rfl, ⟨false, before, by simpa using hbs, rfl, hstop⟩, rfl, hoff,
        exact_readMarker_plain hmarked.forward hbs (fun hpre => hcut hpre hne hr hex.reports) hex⟩

end Marker

/-- Half a marker, or nothing, is no field without marker either: a count is missing. -/
theorem readFields_halfMarker {raw bs : Bytes} {version : Int32} {p : Nat} {e : DecodeError}
    {c : Cursor} {t : Truncated} (hpre : bs <+: witnessMarker) (hne : bs ≠ witnessMarker)
    (hr : readFields raw version false ⟨p, bs⟩ = (.error e, c)) (ht : Shortage.Reports e t) :
    t.offset + t.needed ≤ p + 2 := by
  have hnone : readFields raw version false ⟨p, []⟩ =
    (.error (.truncated .inputCount ⟨p, 1, 0⟩), ⟨p, []⟩) := rfl
  have hzero : readFields raw version false ⟨p, [0x00]⟩ =
    (.error (.truncated .outputCount ⟨p + 1, 1, 0⟩), ⟨p + 1, []⟩) := rfl
  rw [witnessMarker, List.prefix_cons_iff] at hpre
  rcases hpre with rfl | ⟨tail, rfl, htail⟩
  · rw [hnone] at hr
    cases hr
    obtain ⟨stage, ht⟩ := ht
    cases ht
    exact Nat.le_succ (p + 1)
  · rw [List.prefix_cons_iff] at htail
    rcases htail with rfl | ⟨tail, rfl, htail⟩
    · rw [hzero] at hr
      cases hr
      obtain ⟨stage, ht⟩ := ht
      cases ht
      exact Nat.le_refl (p + 2)
    · rw [List.prefix_nil.1 htail] at hne
      exact absurd rfl hne

/-- The other half turns the count of no inputs into a marker, and a count of inputs is missing. -/
example : decode [1, 0, 0, 0, 0] = .error (.truncated .outputCount ⟨5, 1, 0⟩) ∧
    decode [1, 0, 0, 0, 0, 1] = .error (.truncated .inputCount ⟨6, 1, 0⟩) := ⟨rfl, rfl⟩

theorem refusesAt_read (raw : Bytes) : RefusesAt 0 (read raw).plain fun say before rest =>
    ∃ marked, (marked = true ↔ witnessMarker <+: (before ++ rest).drop 4) ∧
      StopsIn (Reached marked) say before rest := by
  have hmarked : ∀ version v, v.length = 4 ∧ version.toInt = (littleEndian v : Int).bmod (2 ^ 32) →
      RefusesAt (0 + v.length) (readMarker >>= readFields raw version) _ :=
    fun version v _ => refusesAt_readMarker (S := fun marked => StopsIn (Behind marked))
      (refuses_readFields raw version true)
      (refuses_readFields raw version false) readFields_halfMarker
  rw [plain_read]
  refine (RefusesAt.bind (reads_int32.during .version 0) refuses_version hmarked).mono ?_
  rintro say before rest (⟨stage, ⟨rfl, rfl⟩, hsay, hrest⟩ |
    ⟨version, v, _, ⟨hv, -⟩, ⟨marked, b, hiff, rfl, stage, hb, hsay, hrest⟩, rfl⟩)
  · exact ⟨decide (witnessMarker <+: ([] ++ rest).drop 4), decide_eq_true_iff, _, .version, hsay,
      hrest⟩
  · refine ⟨marked, ?_, _, .behind hv hb, hsay, hrest⟩
    rw [List.append_assoc v, List.drop_left' hv]
    exact hiff

/-! ## Whole byte strings -/

/-- What the transaction keeps of the bytes has no part in reading them. -/
theorem read_withRaw (raw raw' : Bytes) :
    (read raw').plain = (fun tx => { tx with raw := raw' }) <$> (read raw).plain := by
  simp only [plain_read, readFields, map_bind]
  rfl

variable {raw : Bytes} {c c' : Cursor} {e : DecodeError} {stage : Stage} {t : Truncated}

theorem read_error_withRaw (h : (read raw).plain c = (.error e, c')) (raw' : Bytes) :
    (read raw').plain c = (.error e, c') := by
  rw [read_withRaw raw raw']
  exact bind_error h

theorem reaches_withRaw {n : Nat} (h : Reaches n ((read raw).plain c)) (raw' : Bytes) :
    Reaches n ((read raw').plain c) := by
  rcases hr : (read raw).plain c with ⟨e | tx, c'⟩ <;> rw [hr] at h
  · rw [read_error_withRaw hr raw']
    exact h
  · rw [read_withRaw raw raw']
    simp only [Functor.map, hr]
    exact h

theorem decode_eq_of_read_error (hne : raw ≠ []) (h : (read raw).plain ⟨0, raw⟩ = (.error e, c)) :
    decode raw = .error e := by
  rw [decode_eq, if_neg (by simpa using hne), Cursor.start, h]

theorem read_error_of_decode (h : decode raw = .error (.truncated stage t)) :
    raw ≠ [] ∧ ∃ c, (read raw).plain ⟨0, raw⟩ = (.error (.truncated stage t), c) := by
  have hne : raw ≠ [] := by
    rintro rfl
    cases h
  refine ⟨hne, ?_⟩
  rw [decode_eq, if_neg (by simpa using hne), Cursor.start] at h
  rcases hr : (read raw).plain ⟨0, raw⟩ with ⟨e | tx, c⟩ <;> simp only [hr] at h
  · cases h
    exact ⟨c, rfl⟩
  · split_ifs at h
    cases h

/-- A reading that gets far is a decoding that fails late, if at all. -/
theorem decode_of_reaches {n : Nat} (hne : raw ≠ []) (h : Reaches n ((read raw).plain ⟨0, raw⟩)) :
    (∃ tx, decode raw = .ok tx) ∨ (∃ k, decode raw = .error (.trailingBytes k)) ∨
      ∃ stage t, decode raw = .error (.truncated stage t) ∧ n ≤ t.offset := by
  rcases hr : (read raw).plain ⟨0, raw⟩ with ⟨e | tx, c⟩
  · rw [hr] at h
    obtain ⟨t, ⟨stage, rfl⟩, hle⟩ := h
    exact .inr (.inr ⟨stage, t, decode_eq_of_read_error hne hr, hle⟩)
  · rw [decode_eq, if_neg (by simpa using hne), Cursor.start, hr]
    by_cases hend : c.atEnd = true
    · exact .inl ⟨tx, if_pos hend⟩
    · exact .inr (.inl ⟨c.remaining, if_neg hend⟩)

/-- The report on a truncated transaction is exact: it tells which field is short, where in it the
bytes are missing, and how many are. With fewer more bytes only the bytes found change. With as many
as are missing, whatever they are, the decoding gets past the place. -/
theorem truncation_exact (h : decode raw = .error (.truncated stage t)) :
    (t.offset + t.remaining = raw.length ∧ t.remaining < t.needed) ∧
    (∃ marked before rest, (marked = true ↔ witnessMarker <+: raw.drop 4) ∧
      raw = before ++ rest ∧ Reached marked stage before ∧ before.length ≤ t.offset ∧
      ∀ w, stage.Field w → ¬ w <+: rest) ∧
    (∀ more : Bytes, more.length < t.needed - t.remaining →
      decode (raw ++ more) = .error (.truncated stage (t.found more.length))) ∧
    ∀ more : Bytes, t.needed - t.remaining ≤ more.length →
      (∃ tx, decode (raw ++ more) = .ok tx) ∨
      (∃ k, decode (raw ++ more) = .error (.trailingBytes k)) ∨
      ∃ stage' t', decode (raw ++ more) = .error (.truncated stage' t') ∧
        t.offset + t.needed ≤ t'.offset := by
  obtain ⟨hne, c, hread⟩ := read_error_of_decode h
  obtain ⟨say, before, rest, t', hraw, ⟨marked, hmarked, stage', hreached, rfl, hrest⟩, he, hoff,
    hexact⟩ := (refusesAt_read raw).exact hread
  cases he
  have hmore : ∀ more : Bytes, raw ++ more ≠ [] := fun more heq =>
    hne (List.append_eq_nil_iff.1 heq).1
  have htotal := hexact.total
  have hlacking := hexact.lacking
  rw [Nat.zero_add] at htotal hoff
  refine ⟨⟨htotal, hlacking⟩, ⟨marked, before, rest, hraw ▸ hmarked, hraw, hreached, hoff, hrest⟩,
    fun more hlt => ?_, fun more hle => ?_⟩
  · obtain ⟨c', hfewer⟩ := hexact.fewer more (by omega)
    exact decode_eq_of_read_error (hmore more) (read_error_withRaw hfewer (raw ++ more))
  · have henough := hexact.enough more (by omega)
    exact decode_of_reaches (hmore more) (reaches_withRaw henough (raw ++ more))

/-- A marked transaction with one input and no output, cut behind two of the five bytes of the only
item of its witness. -/
def cutWitness : Bytes :=
  [2, 0, 0, 0, 0, 1, 1] ++ List.replicate 36 0 ++ [0, 255, 255, 255, 255, 0, 1, 5, 7, 7]

theorem truncation_exact_cutWitness :
    decode cutWitness = .error (.truncated (.witness 0) ⟨51, 5, 2⟩) ∧
    (∃ before rest, cutWitness = before ++ rest ∧ Reached true (.witness 0) before) ∧
    decode (cutWitness ++ [7, 7]) = .error (.truncated (.witness 0) ⟨51, 5, 4⟩) := by
  have hcut : decode cutWitness = .error (.truncated (.witness 0) ⟨51, 5, 2⟩) := by rfl
  obtain ⟨-, ⟨marked, before, rest, hmarked, hraw, hreached, -⟩, hfewer, -⟩ := truncation_exact hcut
  have htrue : marked = true := hmarked.2 ⟨_, rfl⟩
  exact ⟨hcut, ⟨before, rest, hraw, htrue ▸ hreached⟩, hfewer [7, 7] (by decide)⟩

end Transaction

end TxScope
