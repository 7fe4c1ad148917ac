import TxScope.Proofs.WordCursor

/-!
# Runs of cursor operations

Whatever was done before, and whether it failed or not, a cursor stands in its buffer: in front of
it are as many bytes as its position says, and behind them what remains (`exists_place_after`). So
what each operation does there is told by the buffer and the position alone (`ExactAt`).
-/

namespace TxScope.Cursor

open Reader

/-- The cursor at a position of a buffer. -/
def place (buf : Bytes) (p : Nat) : Cursor := ⟨p, buf.drop p⟩

@[simp] theorem place_position (buf : Bytes) (p : Nat) : (place buf p).position = p := rfl

@[simp] theorem place_rest (buf : Bytes) (p : Nat) : (place buf p).rest = buf.drop p := rfl

theorem place_remaining (buf : Bytes) (p : Nat) : (place buf p).remaining = buf.length - p := by
  simp [remaining, place]

theorem place_advance (buf : Bytes) (p n : Nat) :
    (place buf p).advance n = place buf (p + n) := by
  simp [place, advance]

/-- A word in front of a rest, both behind a position, is the slice up to the position of the
rest. -/
theorem slice_of_drop_eq_append {buf w rest : Bytes} {p : Nat} (h : buf.drop p = w ++ rest) :
    slice buf p (p + w.length) = w ∧ buf.drop (p + w.length) = rest := by
  rw [slice, ← List.drop_drop, h, Nat.add_sub_cancel_left, List.take_left, List.drop_left]
  exact ⟨rfl, rfl⟩

/-- A read that succeeds goes from one position to another one and answers what the bytes between
them spell. -/
theorem perform_eq_ok_iff_slice (r : Reading) {buf : Bytes} {p : Nat} {c' : Cursor} {a : Answer}
    (hp : p ≤ buf.length) : r.perform (place buf p) = (.ok a, c') ↔
      ∃ q, p ≤ q ∧ q ≤ buf.length ∧ c' = place buf q ∧ r.Spells a (slice buf p q) := by
  rw [r.perform_eq_ok_iff]
  constructor
  · rintro ⟨w, rest, hw, hrest, rfl⟩
    obtain ⟨hslice, hdrop⟩ := slice_of_drop_eq_append hrest
    have hlen := congrArg List.length hrest
    simp only [place_rest, List.length_drop, List.length_append] at hlen
    refine ⟨p + w.length, Nat.le_add_right _ _, by omega, ?_, by rwa [hslice]⟩
    rw [place_position, place, hdrop]
  · rintro ⟨q, hpq, hq, rfl, ha⟩
    have hlen : (slice buf p q).length = q - p := by
      simp only [slice, List.length_take, List.length_drop]
      omega
    refine ⟨slice buf p q, buf.drop q, ha, ?_, ?_⟩
    · have hdrop : buf.drop q = (buf.drop p).drop (q - p) := by
        rw [List.drop_drop]
        congr 1
        omega
      rw [hdrop]
      exact (List.take_append_drop (q - p) (buf.drop p)).symm
    · rw [hlen]
      simp only [place, Cursor.mk.injEq, and_true]
      omega

theorem exists_place_perform (op : Operation) {buf : Bytes} {p : Nat} (hp : p ≤ buf.length) :
    ∃ q, q ≤ buf.length ∧ (op.perform (place buf p)).2 = place buf q := by
  cases op with
  | peek count => exact ⟨p, hp, rfl⟩
  | read r =>
    rcases h : r.perform (place buf p) with ⟨e | a, c'⟩
    · rcases failed_place r h with ⟨-, ⟨first, rest, hrest, -⟩, rfl⟩ | ⟨-, rfl⟩
      · have hlen := congrArg List.length hrest
        simp only [place_rest, List.length_drop, List.length_cons] at hlen
        exact ⟨p + 1, by omega, by rw [Operation.perform, h, place_advance]⟩
      · exact ⟨p, hp, by rw [Operation.perform, h]⟩
    · obtain ⟨q, -, hq, rfl, -⟩ := (perform_eq_ok_iff_slice r hp).1 h
      exact ⟨q, hq, by rw [Operation.perform, h]⟩

theorem exists_place_after (buf : Bytes) (ops : List Operation) :
    ∃ p, p ≤ buf.length ∧ after ops (start buf) = place buf p := by
  induction ops using List.reverseRecOn with
  | nil => exact ⟨0, Nat.zero_le _, rfl⟩
  | append_singleton ops op ih =>
    obtain ⟨p, hp, hplace⟩ := ih
    obtain ⟨q, hq, hstep⟩ := exists_place_perform op hp
    refine ⟨q, hq, ?_⟩
    rw [after, List.foldl_append, List.foldl_cons, List.foldl_nil]
    rw [after] at hplace
    rw [hplace, hstep]

/-- What holds of a cursor in a buffer, and of every operation that it may do next. -/
structure ExactAt (buf : Bytes) (c : Cursor) : Prop where
  position_le : c.position ≤ buf.length
  total : c.position + c.remaining = buf.length
  atEnd_iff : c.atEnd = true ↔ c.remaining = 0
  /-- On words, no sum, difference or slice leaves its range. -/
  inRange : buf.length < 2 ^ 64 → ∀ op : Operation,
    WordCursor.perform op ⟨buf, UInt64.ofNat c.position⟩ =
      some ((op.perform c).1, ⟨buf, UInt64.ofNat (op.perform c).2.position⟩)
  /-- A read answers what the bytes spell that it passes. -/
  ok_iff : ∀ (r : Reading) (a : Answer) (c' : Cursor), r.perform c = (.ok a, c') ↔
    ∃ q, c.position ≤ q ∧ q ≤ buf.length ∧ c' = place buf q ∧ r.Spells a (slice buf c.position q)
  words : ∀ (r : Reading) (width : UInt64), r.wordWidth? = some width →
    r.perform c = (Reading.number width .little).perform c
  /-- The signed word is the word in two's complement. -/
  signed : (∀ (n : Nat) (c' : Cursor), Reading.uint32.perform c = (.ok (.number n), c') →
      Reading.int32.perform c = (.ok (.signed ((n : Int).bmod (2 ^ 32))), c')) ∧
    ∀ (e : NumberError) (c' : Cursor), Reading.uint32.perform c = (.error e, c') →
      Reading.int32.perform c = (.error e, c')
  /-- Each form of a compact size is read, and no byte behind it. -/
  size : ∀ (n : Nat) (w rest : Bytes), CompactSize.Spells n w → c.rest = w ++ rest →
    Reading.size.perform c = (.ok (.number n), c.advance w.length) ∧
    (w.length = 1 ∨ w.length = 3 ∨ w.length = 5 ∨ w.length = 9)
  /-- A look ahead shows what a read of as many bytes would give, and stays in place. -/
  ahead : ∀ count : UInt64,
    (∃ bs c', (Reading.bytes count).perform c = (.ok (.bytes bs), c') ∧
      (Operation.peek count).perform c = (.ok (.ahead (some bs)), c)) ∨
    (∃ e c', (Reading.bytes count).perform c = (.error e, c') ∧
      (Operation.peek count).perform c = (.ok (.ahead none), c))
  refused : ∀ (op : Operation) (e : NumberError) (c' : Cursor), op.perform c = (.error e, c') →
    (∃ t, e = .truncated t ∧ t.offset + t.remaining = buf.length ∧ t.remaining < t.needed) ∨
    ∃ width order, op = .read (.number width order) ∧ ¬ (1 ≤ width.toNat ∧ width.toNat ≤ 8) ∧
      e = .invalidWidth width.toNat

theorem perform_words (op : Operation) {buf : Bytes} {p : Nat} (hbuf : buf.length < 2 ^ 64)
    (hp : p ≤ buf.length) : WordCursor.perform op ⟨buf, UInt64.ofNat p⟩ =
      some ((op.perform (place buf p)).1,
        ⟨buf, UInt64.ofNat (op.perform (place buf p)).2.position⟩) := by
  have hword : (UInt64.ofNat p).toNat = p :=
    UInt64.toNat_ofNat_of_lt' (Nat.lt_of_le_of_lt hp hbuf)
  have hview : WordCursor.view ⟨buf, UInt64.ofNat p⟩ = place buf p := by
    rw [WordCursor.view, hword, place]
  obtain ⟨⟨buf', q⟩, hstep, -, rfl, hview'⟩ := WordCursor.follows_perform op ⟨buf, UInt64.ofNat p⟩
    ⟨hbuf, hword.trans_le hp⟩
  rw [hview] at hstep hview'
  rw [hstep, ← hview', WordCursor.view, UInt64.ofNat_toNat]

theorem int32_of_uint32 (c : Cursor) :
    (∀ (n : Nat) (c' : Cursor), Reading.uint32.perform c = (.ok (.number n), c') →
      Reading.int32.perform c = (.ok (.signed ((n : Int).bmod (2 ^ 32))), c')) ∧
    ∀ (e : NumberError) (c' : Cursor), Reading.uint32.perform c = (.error e, c') →
      Reading.int32.perform c = (.error e, c') := by
  have hwidth : Reading.uint32.wordWidth? = some 4 := rfl
  rw [perform_of_wordWidth hwidth, int32_eq_answering]
  constructor
  · intro n c' h
    obtain ⟨bs, hbs, hn⟩ := answering_eq_ok_iff.1 h
    cases hn
    exact answering_of_ok hbs
  · intro e c' h
    obtain ⟨t, ht, rfl⟩ := answering_eq_error_iff.1 h
    exact answering_of_error ht

theorem peek_of_bytes (count : UInt64) (c : Cursor) :
    (∃ bs c', (Reading.bytes count).perform c = (.ok (.bytes bs), c') ∧
      (Operation.peek count).perform c = (.ok (.ahead (some bs)), c)) ∨
    (∃ e c', (Reading.bytes count).perform c = (.error e, c') ∧
      (Operation.peek count).perform c = (.ok (.ahead none), c)) := by
  by_cases h : count.toNat ≤ c.remaining
  · refine .inl ⟨_, _, answering_of_ok (if_pos h), ?_⟩
    simp only [Operation.perform, Cursor.peek, if_pos h]
  · refine .inr ⟨_, _, answering_of_error (if_neg h), ?_⟩
    simp only [Operation.perform, Cursor.peek, if_neg h]

theorem size_of_spells {c : Cursor} {n : Nat} {w rest : Bytes} (hw : CompactSize.Spells n w)
    (hrest : c.rest = w ++ rest) :
    Reading.size.perform c = (.ok (.number n), c.advance w.length) ∧
    (w.length = 1 ∨ w.length = 3 ∨ w.length = 5 ∨ w.length = 9) := by
  constructor
  · refine (Reading.size.perform_eq_ok_iff).2 ⟨w, rest, ⟨n, rfl, hw⟩, hrest, ?_⟩
    rw [advance, hrest, List.drop_left]
  · cases hw <;> simp [toLittleEndian_length]

/-- After any operations in a buffer the cursor stands exactly in the buffer, and whatever it does
next is exact. -/
theorem exactAt_after (buf : Bytes) (ops : List Operation) :
    ExactAt buf (after ops (start buf)) := by
  obtain ⟨p, hp, hplace⟩ := exists_place_after buf ops
  rw [hplace]
  have htotal : p + (place buf p).remaining = buf.length := by
    rw [place_remaining]
    omega
  exact {
    position_le := hp
    total := htotal
    atEnd_iff := List.isEmpty_iff_length_eq_zero
    inRange := fun hbuf op => perform_words op hbuf hp
    ok_iff := fun r a c' => perform_eq_ok_iff_slice r hp
    words := fun r width h => by
      rw [perform_of_wordWidth h, numberOf_eq_answering]
      · rfl
      · cases r <;> cases h <;> decide
    signed := int32_of_uint32 _
    size := fun n w rest => size_of_spells
    ahead := fun count => peek_of_bytes count _
    refused := fun op e c' h => by
      cases op with
      | peek count => cases h
      | read r =>
        rcases r.perform_eq_error h with ⟨t, ht, hsum, hlt⟩ | ⟨width, order, rfl, hw, he⟩
        · exact .inl ⟨t, ht, hsum.trans htotal, hlt⟩
        · exact .inr ⟨width, order, rfl, hw, he⟩ }

end TxScope.Cursor
