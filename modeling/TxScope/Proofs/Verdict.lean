import TxScope.Proofs.Layout

/-!
# The three verdicts

No transaction continues another one (`Decodes.eq_nil_of_append`). So a byte string that is not
empty is a transaction, or a transaction with bytes behind it, or the beginning of a transaction,
and only one of the three; decoding says which (`decode_cases`).
-/

namespace TxScope.Transaction

open Reader

/-- The bytes are those of a transaction. -/
def Decodes (raw : Bytes) : Prop := ∃ tx, decode raw = .ok tx

/-- Without their last `k` bytes, which are one or more, the bytes are those of a transaction. -/
def Overlong (raw : Bytes) (k : Nat) : Prop :=
  1 ≤ k ∧ k ≤ raw.length ∧ Decodes (raw.take (raw.length - k))

/-- One or more further bytes would make the bytes those of a transaction. -/
def Unfinished (raw : Bytes) : Prop := ∃ more, more ≠ [] ∧ Decodes (raw ++ more)

theorem decodes_iff {raw : Bytes} :
    Decodes raw ↔ ∃ (l : Layout) (tx : Transaction), l.Spells tx ∧ raw = l.bytes := by
  constructor
  · rintro ⟨tx, h⟩
    obtain ⟨-, l, hl, hraw⟩ := layout_of_decode h
    exact ⟨l, tx, hl, hraw⟩
  · rintro ⟨l, tx, hl, rfl⟩
    exact ⟨_, decode_of_layout (hl.withRaw l.bytes) rfl⟩

/-- Where two transactions begin the same bytes, they are the same bytes. -/
theorem Decodes.eq_of_append {v w rest rest' : Bytes} (hv : Decodes v) (hw : Decodes w)
    (h : v ++ rest = w ++ rest') : v = w := by
  obtain ⟨l, tx, hl, rfl⟩ := decodes_iff.1 hv
  obtain ⟨l', tx', hl', rfl⟩ := decodes_iff.1 hw
  exact ((readsAt_read []).unique ⟨rfl, l, hl.withRaw [], rfl⟩ ⟨rfl, l', hl'.withRaw [], rfl⟩ h).2.1

theorem Decodes.eq_nil_of_append {raw more : Bytes} (h : Decodes raw) (h' : Decodes (raw ++ more)) :
    more = [] := by
  have heq : raw = raw ++ more := h.eq_of_append h' (List.append_nil (raw ++ more)).symm
  exact List.append_right_eq_self.1 heq.symm

theorem decode_append {raw more : Bytes} (h : Decodes raw) (hm : more ≠ []) :
    decode (raw ++ more) = .error (.trailingBytes more.length) := by
  obtain ⟨l, tx, hl, rfl⟩ := decodes_iff.1 h
  have hread := (readsAt_read (l.bytes ++ more)).whole ⟨rfl, l, hl.withRaw _, rfl⟩ more
  have hne : (l.bytes ++ more).isEmpty = false := by simp [hm]
  have hend : more.isEmpty = false := List.isEmpty_eq_false_iff.2 hm
  simp only [decode_eq, hne, Bool.false_eq_true, Cursor.start, hread, Cursor.atEnd, hend]
  rfl

theorem decode_cases {raw : Bytes} (hne : raw ≠ []) :
    Decodes raw ∨ (∃ w more, raw = w ++ more ∧ Decodes w ∧ more ≠ []) ∨
      Unfinished raw ∧ ∃ stage t, decode raw = .error (.truncated stage t) := by
  have hfull : raw.isEmpty = false := List.isEmpty_eq_false_iff.2 hne
  rcases (readsAt_read raw).short raw with
    ⟨tx, w, more, ⟨-, l, hl, rfl⟩, hraw⟩ | ⟨⟨e, t, c, he, stage, rfl⟩, tx, more, -, l, hl, hword⟩
  · have hw : Decodes l.bytes := decodes_iff.2 ⟨l, tx, hl, rfl⟩
    by_cases hm : more = []
    · subst hm
      rw [List.append_nil] at hraw
      exact .inl (hraw ▸ hw)
    · exact .inr (.inl ⟨_, more, hraw, hw, hm⟩)
  · have herr : decode raw = .error (.truncated stage t) := by
      simp only [decode_eq, hfull, Bool.false_eq_true, Cursor.start, he]
      rfl
    have hword : Decodes (raw ++ more) := decodes_iff.2 ⟨l, tx, hl, hword⟩
    refine .inr (.inr ⟨⟨more, ?_, hword⟩, stage, t, herr⟩)
    rintro rfl
    obtain ⟨tx', htx'⟩ := hword
    rw [List.append_nil, herr] at htx'
    cases htx'

theorem overlong_iff {raw : Bytes} {k : Nat} (hne : raw ≠ []) :
    Overlong raw k ↔ decode raw = .error (.trailingBytes k) := by
  constructor
  · rintro ⟨hk, hle, hw⟩
    have hlen : (raw.drop (raw.length - k)).length = k := by
      rw [List.length_drop]
      omega
    have hm : raw.drop (raw.length - k) ≠ [] := List.ne_nil_of_length_pos (by omega)
    have htrail := decode_append hw hm
    rwa [List.take_append_drop, hlen] at htrail
  · intro htrail
    rcases decode_cases hne with ⟨tx, hok⟩ | ⟨w, more, rfl, hw, hm⟩ | ⟨-, stage, t, herr⟩
    · rw [hok] at htrail
      cases htrail
    · rw [decode_append hw hm] at htrail
      cases htrail
      exact ⟨List.length_pos_iff.2 hm, by simp, by simpa using hw⟩
    · rw [herr] at htrail
      cases htrail

theorem unfinished_iff {raw : Bytes} (hne : raw ≠ []) :
    Unfinished raw ↔ ∃ stage t, decode raw = .error (.truncated stage t) := by
  constructor
  · rintro ⟨more, hm, hword⟩
    rcases decode_cases hne with hraw | ⟨w, rest, rfl, hw, hrest⟩ | ⟨-, herr⟩
    · exact absurd (hraw.eq_nil_of_append hword) hm
    · rw [List.append_assoc] at hword
      exact absurd (List.append_eq_nil_iff.1 (hw.eq_nil_of_append hword)).1 hrest
    · exact herr
  · rintro ⟨stage, t, herr⟩
    rcases decode_cases hne with ⟨tx, hok⟩ | ⟨w, more, rfl, hw, hm⟩ | ⟨hmore, -⟩
    · rw [hok] at herr
      cases herr
    · rw [decode_append hw hm] at herr
      cases herr
    · exact hmore

theorem decode_eq_emptyInput_iff {raw : Bytes} : decode raw = .error .emptyInput ↔ raw = [] := by
  constructor
  · intro hempty
    by_contra hne
    rcases decode_cases hne with ⟨tx, h⟩ | ⟨w, more, rfl, hw, hm⟩ | ⟨-, stage, t, h⟩
    · rw [h] at hempty
      cases hempty
    · rw [decode_append hw hm] at hempty
      cases hempty
    · rw [h] at hempty
      cases hempty
  · rintro rfl
    rfl

/-- The verdict on bytes that are not empty is one of three: they are a transaction; or a
transaction and `k` bytes behind it, for one `k`; or the beginning of a transaction. -/
theorem decode_trichotomy :
    (∀ raw, decode raw = .error .emptyInput ↔ raw = []) ∧
    (∀ raw, raw ≠ [] →
      (Decodes raw ∧ (¬ ∃ k, Overlong raw k) ∧ ¬ Unfinished raw ∨
        ¬ Decodes raw ∧ (∃! k, Overlong raw k) ∧ ¬ Unfinished raw ∨
        ¬ Decodes raw ∧ (¬ ∃ k, Overlong raw k) ∧ Unfinished raw) ∧
      (∀ k, Overlong raw k ↔ decode raw = .error (.trailingBytes k)) ∧
      (Unfinished raw ↔ ∃ stage t, decode raw = .error (.truncated stage t))) ∧
    (∀ raw more, raw ≠ [] → more ≠ [] → Decodes (raw ++ more) →
      ∃ stage t, decode raw = .error (.truncated stage t)) ∧
    (∀ raw more, Decodes raw → more ≠ [] →
      decode (raw ++ more) = .error (.trailingBytes more.length)) ∧
    ∀ raw more, Decodes raw → Decodes (raw ++ more) → more = [] := by
  refine ⟨fun raw => decode_eq_emptyInput_iff, fun raw hne => ⟨?_, fun k => overlong_iff hne,
    unfinished_iff hne⟩, fun raw more hne hm h => (unfinished_iff hne).1 ⟨more, hm, h⟩,
    fun raw more h hm => decode_append h hm, fun raw more h h' => h.eq_nil_of_append h'⟩
  simp only [Decodes, overlong_iff hne, unfinished_iff hne]
  rcases decode_cases hne with ⟨tx, h⟩ | ⟨w, more, rfl, hw, hm⟩ | ⟨-, stage, t, h⟩
  · simp [h]
  · simp [decode_append hw hm]
  · simp [h]

/-- Half a marker is not a transaction yet, although it could be a plain count; with the other half
and the fields it is one, and two more bytes are too many. -/
theorem decode_trichotomy_half_marker :
    Unfinished [1, 0, 0, 0, 0] ∧
    (∃ stage t, decode [1, 0, 0, 0, 0] = .error (.truncated stage t)) ∧
    decode ([1, 0, 0, 0, 0] ++ [1, 0, 0, 0, 0, 0, 0] ++ [9, 9]) = .error (.trailingBytes 2) ∧
    ¬ Decodes ([1, 0, 0, 0, 0] ++ [1, 0, 0, 0, 0, 0, 0] ++ [9, 9]) := by
  have hword : Decodes ([1, 0, 0, 0, 0] ++ [1, 0, 0, 0, 0, 0, 0]) := ⟨_, rfl⟩
  have hcut := decode_trichotomy.2.2.1 [1, 0, 0, 0, 0] _ (by decide) (by decide) hword
  refine ⟨((decode_trichotomy.2.1 _ (by decide)).2.2).2 hcut, hcut, ?_, fun hmore => ?_⟩
  · exact decode_trichotomy.2.2.2.1 _ [9, 9] hword (by decide)
  · exact absurd (decode_trichotomy.2.2.2.2 _ [9, 9] hword hmore) (by decide)

end TxScope.Transaction
