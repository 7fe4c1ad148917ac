import TxScope.Proofs.Reads

/-!
# Exact shortages

A reader that refuses its bytes names a place, how many bytes it wanted there and how many it found.
The report is exact (`Exact`) if it stays the same, but for the bytes found, as long as some of the
wanted bytes are missing, and the reader gets past the wanted bytes as soon as they are there.

`RefusesAt` is the law of a reader whose refusals are all exact. It also says behind which bytes,
read whole, the reader may stop. Reading one thing after another keeps the law (`RefusesAt.bind`),
and so does reading in turn, which stops behind fewer elements than were asked for
(`refuses_inTurn`).
-/

namespace TxScope

/-- The same report with `k` more bytes found. -/
def Truncated.found (t : Truncated) (k : Nat) : Truncated := { t with remaining := t.remaining + k }

namespace Reader

variable {ε ε' α β : Type} [Shortage ε] [Shortage ε']

/-- The reading gets as far as position `n`: it ends there or later, or what it misses begins there
or later. -/
def Reaches (n : Nat) : Except ε α × Cursor → Prop
  | (.ok _, c) => n ≤ c.position
  | (.error e, _) => ∃ t, Shortage.Reports e t ∧ n ≤ t.offset

theorem Reaches.mono {n m : Nat} (hnm : n ≤ m) :
    ∀ {r : Except ε α × Cursor}, Reaches m r → Reaches n r
  | (.ok _, _), h => Nat.le_trans hnm h
  | (.error _, _), ⟨t, ht, h⟩ => ⟨t, ht, Nat.le_trans hnm h⟩

/-- At position `p` the reader refuses `bs` with the report `t`, in the words `say`, and the report
is exact. -/
structure Exact (read : Reader ε α) (p : Nat) (bs : Bytes) (say : Truncated → ε)
    (t : Truncated) : Prop where
  reports : Shortage.Reports (say t) t
  total : t.offset + t.remaining = p + bs.length
  lacking : t.remaining < t.needed
  fewer : ∀ more : Bytes, t.remaining + more.length < t.needed →
    ∃ c, read ⟨p, bs ++ more⟩ = (.error (say (t.found more.length)), c)
  enough : ∀ more : Bytes, t.needed ≤ t.remaining + more.length →
    Reaches (t.offset + t.needed) (read ⟨p, bs ++ more⟩)

/-- Where a reading may stop: the words of the report, the bytes that were read whole, and the rest
of the bytes, in which something is missing. -/
abbrev Stops (ε : Type) := (Truncated → ε) → Bytes → Bytes → Prop

/-- At position `p` the reader never turns back, and each of its refusals is exact and stops where
`S` says. -/
structure RefusesAt (p : Nat) (read : Reader ε α) (S : Stops ε) : Prop where
  forward : ∀ bs, Reaches p (read ⟨p, bs⟩)
  exact : ∀ {bs e c}, read ⟨p, bs⟩ = (.error e, c) → ∃ say before rest t, bs = before ++ rest ∧
    S say before rest ∧ e = say t ∧ p + before.length ≤ t.offset ∧ Exact read p bs say t

/-- The stops of a reader that is one piece for those who read its reports. -/
def OnePiece (say : Truncated → ε) : Stops ε := fun say' before _ => say' = say ∧ before = []

section Laws

variable {p : Nat} {read : Reader ε α} {F : Spelling α} {S S' : Stops ε}

theorem RefusesAt.mono (h : RefusesAt p read S)
    (hS : ∀ say before rest, S say before rest → S' say before rest) : RefusesAt p read S' where
  forward := h.forward
  exact hr := by
    obtain ⟨say, before, rest, t, hbs, hstop, he, hoff, hex⟩ := h.exact hr
    exact ⟨say, before, rest, t, hbs, hS say before rest hstop, he, hoff, hex⟩

/-- What is read whole inside a piece need not be told. -/
theorem RefusesAt.onePiece {say : Truncated → ε} (h : RefusesAt p read S)
    (hS : ∀ say' before rest, S say' before rest → say' = say) :
    RefusesAt p read (OnePiece say) where
  forward := h.forward
  exact {bs e c} hr := by
    obtain ⟨say', before, rest, t, hbs, hstop, he, hoff, hex⟩ := h.exact hr
    refine ⟨say', [], bs, t, rfl, ⟨hS say' before rest hstop, rfl⟩, he, ?_, hex⟩
    exact Nat.le_trans (Nat.le_add_right p _) hoff

theorem refusesAt_pure (x : α) : RefusesAt p (pure x : Reader ε α) S where
  forward _ := Nat.le_refl p
  exact hr := by cases hr

theorem refusesAt_position : RefusesAt p (position : Reader ε Nat) S where
  forward _ := Nat.le_refl p
  exact hr := by cases hr

/-- A reading of `n` bytes that are there or are not. -/
theorem refusesAt_of_piece {read : Reader Truncated α} {n : Nat}
    (hok : ∀ c : Cursor, n ≤ c.remaining → ∃ x, read c = (.ok x, c.advance n))
    (herr : ∀ c : Cursor, ¬ n ≤ c.remaining → read c = (.error (c.shortage n), c)) :
    RefusesAt p read (OnePiece id) where
  forward bs := by
    by_cases h : n ≤ bs.length
    · obtain ⟨x, hx⟩ := hok ⟨p, bs⟩ h
      rw [hx]
      exact Nat.le_add_right p n
    · rw [herr ⟨p, bs⟩ h]
      exact ⟨_, rfl, Nat.le_refl p⟩
  exact {bs e c} hr := by
    by_cases h : n ≤ bs.length
    · obtain ⟨x, hx⟩ := hok ⟨p, bs⟩ h
      rw [hx] at hr
      cases hr
    · rw [herr ⟨p, bs⟩ h] at hr
      cases hr
      refine ⟨id, [], bs, ⟨p, n, bs.length⟩, rfl, ⟨rfl, rfl⟩, rfl, Nat.le_refl p, ?_⟩
      refine ⟨rfl, rfl, Nat.lt_of_not_le h, fun more hmore => ?_, fun more hmore => ?_⟩
      · refine ⟨⟨p, bs ++ more⟩, ?_⟩
        rw [herr ⟨p, bs ++ more⟩ (by simpa [Cursor.remaining] using hmore)]
        simp [Cursor.shortage, Cursor.remaining, Truncated.found]
      · obtain ⟨x, hx⟩ := hok ⟨p, bs ++ more⟩ (by simpa [Cursor.remaining] using hmore)
        rw [hx]
        exact Nat.le_refl (p + n)

/-! ### One reading after another -/

section Bind

variable {next : α → Reader ε β} {say : Truncated → ε} {t : Truncated} {bs : Bytes}

theorem Reaches.bind {n : Nat} (hr : ReadsAt p read F)
    (hn : ∀ x v, F x v → ∀ rest, Reaches (p + v.length) (next x ⟨p + v.length, rest⟩))
    (h : Reaches n (read ⟨p, bs⟩)) : Reaches n ((read >>= next) ⟨p, bs⟩) := by
  rcases hr.short bs with ⟨x, v, rest, hv, rfl⟩ | ⟨⟨e, t, c, he, -⟩, -⟩
  · rw [hr.whole hv rest] at h
    rw [bind_ok (hr.whole hv rest)]
    exact (hn x v hv rest).mono h
  · rw [he] at h
    rw [bind_error he]
    exact h

theorem Exact.bind_left (h : Exact read p bs say t) (hr : ReadsAt p read F)
    (hn : ∀ x v, F x v → ∀ rest, Reaches (p + v.length) (next x ⟨p + v.length, rest⟩)) :
    Exact (read >>= next) p bs say t where
  reports := h.reports
  total := h.total
  lacking := h.lacking
  fewer more hmore := by
    obtain ⟨c, hc⟩ := h.fewer more hmore
    exact ⟨c, bind_error hc⟩
  enough more hmore := (h.enough more hmore).bind hr hn

theorem Exact.bind_right {x : α} {v rest : Bytes} (hr : ReadsAt p read F) (hv : F x v)
    (h : Exact (next x) (p + v.length) rest say t) :
    Exact (read >>= next) p (v ++ rest) say t where
  reports := h.reports
  total := by rw [h.total, List.length_append, Nat.add_assoc]
  lacking := h.lacking
  fewer more hmore := by
    rw [List.append_assoc, bind_ok (hr.whole hv _)]
    exact h.fewer more hmore
  enough more hmore := by
    rw [List.append_assoc, bind_ok (hr.whole hv _)]
    exact h.enough more hmore

/-- Two readings stop where the first one does, or behind a word of the first where the second one
does. -/
theorem RefusesAt.bind {T : α → Bytes → Stops ε} (hr : ReadsAt p read F) (hs : RefusesAt p read S)
    (hn : ∀ x v, F x v → RefusesAt (p + v.length) (next x) (T x v)) :
    RefusesAt p (read >>= next) fun say before rest => S say before rest ∨
      ∃ x v b, F x v ∧ T x v say b rest ∧ before = v ++ b where
  forward bs := (hs.forward bs).bind hr fun x v hv => (hn x v hv).forward
  exact {bs e c} h := by
    rcases hr.short bs with ⟨x, v, rest, hv, rfl⟩ | ⟨⟨e', t', c', he', -⟩, -⟩
    · rw [bind_ok (hr.whole hv rest)] at h
      obtain ⟨say, before, rest', t, rfl, hstop, he, hoff, hex⟩ := (hn x v hv).exact h
      refine ⟨say, v ++ before, rest', t, by simp, .inr ⟨x, v, before, hv, hstop, rfl⟩, he, ?_,
        hex.bind_right hr hv⟩
      rw [List.length_append]
      omega
    · rw [bind_error he'] at h
      cases h
      obtain ⟨say, before, rest, t, hbs, hstop, he, hoff, hex⟩ := hs.exact he'
      exact ⟨say, before, rest, t, hbs, .inl hstop, he, hoff,
        hex.bind_left hr fun x v hv => (hn x v hv).forward⟩

/-- Readings with reports in the same words are one piece. -/
theorem RefusesAt.bind_onePiece (hr : ReadsAt p read F) (hs : RefusesAt p read (OnePiece say))
    (hn : ∀ x v, F x v → RefusesAt (p + v.length) (next x) (OnePiece say)) :
    RefusesAt p (read >>= next) (OnePiece say) := by
  refine (RefusesAt.bind hr hs hn).onePiece ?_
  rintro say' before rest (⟨h, -⟩ | ⟨x, v, b, -, ⟨h, -⟩, -⟩)
  · exact h
  · exact h

theorem RefusesAt.map (hr : ReadsAt p read F) (hs : RefusesAt p read S) (f : α → β) :
    RefusesAt p (f <$> read) S := by
  have hbind : RefusesAt p (read >>= fun x => pure (f x)) _ :=
    RefusesAt.bind hr hs fun x v _ => refusesAt_pure (S := fun _ _ _ => False) (f x)
  refine hbind.mono fun say before rest h => ?_
  rcases h with h | ⟨x, v, b, -, h, -⟩
  · exact h
  · exact h.elim

end Bind

/-! ### Other words, other failures -/

theorem Reaches.mapError {f : ε → ε'} (hf : ∀ e t, Shortage.Reports e t → Shortage.Reports (f e) t)
    {n : Nat} {c : Cursor} (h : Reaches n (read c)) : Reaches n (read.mapError f c) := by
  unfold Reader.mapError
  split
  · rename_i x c' hok
    rw [hok] at h
    exact h
  · rename_i e c' herr
    rw [herr] at h
    obtain ⟨t, ht, hle⟩ := h
    exact ⟨t, hf e t ht, hle⟩

theorem RefusesAt.mapError (h : RefusesAt p read S) {f : ε → ε'}
    (hf : ∀ e t, Shortage.Reports e t → Shortage.Reports (f e) t) :
    RefusesAt p (read.mapError f) fun say before rest =>
      ∃ say', S say' before rest ∧ say = f ∘ say' where
  forward bs := (h.forward bs).mapError hf
  exact {bs e c} hr := by
    unfold Reader.mapError at hr
    split at hr
    · cases hr
    · rename_i e' c' herr
      cases hr
      obtain ⟨say, before, rest, t, hbs, hstop, rfl, hoff, hex⟩ := h.exact herr
      refine ⟨f ∘ say, before, rest, t, hbs, ⟨say, hstop, rfl⟩, rfl, hoff, hf _ _ hex.reports,
        hex.total, hex.lacking, fun more hmore => ?_, fun more hmore => ?_⟩
      · obtain ⟨c, hc⟩ := hex.fewer more hmore
        exact ⟨c, by simp only [Reader.mapError, hc, Function.comp_apply]⟩
      · exact (hex.enough more hmore).mapError hf

/-- Where a reader leaves the cursor after a failure is of no account here either. -/
theorem RefusesAt.of_agree {read' : Reader ε α} (h : RefusesAt p read S)
    (hok : ∀ {c x c'}, read c = (.ok x, c') → read' c = (.ok x, c'))
    (herr : ∀ {c e c'}, read c = (.error e, c') → ∃ c'', read' c = (.error e, c'')) :
    RefusesAt p read' S := by
  have hreach : ∀ {n c}, Reaches n (read c) → Reaches n (read' c) := by
    intro n c h
    rcases hr : read c with ⟨e | x, c'⟩ <;> rw [hr] at h
    · obtain ⟨c'', hr'⟩ := herr hr
      rw [hr']
      exact h
    · rw [hok hr]
      exact h
  refine ⟨fun bs => hreach (h.forward bs), fun {bs e c} hr' => ?_⟩
  rcases hr : read ⟨p, bs⟩ with ⟨e' | x, c'⟩
  · obtain ⟨c'', heq⟩ := herr hr
    rw [hr'] at heq
    cases heq
    obtain ⟨say, before, rest, t, hbs, hstop, he, hoff, hex⟩ := h.exact hr
    refine ⟨say, before, rest, t, hbs, hstop, he, hoff, hex.reports, hex.total, hex.lacking,
      fun more hmore => ?_, fun more hmore => hreach (hex.enough more hmore)⟩
    obtain ⟨c, hc⟩ := hex.fewer more hmore
    exact herr hc
  · rw [hok hr] at hr'
    cases hr'

/-! ### Reading in turn -/

section Loops

variable {element : Nat → Reader ε α} {T : Nat → Stops ε}

/-- Reading in turn stops behind fewer elements than were asked for, in the next one. -/
theorem refuses_inTurn (he : ∀ i, Reads (element i) F) (hT : ∀ i p, RefusesAt p (element i) (T i)) :
    ∀ (count index p : Nat), RefusesAt p (inTurn element count index) fun say before rest =>
      ∃ xs w b, xs.length < count ∧ F.Each xs w ∧ T (index + xs.length) say b rest ∧ before = w ++ b
  | 0, index, p => refusesAt_pure []
  | count + 1, index, p => by
    refine (RefusesAt.bind (he index p) (hT index p) fun x v _ =>
      RefusesAt.bind (reads_inTurn he count (index + 1) (p + v.length))
        (refuses_inTurn he hT count (index + 1) (p + v.length)) fun xs _ _ =>
        refusesAt_pure (x :: xs) (S := fun _ _ _ => False)).mono ?_
    rintro say before rest
      (h | ⟨x, v, _, hv, ⟨xs, w, b, hlt, hw, h, rfl⟩ | ⟨_, _, _, _, h, -⟩, rfl⟩)
    · exact ⟨[], [], before, Nat.succ_pos count, .nil, h, rfl⟩
    · refine ⟨x :: xs, v ++ w, b, Nat.succ_lt_succ hlt, .cons hv hw, ?_, by simp⟩
      rwa [List.length_cons, Nat.add_comm xs.length, ← Nat.add_assoc]
    · exact h.elim

end Loops

end Laws

section Fields

/-- Every refusal of the reader is exact, and none tells where inside it stopped. -/
def Refuses (read : Reader Truncated α) : Prop := ∀ p, RefusesAt p read (OnePiece id)

theorem refuses_bytes (n : Nat) : Refuses (bytes n) := fun _ =>
  refusesAt_of_piece (fun _ h => ⟨_, if_pos h⟩) fun _ h => if_neg h

theorem refuses_number (width : Nat) : Refuses (number width) := fun p =>
  RefusesAt.map (reads_bytes width p) (refuses_bytes width p) littleEndian

/-- A number that is kept in a type of its own. -/
theorem refuses_word {width : Nat} (ofNat : Nat → α) : Refuses (ofNat <$> number width) := fun p =>
  RefusesAt.map (reads_number width p) (refuses_number width p) ofNat

end Fields

end Reader

end TxScope
