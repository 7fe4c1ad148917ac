import TxScope.Proofs.Bytes
import TxScope.Transaction.Decode

/-!
# Reading a spelling

A `Spelling` says which byte strings spell which values. A reader reads a spelling if it takes
every word of it off the front of what remains, whatever follows, and if every byte string that
does not begin with a word is a word broken off: the reader reports that bytes are missing, and
some more bytes would complete the word (`ReadsAt`). So a reader of a spelling accepts its words
and nothing else (`ReadsAt.of_ok`), and no word continues another one (`ReadsAt.unique`).

Reading one spelling after another reads the words put together (`ReadsAt.bind`), and reading in
turn reads as many words as were asked for (`reads_inTurn`).
-/

namespace TxScope

/-- Which byte strings spell a value. -/
abbrev Spelling (α : Type) := α → Bytes → Prop

/-- The words of several values, one after the other. -/
inductive Spelling.Each {α : Type} (F : Spelling α) : Spelling (List α)
  | nil : Each F [] []
  | cons {x : α} {xs : List α} {v w : Bytes} : F x v → Each F xs w → Each F (x :: xs) (v ++ w)

theorem Spelling.each_map {α β : Type} {F : Spelling β} {f : α → β} :
    ∀ {xs : List α} {w : Bytes}, F.Each (xs.map f) w ↔ Spelling.Each (fun x => F (f x)) xs w
  | [], w => by
    constructor <;> rintro ⟨⟩ <;> exact .nil
  | x :: xs, w => by
    constructor
    · rintro (_ | ⟨hv, hw⟩)
      exact .cons hv (Spelling.each_map.1 hw)
    · rintro (_ | ⟨hv, hw⟩)
      exact .cons hv (Spelling.each_map.2 hw)

theorem Spelling.each_and {α : Type} {F : Spelling α} {P : α → Prop} :
    ∀ {xs : List α} {w : Bytes},
      Spelling.Each (fun x w => F x w ∧ P x) xs w ↔ F.Each xs w ∧ ∀ x ∈ xs, P x
  | [], w => by
    constructor
    · rintro ⟨⟩
      exact ⟨.nil, by simp⟩
    · rintro ⟨⟨⟩, -⟩
      exact .nil
  | x :: xs, w => by
    constructor
    · rintro (_ | ⟨⟨hv, hx⟩, hw⟩)
      obtain ⟨hw, hxs⟩ := Spelling.each_and.1 hw
      exact ⟨.cons hv hw, List.forall_mem_cons.2 ⟨hx, hxs⟩⟩
    · rintro ⟨_ | ⟨hv, hw⟩, hxs⟩
      obtain ⟨hx, hxs⟩ := List.forall_mem_cons.1 hxs
      exact .cons ⟨hv, hx⟩ (Spelling.each_and.2 ⟨hw, hxs⟩)

/-- Errors that say of a byte string that it is short, and how much. -/
class Shortage (ε : Type) where
  Reports : ε → Truncated → Prop

instance : Shortage Truncated where
  Reports e t := e = t

instance : Shortage DecodeError where
  Reports e t := ∃ stage, e = .truncated stage t

namespace Reader

variable {ε ε' α β : Type}

theorem bind_ok {read : Reader ε α} {next : α → Reader ε β} {c c' : Cursor} {x : α}
    (h : read c = (.ok x, c')) : (read >>= next) c = next x c' := by
  simp only [bind, h]

theorem bind_error {read : Reader ε α} {next : α → Reader ε β} {c c' : Cursor} {e : ε}
    (h : read c = (.error e, c')) : (read >>= next) c = (.error e, c') := by
  simp only [bind, h]

theorem map_bind {γ : Type} (f : β → γ) (read : Reader ε α) (next : α → Reader ε β) :
    f <$> (read >>= next) = read >>= fun x => f <$> next x := by
  funext c
  simp only [Functor.map, bind]
  rcases read c with ⟨_ | _, _⟩ <;> rfl

/-- At position `p` the reader takes the words of `F`, and refuses what is only part of a word. -/
structure ReadsAt [Shortage ε] (p : Nat) (read : Reader ε α) (F : Spelling α) : Prop where
  whole : ∀ {x : α} {w : Bytes}, F x w → ∀ rest,
    read ⟨p, w ++ rest⟩ = (.ok x, ⟨p + w.length, rest⟩)
  short : ∀ bs : Bytes, (∃ x w rest, F x w ∧ bs = w ++ rest) ∨
    (∃ e t c, read ⟨p, bs⟩ = (.error e, c) ∧ Shortage.Reports e t) ∧ ∃ x more, F x (bs ++ more)

/-- The reader reads the spelling wherever it stands. -/
def Reads [Shortage ε] (read : Reader ε α) (F : Spelling α) : Prop := ∀ p, ReadsAt p read F

section Laws

variable [Shortage ε] [Shortage ε'] {p : Nat} {read : Reader ε α} {F : Spelling α}

/-- What was read is a word of the spelling, and what remains is what stood behind it. -/
theorem ReadsAt.of_ok (h : ReadsAt p read F) {bs : Bytes} {x : α} {c : Cursor}
    (hr : read ⟨p, bs⟩ = (.ok x, c)) :
    ∃ w rest, F x w ∧ bs = w ++ rest ∧ c = ⟨p + w.length, rest⟩ := by
  rcases h.short bs with ⟨y, w, rest, hw, rfl⟩ | ⟨⟨e, t, c', he, -⟩, -⟩
  · rw [h.whole hw rest] at hr
    cases hr
    exact ⟨w, rest, hw, rfl, rfl⟩
  · rw [he] at hr
    cases hr

/-- Two words at the front of the same bytes are one word, and spell one value. -/
theorem ReadsAt.unique (h : ReadsAt p read F) {x y : α} {v w rest rest' : Bytes} (hv : F x v)
    (hw : F y w) (heq : v ++ rest = w ++ rest') : x = y ∧ v = w ∧ rest = rest' := by
  have h1 := h.whole hv rest
  have h2 := h.whole hw rest'
  rw [heq, h2] at h1
  simp only [Prod.mk.injEq, Except.ok.injEq, Cursor.mk.injEq] at h1
  obtain ⟨hx, -, hrest⟩ := h1
  subst hrest
  exact ⟨hx.symm, List.append_cancel_right heq, rfl⟩

theorem ReadsAt.exists_word (h : ReadsAt p read F) : ∃ x w, F x w := by
  rcases h.short [] with ⟨x, w, -, hw, -⟩ | ⟨-, x, w, hw⟩
  · exact ⟨x, w, hw⟩
  · exact ⟨x, _, hw⟩

theorem ReadsAt.congr {G : Spelling α} (h : ReadsAt p read F) (hFG : ∀ x w, F x w ↔ G x w) :
    ReadsAt p read G := by
  have : F = G := funext fun x => funext fun w => propext (hFG x w)
  exact this ▸ h

theorem readsAt_pure (x : α) :
    ReadsAt p (pure x : Reader ε α) fun y w => y = x ∧ w = [] where
  whole := by
    rintro _ _ ⟨rfl, rfl⟩ rest
    rfl
  short bs := .inl ⟨x, [], bs, ⟨rfl, rfl⟩, rfl⟩

theorem readsAt_position :
    ReadsAt p (position : Reader ε Nat) fun n w => n = p ∧ w = [] where
  whole := by
    rintro _ _ ⟨rfl, rfl⟩ rest
    rfl
  short bs := .inl ⟨p, [], bs, ⟨rfl, rfl⟩, rfl⟩

/-- One spelling after another: a word of the first, then a word of what the first one's value and
word call for. -/
theorem ReadsAt.bind {next : α → Reader ε β} {G : α → Bytes → Spelling β} (hr : ReadsAt p read F)
    (hn : ∀ x v, F x v → ReadsAt (p + v.length) (next x) (G x v)) :
    ReadsAt p (read >>= next) fun y u => ∃ x v w, F x v ∧ G x v y w ∧ u = v ++ w where
  whole := by
    rintro y _ ⟨x, v, w, hv, hw, rfl⟩ rest
    rw [List.append_assoc, bind_ok (hr.whole hv _), (hn x v hv).whole hw, List.length_append,
      Nat.add_assoc]
  short bs := by
    rcases hr.short bs with ⟨x, v, rest, hv, rfl⟩ | ⟨⟨e, t, c, he, ht⟩, x, more, hx⟩
    · rcases (hn x v hv).short rest with ⟨y, w, rest', hw, rfl⟩ | ⟨⟨e, t, c, he, ht⟩, y, more, hy⟩
      · exact .inl ⟨y, v ++ w, rest', ⟨x, v, w, hv, hw, rfl⟩, by simp⟩
      · refine .inr ⟨⟨e, t, c, ?_, ht⟩, y, more, x, v, _, hv, hy, by simp⟩
        rw [bind_ok (hr.whole hv rest), he]
    · obtain ⟨y, w, hw⟩ := (hn x _ hx).exists_word
      exact .inr ⟨⟨e, t, c, bind_error he, ht⟩, y, more ++ w, x, _, w, hx, hw, by simp⟩

theorem ReadsAt.map (hr : ReadsAt p read F) (f : α → β) :
    ReadsAt p (f <$> read) fun y w => ∃ x, F x w ∧ f x = y := by
  have hbind : ReadsAt p (read >>= fun x => pure (f x)) _ :=
    hr.bind fun x v _ => readsAt_pure (f x)
  refine hbind.congr fun y w => ?_
  constructor
  · rintro ⟨x, v, _, hv, ⟨rfl, rfl⟩, rfl⟩
    exact ⟨x, by simpa using hv, rfl⟩
  · rintro ⟨x, hx, rfl⟩
    exact ⟨x, w, [], hx, ⟨rfl, rfl⟩, by simp⟩

theorem ReadsAt.mapError (hr : ReadsAt p read F) {f : ε → ε'}
    (hf : ∀ e t, Shortage.Reports e t → Shortage.Reports (f e) t) :
    ReadsAt p (read.mapError f) F where
  whole hw rest := by
    simp only [Reader.mapError, hr.whole hw rest]
  short bs := by
    refine (hr.short bs).imp id (And.imp ?_ id)
    rintro ⟨e, t, c, he, ht⟩
    exact ⟨f e, t, c, by simp only [Reader.mapError, he], hf e t ht⟩

/-- Where a reader leaves the cursor after a failure is of no account. -/
theorem ReadsAt.of_agree {read' : Reader ε α} (hr : ReadsAt p read F)
    (hok : ∀ {c x c'}, read c = (.ok x, c') → read' c = (.ok x, c'))
    (herr : ∀ {c e c'}, read c = (.error e, c') → ∃ c'', read' c = (.error e, c'')) :
    ReadsAt p read' F where
  whole hw rest := hok (hr.whole hw rest)
  short bs := by
    refine (hr.short bs).imp id (And.imp ?_ id)
    rintro ⟨e, t, c, he, ht⟩
    obtain ⟨c', he'⟩ := herr he
    exact ⟨e, t, c', he', ht⟩

end Laws

section Fields

/-- Bytes of a fixed number spell themselves. -/
theorem reads_bytes (n : Nat) : Reads (bytes n) fun bs w => w = bs ∧ bs.length = n := by
  refine fun p => ⟨?_, fun bs => ?_⟩
  · rintro _ bs ⟨rfl, rfl⟩ rest
    simp [bytes, Cursor.remaining, Cursor.advance]
  · by_cases h : n ≤ bs.length
    · exact .inl ⟨bs.take n, bs.take n, bs.drop n, ⟨rfl, List.length_take_of_le h⟩, by simp⟩
    · refine .inr ⟨⟨Cursor.shortage ⟨p, bs⟩ n, _, ⟨p, bs⟩, if_neg h, rfl⟩,
        bs ++ List.replicate (n - bs.length) 0, List.replicate (n - bs.length) 0, rfl, ?_⟩
      simp only [List.length_append, List.length_replicate]
      omega

theorem reads_number (width : Nat) :
    Reads (number width) fun n w => n < 256 ^ width ∧ w = toLittleEndian width n := by
  refine fun p => ((reads_bytes width p).map littleEndian).congr fun n w => ?_
  constructor
  · rintro ⟨bs, ⟨rfl, rfl⟩, rfl⟩
    exact ⟨littleEndian_lt w, (toLittleEndian_littleEndian w).symm⟩
  · rintro ⟨hn, rfl⟩
    exact ⟨_, ⟨rfl, toLittleEndian_length width n⟩, littleEndian_toLittleEndian hn⟩

/-- A reader of words: the number is kept in a type of its own, by `ofNat` and `toNat`. -/
theorem reads_word {α : Type} {width : Nat} (ofNat : Nat → α) (toNat : α → Nat)
    (hlt : ∀ x, toNat x < 256 ^ width) (hof : ∀ x, ofNat (toNat x) = x)
    (hto : ∀ n < 256 ^ width, toNat (ofNat n) = n) :
    Reads (ofNat <$> number width) fun x w => w = toLittleEndian width (toNat x) := by
  refine fun p => ((reads_number width p).map ofNat).congr fun x w => ?_
  constructor
  · rintro ⟨n, ⟨hn, rfl⟩, rfl⟩
    rw [hto n hn]
  · rintro rfl
    exact ⟨toNat x, ⟨hlt x, rfl⟩, hof x⟩

theorem reads_uint8 : Reads uint8 fun b w => w = [b] := by
  refine fun p => (reads_word UInt8.ofNat UInt8.toNat (fun b => b.toNat_lt) (fun b => by simp)
    (fun n hn => UInt8.toNat_ofNat_of_lt' hn) p).congr fun b w => ?_
  simp [toLittleEndian]

theorem reads_uint32 : Reads uint32 fun n w => w = toLittleEndian 4 n.toNat :=
  reads_word UInt32.ofNat UInt32.toNat (fun n => n.toNat_lt) (fun n => by simp) fun _ hn =>
    UInt32.toNat_ofNat_of_lt' hn

theorem reads_uint64 : Reads uint64 fun n w => w = toLittleEndian 8 n.toNat :=
  reads_word UInt64.ofNat UInt64.toNat (fun n => n.toNat_lt) (fun n => by simp) fun _ hn =>
    UInt64.toNat_ofNat_of_lt' hn

end Fields

section Loops

variable [Shortage ε] {F : Spelling α} {element : Nat → Reader ε α}

/-- Elements read one after the other; the first has number `index`. -/
def inTurn (element : Nat → Reader ε α) : (count index : Nat) → Reader ε (List α)
  | 0, _ => pure []
  | count + 1, index => do
    let x ← element index
    let xs ← inTurn element count (index + 1)
    return x :: xs

theorem reads_inTurn (he : ∀ i, Reads (element i) F) : ∀ count index : Nat,
    Reads (inTurn element count index) fun xs w => xs.length = count ∧ F.Each xs w
  | 0, index => fun p => (readsAt_pure []).congr fun xs w => by
    constructor
    · rintro ⟨rfl, rfl⟩
      exact ⟨rfl, .nil⟩
    · rintro ⟨hxs, hw⟩
      obtain rfl := List.length_eq_zero_iff.1 hxs
      cases hw
      exact ⟨rfl, rfl⟩
  | count + 1, index => fun p =>
    ((he index p).bind fun x v _ => (reads_inTurn he count (index + 1) (p + v.length)).bind
      fun xs _ _ => readsAt_pure (x :: xs)).congr fun xs w => by
    constructor
    · rintro ⟨x, v, _, hv, ⟨xs, w, _, ⟨hxs, hw⟩, ⟨rfl, rfl⟩, rfl⟩, rfl⟩
      rw [List.append_nil]
      exact ⟨congrArg Nat.succ hxs, .cons hv hw⟩
    · rintro ⟨hxs, hw⟩
      cases hw with
      | nil => cases hxs
      | cons hv hw =>
        exact ⟨_, _, _, hv, ⟨_, _, [], ⟨Nat.succ.inj hxs, hw⟩, ⟨rfl, rfl⟩, by simp⟩, rfl⟩

end Loops

end Reader

end TxScope
