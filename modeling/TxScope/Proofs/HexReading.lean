import TxScope.Proofs.HexText
import TxScope.Text.Digit

/-!
# Which text is hexadecimal

Bytes are read in pairs as long as they are digits. Reading gives the byte string whose digits, in
either case, they are (`Hex.decode_reads_iff`); the first byte that is no digit ends it and is named
(`Hex.decodePairs_eq_error_iff`). An odd number of bytes is refused before any of them is looked at.
-/

namespace TxScope

namespace Hex

/-- The codes of digits: 0 to 9, and the letters A to F in either case. -/
def IsDigit (code : Nat) : Prop :=
  (0x30 ≤ code ∧ code ≤ 0x39) ∨ (0x41 ≤ code ∧ code ≤ 0x46) ∨ (0x61 ≤ code ∧ code ≤ 0x66)

instance : DecidablePred IsDigit := fun code =>
  inferInstanceAs (Decidable ((0x30 ≤ code ∧ code ≤ 0x39) ∨ (0x41 ≤ code ∧ code ≤ 0x46) ∨
    (0x61 ≤ code ∧ code ≤ 0x66)))

/-- The first byte that is no digit is `value`, and stands at `index`. -/
def FirstDefect (bs : Bytes) (value : UInt8) (index : Nat) : Prop :=
  bs[index]? = some value ∧ ¬ IsDigit value.toNat ∧ ∀ b ∈ bs.take index, IsDigit b.toNat

theorem firstDefect_zero {b : UInt8} (h : ¬ IsDigit b.toNat) (bs : Bytes) :
    FirstDefect (b :: bs) b 0 :=
  ⟨rfl, h, nofun⟩

theorem FirstDefect.cons {b value : UInt8} {bs : Bytes} {index : Nat} (hb : IsDigit b.toNat)
    (h : FirstDefect bs value index) : FirstDefect (b :: bs) value (index + 1) := by
  refine ⟨h.1, h.2.1, ?_⟩
  rw [List.take_succ_cons, List.forall_mem_cons]
  exact ⟨hb, h.2.2⟩

/-- There is only one first defect: what stands in front of one is a digit. -/
theorem FirstDefect.unique {bs : Bytes} {value value' : UInt8} {index index' : Nat}
    (h : FirstDefect bs value index) (h' : FirstDefect bs value' index') :
    value = value' ∧ index = index' := by
  have hbefore : ∀ {v w : UInt8} {i j : Nat}, FirstDefect bs v i → FirstDefect bs w j →
      ¬ i < j := by
    intro v w i j hv hw hij
    refine hv.2.1 (hw.2.2 v (List.mem_iff_getElem?.2 ⟨i, ?_⟩))
    rw [List.getElem?_take_of_lt hij, hv.1]
  have hindex : index = index' := Nat.le_antisymm (Nat.le_of_not_lt (hbefore h' h))
    (Nat.le_of_not_lt (hbefore h h'))
  subst hindex
  exact ⟨Option.some.inj (h.1.symm.trans h'.1), rfl⟩

theorem digitValue?_eq_none_iff {b : UInt8} : digitValue? b = none ↔ ¬ IsDigit b.toNat := by
  simp only [digitValue?, IsDigit, UInt8.le_iff_toNat_le]
  split_ifs with h1 h2 h3
  · simp only [false_iff, not_not]
    exact .inl h1
  · simp only [false_iff, not_not]
    exact .inr (.inr h2)
  · simp only [false_iff, not_not]
    exact .inr (.inl h3)
  · simp only [true_iff, not_or]
    exact ⟨h1, h3, h2⟩

theorem exists_digitValue {b : UInt8} (h : IsDigit b.toNat) : ∃ v, digitValue? b = some v := by
  rcases hv : digitValue? b with _ | v
  · exact absurd h (digitValue?_eq_none_iff.1 hv)
  · exact ⟨v, rfl⟩

theorem digitValue?_lt {b : UInt8} {v : Nat} (h : digitValue? b = some v) : v < 16 := by
  simp only [digitValue?, UInt8.le_iff_toNat_le, UInt8.reduceToNat] at h
  split_ifs at h with h1 h2 h3
  · obtain rfl := Option.some.inj h
    omega
  · obtain rfl := Option.some.inj h
    omega
  · obtain rfl := Option.some.inj h
    omega

theorem digitAt_of_not {b : UInt8} (h : ¬ IsDigit b.toNat) (index : Nat) :
    digitAt index b = .error (.invalidDigit b index) := by
  simp only [digitAt, digitValue?_eq_none_iff.2 h]

/-! ## Pairs of digits -/

/-- The values of the digits of a byte string. -/
def digitValues (bs : Bytes) : List Nat := bs.flatMap fun b => [b.toNat / 16, b.toNat % 16]

theorem encodeChars_eq_map (bs : Bytes) : encodeChars bs = (digitValues bs).map Nat.digitChar := by
  rw [digitValues, List.map_flatMap]
  rfl

theorem digitValues_lt {bs : Bytes} {v : Nat} (h : v ∈ digitValues bs) : v < 16 := by
  obtain ⟨b, -, hv⟩ := List.mem_flatMap.1 h
  have hb := b.toNat_lt
  simp only [List.mem_cons, List.not_mem_nil, or_false] at hv
  rcases hv with rfl | rfl <;> omega

theorem length_digitValues (bs : Bytes) : (digitValues bs).length = 2 * bs.length := by
  induction bs with
  | nil => rfl
  | cons b bs ih =>
    simp only [digitValues, List.flatMap_cons, List.length_append, List.length_cons] at ih ⊢
    rw [ih]
    simp only [List.length_nil]
    omega

theorem digitValues_cons {h l : Nat} (hh : h < 16) (hl : l < 16) (bs : Bytes) :
    digitValues (UInt8.ofNat (16 * h + l) :: bs) = h :: l :: digitValues bs := by
  have hb : (UInt8.ofNat (16 * h + l)).toNat = 16 * h + l :=
    UInt8.toNat_ofNat_of_lt' (by omega : 16 * h + l < 256)
  have hhigh : (16 * h + l) / 16 = h := by omega
  have hlow : (16 * h + l) % 16 = l := by omega
  rw [digitValues, List.flatMap_cons, hb, hhigh, hlow]
  rfl

theorem digitValues_injective : Function.Injective digitValues := fun bs bs' h => by
  refine encode_injective ?_
  rw [encode, encode, encodeChars_eq_map, encodeChars_eq_map, h]

/-- An even number of bytes is read, or has a first defect that is named. -/
theorem decodePairs_cases : ∀ {bs : Bytes} (index : Nat), bs.length % 2 = 0 →
    (∃ out, decodePairs index bs = .ok out ∧ bs.map digitValue? = (digitValues out).map some) ∨
      ∃ value k, FirstDefect bs value k ∧
        decodePairs index bs = .error (.invalidDigit value (index + k))
  | [], _, _ => .inl ⟨[], by simp [decodePairs], rfl⟩
  | [_], _, heven => by simp at heven
  | high :: low :: rest, index, heven => by
    have hrest : rest.length % 2 = 0 := by
      simp only [List.length_cons] at heven
      omega
    rw [decodePairs]
    by_cases hhigh : IsDigit high.toNat
    · obtain ⟨h, hh⟩ := exists_digitValue hhigh
      rw [digitAt_eq hh]
      by_cases hlow : IsDigit low.toNat
      · obtain ⟨l, hl⟩ := exists_digitValue hlow
        rw [digitAt_eq hl]
        rcases decodePairs_cases (index + 2) hrest with
          ⟨out, hout, hvalues⟩ | ⟨value, k, hdefect, herror⟩
        · refine .inl ⟨UInt8.ofNat (16 * h + l) :: out, by rw [hout]; rfl, ?_⟩
          rw [digitValues_cons (digitValue?_lt hh) (digitValue?_lt hl), List.map_cons,
            List.map_cons, hvalues, hh, hl]
          rfl
        · refine .inr ⟨value, k + 2, (hdefect.cons hlow).cons hhigh, ?_⟩
          rw [herror, Nat.add_assoc, Nat.add_comm 2 k]
          rfl
      · rw [digitAt_of_not hlow]
        exact .inr ⟨low, 1, (firstDefect_zero hlow rest).cons hhigh, rfl⟩
    · rw [digitAt_of_not hhigh]
      exact .inr ⟨high, 0, firstDefect_zero hhigh _, rfl⟩

theorem FirstDefect.not_values {bs out : Bytes} {value : UInt8} {index : Nat}
    (h : FirstDefect bs value index) : bs.map digitValue? ≠ (digitValues out).map some := by
  intro heq
  have hmem : none ∈ bs.map digitValue? := by
    rw [← digitValue?_eq_none_iff.2 h.2.1]
    exact List.mem_map_of_mem (List.mem_iff_getElem?.2 ⟨index, h.1⟩)
  rw [heq] at hmem
  simp at hmem

theorem decodePairs_eq_ok_iff {bs out : Bytes} :
    decodePairs 0 bs = .ok out ∧ bs.length % 2 = 0 ↔
      bs.map digitValue? = (digitValues out).map some := by
  constructor
  · rintro ⟨hout, heven⟩
    rcases decodePairs_cases 0 heven with ⟨out', hout', hvalues⟩ | ⟨value, k, -, herror⟩
    · rw [hout] at hout'
      obtain rfl := Except.ok.inj hout'
      exact hvalues
    · rw [hout] at herror
      cases herror
  · intro hvalues
    have heven : bs.length % 2 = 0 := by
      have hlen := congrArg List.length hvalues
      rw [List.length_map, List.length_map, length_digitValues] at hlen
      omega
    refine ⟨?_, heven⟩
    rcases decodePairs_cases 0 heven with ⟨out', hout', hvalues'⟩ | ⟨value, k, hdefect, -⟩
    · rw [hvalues] at hvalues'
      have hsame := (List.map_inj_right fun _ _ => Option.some.inj).1 hvalues'
      rw [hout', digitValues_injective hsame]
    · exact absurd hvalues hdefect.not_values

theorem decodePairs_eq_error_iff {bs : Bytes} {e : Error} (heven : bs.length % 2 = 0) :
    decodePairs 0 bs = .error e ↔
      ∃ value index, FirstDefect bs value index ∧ e = .invalidDigit value index := by
  rcases decodePairs_cases 0 heven with ⟨out, hout, hvalues⟩ | ⟨value, k, hdefect, herror⟩
  · rw [hout]
    refine ⟨nofun, ?_⟩
    rintro ⟨value, index, hdefect, -⟩
    exact absurd hvalues hdefect.not_values
  · rw [herror, Nat.zero_add]
    constructor
    · intro h
      exact ⟨value, k, hdefect, (Except.error.inj h).symm⟩
    · rintro ⟨value', index, hdefect', rfl⟩
      obtain ⟨rfl, rfl⟩ := hdefect.unique hdefect'
      rfl

/-! ## Characters -/

theorem map_digitValue_ascii : ∀ n < 128,
    (String.utf8EncodeChar (Char.ofNat n)).map digitValue? = [Text.digitValue? (Char.ofNat n)] := by
  decide

theorem toLower_ascii : ∀ n < 128, ∀ v < 16,
    (Char.ofNat n).toLower = Nat.digitChar v ↔ Text.digitValue? (Char.ofNat n) = some v := by
  decide +kernel

theorem toNat_digitChar_lt : ∀ v < 16, (Nat.digitChar v).toNat < 128 := by
  decide

theorem toLower_of_not_ascii {c : Char} (hc : ¬ c.toNat < 128) : c.toLower = c := by
  have hupper : ¬ (c.val ≥ 'A'.val ∧ c.val ≤ 'Z'.val) := by
    rintro ⟨-, h⟩
    rw [UInt32.le_iff_toNat_le] at h
    exact hc (Nat.lt_of_le_of_lt h (by decide))
  exact dif_neg hupper

theorem digitValue?_of_not_ascii {c : Char} (hc : ¬ c.toNat < 128) :
    Text.digitValue? c = none := by
  have hle : ∀ d : Char, d.toNat < 128 → ¬ c ≤ d := by
    intro d hd h
    rw [Char.le_def, UInt32.le_iff_toNat_le] at h
    exact hc (Nat.lt_of_le_of_lt h hd)
  rw [Text.digitValue?, if_neg fun h => hle _ (by decide) h.2,
    if_neg fun h => hle _ (by decide) h.2, if_neg fun h => hle _ (by decide) h.2]

/-- The first byte of a character is a digit only if the character is, and then is all of it. The
longer forms begin with a byte from 0xc0 on. -/
theorem exists_utf8EncodeChar (c : Char) : ∃ b rest, String.utf8EncodeChar c = b :: rest ∧
    digitValue? b = Text.digitValue? c ∧ (Text.digitValue? c ≠ none → rest = []) := by
  by_cases hc : c.toNat < 128
  · have h := map_digitValue_ascii c.toNat hc
    rw [Char.ofNat_toNat] at h
    obtain ⟨b, hb, hv⟩ := List.map_eq_singleton_iff.1 h
    exact ⟨b, [], hb, hv, fun _ => rfl⟩
  · rw [digitValue?_of_not_ascii hc]
    have hlead : ∀ {b : UInt8}, 0xc0 ≤ b.toNat → digitValue? b = none := by
      intro b hb
      rw [digitValue?_eq_none_iff, IsDigit]
      omega
    have hval : c.val.toNat = c.toNat := rfl
    rw [String.utf8EncodeChar, hval]
    simp only [if_neg (show ¬ c.toNat ≤ 127 by omega)]
    split_ifs <;> refine ⟨_, _, rfl, hlead ?_, fun h => absurd rfl h⟩ <;>
      rw [UInt8.toNat_ofNat'] <;> omega

/-- A character that is the digit of a value up to its case is that digit. -/
theorem toLower_eq_digitChar_iff {c : Char} {v : Nat} (hv : v < 16) :
    c.toLower = Nat.digitChar v ↔ Text.digitValue? c = some v := by
  by_cases hc : c.toNat < 128
  · have h := toLower_ascii c.toNat hc v hv
    rwa [Char.ofNat_toNat] at h
  · rw [digitValue?_of_not_ascii hc, toLower_of_not_ascii hc]
    have hdigit := toNat_digitChar_lt v hv
    refine ⟨fun h => ?_, nofun⟩
    rw [← h] at hdigit
    exact absurd hdigit hc

theorem map_digitValue_utf8_iff {cs : List Char} {vs : List Nat} :
    (Text.utf8OfChars cs).map digitValue? = vs.map some ↔
      cs.map Text.digitValue? = vs.map some := by
  induction cs generalizing vs with
  | nil => exact Iff.rfl
  | cons c cs ih =>
    obtain ⟨b, rest, hc, hb, hrest⟩ := exists_utf8EncodeChar c
    rcases vs with _ | ⟨v, vs⟩
    · simp [Text.utf8OfChars, hc]
    · have hchars : Text.utf8OfChars (c :: cs) = b :: rest ++ Text.utf8OfChars cs := by
        rw [Text.utf8OfChars, List.flatMap_cons, hc]
        rfl
      rw [hchars, List.cons_append, List.map_cons, List.map_cons, List.map_cons, List.cons.injEq,
        List.cons.injEq, hb]
      refine and_congr_right fun hv => ?_
      rw [hrest (by simp [hv]), List.nil_append, ih]

theorem map_toLower_iff {cs : List Char} {vs : List Nat} (hvs : ∀ v ∈ vs, v < 16) :
    cs.map Char.toLower = vs.map Nat.digitChar ↔ cs.map Text.digitValue? = vs.map some := by
  induction cs generalizing vs with
  | nil => simp only [List.map_nil, List.nil_eq, List.map_eq_nil_iff]
  | cons c cs ih =>
    rcases vs with _ | ⟨v, vs⟩
    · simp
    · obtain ⟨hv, hrest⟩ := List.forall_mem_cons.1 hvs
      rw [List.map_cons, List.map_cons, List.map_cons, List.map_cons, List.cons.injEq,
        List.cons.injEq, toLower_eq_digitChar_iff hv, ih hrest]

theorem toList_toLower (text : String) : text.toLower.toList = text.toList.map Char.toLower :=
  String.toList_map

theorem isDigit_ascii : ∀ n < 128, IsDigit n ↔ Text.digitValue? (Char.ofNat n) ≠ none := by
  decide

theorem isDigit_of_value {c : Char} {v : Nat} (h : Text.digitValue? c = some v) :
    IsDigit c.toNat := by
  have hc : c.toNat < 128 := by
    by_contra hc
    rw [digitValue?_of_not_ascii hc] at h
    cases h
  rw [isDigit_ascii c.toNat hc, Char.ofNat_toNat, h]
  nofun

theorem digits_of_toLower {text : String} {bs : Bytes} (h : text.toLower = encode bs) :
    text.length = 2 * bs.length ∧ ∀ c ∈ text.toList, IsDigit c.toNat := by
  rw [← String.toList_inj, toList_toLower, encode, String.toList_ofList, encodeChars_eq_map,
    map_toLower_iff fun v => digitValues_lt] at h
  constructor
  · have hlen := congrArg List.length h
    rwa [List.length_map, List.length_map, length_digitValues, String.length_toList] at hlen
  · intro c hc
    have hmem : Text.digitValue? c ∈ (digitValues bs).map some := by
      rw [← h]
      exact List.mem_map_of_mem hc
    obtain ⟨v, -, hv⟩ := List.mem_map.1 hmem
    exact isDigit_of_value hv.symm

/-- A text is read as the byte string that its lower-case form writes, and nothing else is read. -/
theorem decode_reads_iff {text : String} {bs : Bytes} :
    decode text = .ok bs ↔ text.toLower = encode bs := by
  have hlower : text.toLower = encode bs ↔
      (Text.utf8 text).map digitValue? = (digitValues bs).map some := by
    rw [← String.toList_inj, toList_toLower, encode, String.toList_ofList, encodeChars_eq_map,
      map_toLower_iff fun v => digitValues_lt, Text.utf8, map_digitValue_utf8_iff]
  rw [hlower, ← decodePairs_eq_ok_iff, decode, decodeUtf8]
  split_ifs with hodd
  · refine ⟨fun h => ?_, fun h => by omega⟩
    cases h
  · rw [and_iff_left (by omega)]

theorem decode_eq_oddLength_iff {text : String} :
    decode text = .error .oddLength ↔ (Text.utf8 text).length % 2 = 1 := by
  rw [decode, decodeUtf8]
  split_ifs with hodd
  · exact iff_of_true rfl hodd
  · refine iff_of_false (fun h => ?_) hodd
    obtain ⟨value, index, -, he⟩ := (decodePairs_eq_error_iff (by omega)).1 h
    cases he

theorem decode_eq_invalidDigit_iff {text : String} {value : UInt8} {index : Nat} :
    decode text = .error (.invalidDigit value index) ↔
      (Text.utf8 text).length % 2 = 0 ∧ FirstDefect (Text.utf8 text) value index := by
  rw [decode, decodeUtf8]
  split_ifs with hodd
  · refine ⟨fun h => ?_, fun h => by omega⟩
    cases h
  · rw [decodePairs_eq_error_iff (by omega), and_iff_right (by omega)]
    constructor
    · rintro ⟨value', index', hdefect, he⟩
      cases he
      exact hdefect
    · intro hdefect
      exact ⟨value, index, hdefect, rfl⟩

end Hex

/-! ## Texts with blanks around them -/

theorem Text.isBlank_toLower_ascii : ∀ n < 128,
    isBlank (Char.ofNat n).toLower = isBlank (Char.ofNat n) := by
  decide

theorem Text.isBlank_toLower (c : Char) : isBlank c.toLower = isBlank c := by
  by_cases hc : c.toNat < 128
  · have h := isBlank_toLower_ascii c.toNat hc
    rwa [Char.ofNat_toNat] at h
  · rw [Hex.toLower_of_not_ascii hc]

theorem Text.trim_toLower (text : String) : trim text.toLower = (trim text).toLower := by
  have hstart : ∀ cs : List Char,
      (cs.map Char.toLower).dropWhile isBlank = (cs.dropWhile isBlank).map Char.toLower := by
    intro cs
    rw [List.dropWhile_map, funext (f := isBlank ∘ Char.toLower) isBlank_toLower]
  rw [← String.toList_inj, Hex.toList_toLower, trim, trim, Hex.toList_toLower, String.toList_ofList,
    String.toList_ofList, trimStart, hstart, trimEnd, ← List.map_reverse, hstart,
    ← List.map_reverse]
  rfl

theorem Text.utf8_eq_nil_iff {t : String} : utf8 t = [] ↔ t = "" := by
  rw [← String.toList_eq_nil_iff, utf8, utf8OfChars, List.flatMap_eq_nil_iff]
  constructor
  · intro h
    rcases ht : t.toList with _ | ⟨c, cs⟩
    · rfl
    · obtain ⟨b, rest, hc, -⟩ := Hex.exists_utf8EncodeChar c
      rw [h c (by rw [ht]; exact List.mem_cons_self)] at hc
      cases hc
  · intro h
    simp [h]

namespace Transaction

theorem bytesOfHex_of_trim {text t : String} (h : Text.trim text = t) (ht : t ≠ "") :
    bytesOfHex text = (Hex.decode t).mapError .invalidHex := by
  have hne : t.isEmpty = false := by
    rw [Bool.eq_false_iff, ne_eq, String.isEmpty_iff]
    exact ht
  simp [bytesOfHex, h, hne]

theorem bytesOfHex_of_trim_empty {text : String} (h : Text.trim text = "") :
    bytesOfHex text = .error .emptyInput := by
  simp [bytesOfHex, h]

theorem bytesOfHex_eq_emptyInput_iff {text t : String} (h : Text.trim text = t) :
    bytesOfHex text = .error .emptyInput ↔ t = "" := by
  by_cases ht : t = ""
  · subst ht
    exact iff_of_true (bytesOfHex_of_trim_empty h) rfl
  · rw [bytesOfHex_of_trim h ht]
    cases Hex.decode t <;> simp [Except.mapError, ht]

theorem bytesOfHex_eq_invalidHex_iff {text t : String} (h : Text.trim text = t)
    {cause : Hex.Error} :
    bytesOfHex text = .error (.invalidHex cause) ↔ t ≠ "" ∧ Hex.decode t = .error cause := by
  by_cases ht : t = ""
  · subst ht
    simp [bytesOfHex_of_trim_empty h]
  · rw [bytesOfHex_of_trim h ht]
    cases Hex.decode t <;> simp [Except.mapError, ht]

theorem bytesOfHex_eq_ok_iff {text t : String} (h : Text.trim text = t) {bs : Bytes} :
    bytesOfHex text = .ok bs ↔ bs ≠ [] ∧ t.toLower = Hex.encode bs := by
  have hempty : t.toLower = Hex.encode bs → (t = "" ↔ bs = []) := by
    intro hlower
    have hlen := (Hex.digits_of_toLower hlower).1
    rw [← String.length_eq_zero_iff, ← List.length_eq_zero_iff]
    omega
  by_cases ht : t = ""
  · rw [bytesOfHex_of_trim_empty (h.trans ht)]
    refine ⟨nofun, ?_⟩
    rintro ⟨hbs, hlower⟩
    exact absurd ((hempty hlower).1 ht) hbs
  · have hok : bytesOfHex text = .ok bs ↔ Hex.decode t = .ok bs := by
      rw [bytesOfHex_of_trim h ht]
      cases Hex.decode t <;> simp [Except.mapError]
    rw [hok, Hex.decode_reads_iff]
    exact (and_iff_right_of_imp fun hlower hbs => ht ((hempty hlower).2 hbs)).symm

/-- Trimmed text is read as the bytes whose digits it is, in either case. It is refused if it is
empty, or its bytes are odd in number, or else for the first of them that is no digit. Hence each
byte string is read back from its own digits, and neither case nor blanks around a text matter. -/
theorem bytesOfHex_exact :
    (∀ text t, Text.trim text = t ↔ Text.TrimsTo text t) ∧
    (∀ text t, Text.TrimsTo text t →
      (bytesOfHex text = .error .emptyInput ↔ t = "") ∧
      (bytesOfHex text = .error (.invalidHex .oddLength) ↔
        t ≠ "" ∧ (Text.utf8 t).length % 2 = 1) ∧
      (∀ value index, bytesOfHex text = .error (.invalidHex (.invalidDigit value index)) ↔
        (0 < (Text.utf8 t).length ∧ (Text.utf8 t).length % 2 = 0) ∧
          Hex.FirstDefect (Text.utf8 t) value index) ∧
      ∀ bs, bytesOfHex text = .ok bs ↔
        bs ≠ [] ∧ (t.length = 2 * bs.length ∧ ∀ c ∈ t.toList, Hex.IsDigit c.toNat) ∧
          t.toLower = Hex.encode bs) ∧
    (∀ bs, bs ≠ [] → bytesOfHex (Hex.encode bs) = .ok bs) ∧
    ∀ text bs, bytesOfHex text = .ok bs →
      (∀ text' : String, text'.toLower = text.toLower → bytesOfHex text' = .ok bs) ∧
      ∀ before after : List Char, (∀ c ∈ before, Text.isBlank c = true) →
        (∀ c ∈ after, Text.isBlank c = true) →
        bytesOfHex (String.ofList before ++ text ++ String.ofList after) = .ok bs := by
  refine ⟨fun _ _ => Text.trim_eq_iff, fun text t ht => ?_, fun _ => bytesOfHex_encode,
    fun text bs hbs => ?_⟩
  · have htrim := Text.trim_eq_iff.2 ht
    refine ⟨bytesOfHex_eq_emptyInput_iff htrim, ?_, fun value index => ?_, fun bs => ?_⟩
    · rw [bytesOfHex_eq_invalidHex_iff htrim, Hex.decode_eq_oddLength_iff]
    · rw [bytesOfHex_eq_invalidHex_iff htrim, Hex.decode_eq_invalidDigit_iff, ← and_assoc,
        List.length_pos_iff, ne_eq, ne_eq, Text.utf8_eq_nil_iff]
    · rw [bytesOfHex_eq_ok_iff htrim]
      refine and_congr_right fun _ => ⟨fun hlower => ⟨?_, hlower⟩, And.right⟩
      exact Hex.digits_of_toLower hlower
  · obtain ⟨hne, hlower⟩ := (bytesOfHex_eq_ok_iff rfl).1 hbs
    refine ⟨fun text' hcase => ?_, fun before after hbefore hafter => ?_⟩
    · refine (bytesOfHex_eq_ok_iff rfl).2 ⟨hne, ?_⟩
      rw [← Text.trim_toLower, hcase, Text.trim_toLower, hlower]
    · exact (bytesOfHex_eq_ok_iff (Text.trim_blanks hbefore hafter text)).2 ⟨hne, hlower⟩

/-- Capitals and blanks around them are read; a character of two bytes is named by the first. -/
theorem bytesOfHex_exact_mixed : bytesOfHex "\t0aFF " = .ok [0x0a, 0xff] ∧
    bytesOfHex " 0é1" = .error (.invalidHex (.invalidDigit 0xc3 1)) := by
  have hcapitals : Text.TrimsTo "\t0aFF " "0aFF" :=
    ⟨['\t'], [' '], by simp, by simp [Text.isBlank], by simp [Text.isBlank], by simp; decide,
      by simp; decide⟩
  have haccent : Text.TrimsTo " 0é1" "0é1" :=
    ⟨[' '], [], by simp, by simp [Text.isBlank], nofun, by simp; decide, by simp; decide⟩
  have hdigits : ∀ c ∈ "0aFF".toList, Hex.IsDigit c.toNat := by
    simp only [String.reduceToList, List.forall_mem_cons]
    exact ⟨by decide, by decide, by decide, by decide, nofun⟩
  have hlower : "0aFF".toLower = Hex.encode [0x0a, 0xff] := by
    rw [← String.toList_inj, Hex.toList_toLower]
    decide +kernel
  have hfront : (Text.utf8 "0é1").take 1 = [0x30] := by decide +kernel
  obtain ⟨-, -, -, hok⟩ := bytesOfHex_exact.2.1 _ _ hcapitals
  obtain ⟨-, -, hdefect, -⟩ := bytesOfHex_exact.2.1 _ _ haccent
  refine ⟨(hok _).2 ⟨by decide, ⟨rfl, hdigits⟩, hlower⟩, (hdefect _ _).2 ⟨?_, ?_, ?_, ?_⟩⟩
  · decide +kernel
  · decide +kernel
  · decide
  · rw [hfront, List.forall_mem_singleton]
    decide

end Transaction

end TxScope
