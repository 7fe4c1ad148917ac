import TxScope.Proofs.Legible
import TxScope.Report.Amount

/-!
# Amounts read back

The commas aside, the grouped digits are the digits of the number, so the text of an amount tells
the amount (`Amount.tells_text`).

Both figures are exact (`text_exact`). The commas leave groups of three digits behind a first one
that is not longer, and the digits behind the point are the eight that the whole coins leave over.
-/

namespace TxScope.Amount

theorem groupThousands_cons (d : Char) (ds : List Char) :
    groupThousands (d :: ds) =
      (if ds ≠ [] ∧ ds.length % 3 = 0 then [d, ','] else [d]) ++ groupThousands ds := by
  rw [groupThousands]
  split_ifs <;> rfl

/-- Taking the commas out undoes the grouping. -/
theorem filter_groupThousands {ds : List Char} (h : ',' ∉ ds) :
    (groupThousands ds).filter (· ≠ ',') = ds := by
  induction ds with
  | nil => rfl
  | cons d ds ih =>
    have hd : d ≠ ',' := (List.ne_of_not_mem_cons h).symm
    have htail := ih (List.not_mem_of_not_mem_cons h)
    rw [groupThousands_cons, List.filter_append, htail]
    split_ifs <;> simp [hd]

theorem mem_groupThousands {ds : List Char} {c : Char} (hds : ',' ∉ ds)
    (h : c ∈ groupThousands ds) (hc : c ≠ ',') : c ∈ ds := by
  rw [← filter_groupThousands hds]
  exact List.mem_filter.2 ⟨h, by simpa using hc⟩

theorem groupThousands_toDigits_injective :
    Function.Injective fun n => groupThousands (Nat.toDigits 10 n) := by
  intro m n h
  have hfilter := congrArg (List.filter (· ≠ ',')) h
  rw [filter_groupThousands (Text.not_mem_toDigits rfl),
    filter_groupThousands (Text.not_mem_toDigits rfl)] at hfilter
  exact Text.toDigits_injective hfilter

theorem space_not_mem_grouped (n : Nat) : ' ' ∉ groupThousands (Nat.toDigits 10 n) := fun h =>
  Text.not_mem_toDigits rfl (mem_groupThousands (Text.not_mem_toDigits rfl) h (by simp))

theorem toList_text (n : Nat) : (text n).toList =
    groupThousands (Nat.toDigits 10 n) ++ [' '] ++ ("sat (".toList ++
      (toString (n / unitsPerCoin)).toList ++ ['.'] ++ padded 8 (n % unitsPerCoin) ++
      " BTC)".toList) := by
  simp [text]

/-- The first figure ends at the space, and all behind it follows from the amount. -/
theorem tells_text (m n : Nat) : Text.Tells (text m).toList (text n).toList (m = n) := by
  have hfigure := (Text.Tells.upTo (space_not_mem_grouped m) (space_not_mem_grouped n)).imp
    fun h => groupThousands_toDigits_injective h
  rw [toList_text, toList_text]
  exact hfigure.append_settled fun hmn => by rw [hmn]

/-! ## Groups of digits -/

/-- At the commas the digits fall into groups of three, behind a first group of what is left over. A
digit in front is a group alone if whole groups follow, and else it joins the first. -/
theorem exists_groups {ds : List Char} (hne : ds ≠ []) (hcomma : ',' ∉ ds) :
    ∃ first rest, (groupThousands ds).splitOn ',' = first :: rest ∧
      first.length = (ds.length - 1) % 3 + 1 ∧ ∀ g ∈ rest, g.length = 3 := by
  induction ds with
  | nil => exact absurd rfl hne
  | cons d ds ih =>
    have hd : d ≠ ',' := (List.ne_of_not_mem_cons hcomma).symm
    have hgroup : ',' ∉ [d] := by simpa using hd.symm
    by_cases hds : ds = []
    · subst hds
      exact ⟨[d], [], List.splitOn_eq_singleton hgroup, rfl, by simp⟩
    · have hlen : 0 < ds.length := List.length_pos_iff.2 hds
      obtain ⟨first, rest, hsplit, hfirst, hrest⟩ := ih hds (List.not_mem_of_not_mem_cons hcomma)
      rw [groupThousands_cons]
      by_cases hthree : ds.length % 3 = 0
      · refine ⟨[d], first :: rest, ?_, ?_, List.forall_mem_cons.2 ⟨?_, hrest⟩⟩
        · rw [if_pos ⟨hds, hthree⟩, ← hsplit]
          exact List.splitOn_append_cons_self_of_not_mem hgroup _
        · simp only [List.length_cons, List.length_nil, Nat.add_sub_cancel]
          omega
        · omega
      · refine ⟨d :: first, rest, ?_, ?_, hrest⟩
        · rw [if_neg fun h => hthree h.2, List.singleton_append,
            List.splitOn_cons_eq_if_modifyHead, if_neg (by simpa using hd), hsplit,
            List.modifyHead_cons]
        · simp only [List.length_cons, Nat.add_sub_cancel]
          omega

/-! ## Numerals -/

/-- The usual way to write a number: digits, and a zero in front only if it is the only one. -/
structure Numeral (ds : List Char) (n : Nat) : Prop where
  nonempty : ds ≠ []
  digits : ∀ d ∈ ds, d.isDigit
  value : Nat.ofDigitChars 10 ds 0 = n
  leading : ds.head? = some '0' → ds = ['0']

/-- Only the digits of zero begin with a zero: those of a number above nine begin as those of its
tenth. -/
theorem head?_toDigits {n : Nat} (h : (Nat.toDigits 10 n).head? = some '0') :
    Nat.toDigits 10 n = ['0'] := by
  induction n using Nat.strongRecOn with
  | ind n ih =>
    by_cases hn : n < 10
    · rw [Nat.toDigits_of_lt_base hn] at h ⊢
      simpa using h
    · rw [Nat.toDigits_of_base_le (by omega) (by omega),
        List.head?_append, List.head?_eq_some_head Nat.toDigits_ne_nil, Option.some_or,
        ← List.head?_eq_some_head] at h
      have htenth : n / 10 = 0 := by
        rw [← Nat.ofDigitChars_ten_toDigits (n := n / 10), ih (n / 10) (by omega) h]
        rfl
      omega

theorem numeral_toDigits (n : Nat) : Numeral (Nat.toDigits 10 n) n where
  nonempty := Nat.toDigits_ne_nil
  digits d hd := Nat.isDigit_of_mem_toDigits (by omega) (by omega) hd
  value := Nat.ofDigitChars_ten_toDigits
  leading := head?_toDigits

theorem length_padded {width n : Nat} (hwidth : 0 < width) (h : n < 10 ^ width) :
    (padded width n).length = width := by
  have hlen := (Nat.length_toDigits_le_iff (b := 10) (by omega) hwidth).2 h
  simp only [padded, List.length_append, List.length_replicate]
  omega

theorem isDigit_of_mem_padded {width n : Nat} {c : Char} (h : c ∈ padded width n) :
    c.isDigit := by
  rcases List.mem_append.1 h with h | h
  · rw [List.eq_of_mem_replicate h]
    rfl
  · exact Nat.isDigit_of_mem_toDigits (by omega) (by omega) h

theorem value_padded (width n : Nat) : Nat.ofDigitChars 10 (padded width n) 0 = n := by
  rw [padded, Nat.ofDigitChars_append, Nat.ofDigitChars_replicate_zero, Nat.mul_zero,
    Nat.ofDigitChars_ten_toDigits]

/-- Both figures of the text of an amount are the amount: the first one in groups, the second one
in whole coins and eight digits. No other amount has the text. -/
theorem text_exact (n : Nat) : (∃ grouped whole fraction : List Char,
    text n = String.ofList grouped ++ " sat (" ++ String.ofList whole ++ "." ++
      String.ofList fraction ++ " BTC)" ∧
    Numeral (grouped.filter (· ≠ ',')) n ∧
    (∃ first rest, grouped.splitOn ',' = first :: rest ∧
      1 ≤ first.length ∧ first.length ≤ 3 ∧ ∀ g ∈ rest, g.length = 3) ∧
    (∃ coins, Numeral whole coins ∧ fraction.length = 8 ∧ (∀ d ∈ fraction, d.isDigit) ∧
      coins * 10 ^ 8 + Nat.ofDigitChars 10 fraction 0 = n)) ∧
    ∀ m, text m = text n → m = n := by
  have hcomma : ',' ∉ Nat.toDigits 10 n := Text.not_mem_toDigits rfl
  refine ⟨⟨groupThousands (Nat.toDigits 10 n), Nat.toDigits 10 (n / unitsPerCoin),
    padded 8 (n % unitsPerCoin), ?_, ?_, ?_, n / unitsPerCoin, numeral_toDigits _, ?_, ?_, ?_⟩, ?_⟩
  · rw [text, Nat.toString_eq_ofList_toDigits]
  · rw [filter_groupThousands hcomma]
    exact numeral_toDigits n
  · obtain ⟨first, rest, hsplit, hfirst, hrest⟩ := exists_groups Nat.toDigits_ne_nil hcomma
    exact ⟨first, rest, hsplit, by omega, by omega, hrest⟩
  · exact length_padded (by omega) (Nat.mod_lt n (by decide))
  · exact fun d hd => isDigit_of_mem_padded hd
  · rw [value_padded]
    exact Nat.div_add_mod' n unitsPerCoin
  · intro m h
    exact (tells_text m n).of_eq (congrArg String.toList h)

end TxScope.Amount
