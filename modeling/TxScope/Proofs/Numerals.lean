import Mathlib.Data.List.TakeWhile
import Mathlib.Data.Nat.Digits.Lemmas

/-!
# Positional numerals

Symbols for the digits of a base write a number with its most significant digit first and no zero in
front. What is written has the number as its value (`value_write`), and every row of symbols is what
is written for its value, unless a zero stands in front (`write_value`). Zeros in front leave the
value as it is, so they have to be counted apart (`exists_leading`).
-/

namespace TxScope

/-- Symbols for the digits below a base. -/
structure Numerals (α : Type) where
  base : Nat
  symbol : Nat → α
  digit : α → Nat
  one_lt_base : 1 < base
  digit_symbol : ∀ d < base, digit (symbol d) = d

namespace Numerals

variable {α : Type} (N : Numerals α)

def IsSymbol (x : α) : Prop := N.digit x < N.base ∧ N.symbol (N.digit x) = x

def write (n : Nat) : List α := (Nat.digits N.base n).reverse.map N.symbol

def value (xs : List α) : Nat := Nat.ofDigits N.base (xs.map N.digit).reverse

theorem digit_zero : N.digit (N.symbol 0) = 0 :=
  N.digit_symbol 0 (Nat.zero_lt_of_lt N.one_lt_base)

theorem isSymbol_symbol {d : Nat} (h : d < N.base) : N.IsSymbol (N.symbol d) := by
  rw [IsSymbol, N.digit_symbol d h]
  exact ⟨h, rfl⟩

theorem isSymbol_of_mem_write {n : Nat} {x : α} (h : x ∈ N.write n) : N.IsSymbol x := by
  obtain ⟨d, hd, rfl⟩ := List.mem_map.1 h
  exact N.isSymbol_symbol (Nat.digits_lt_base N.one_lt_base (List.mem_reverse.1 hd))

theorem map_digit_write (n : Nat) :
    (N.write n).map N.digit = (Nat.digits N.base n).reverse := by
  rw [write, List.map_map]
  refine (List.map_congr_left fun d hd => ?_).trans (List.map_id _)
  exact N.digit_symbol d (Nat.digits_lt_base N.one_lt_base (List.mem_reverse.1 hd))

theorem value_write (n : Nat) : N.value (N.write n) = n := by
  rw [value, map_digit_write, List.reverse_reverse, Nat.ofDigits_digits]

theorem value_zeros_append (z : Nat) (xs : List α) :
    N.value (List.replicate z (N.symbol 0) ++ xs) = N.value xs := by
  rw [value, List.map_append, List.map_replicate, N.digit_zero, List.reverse_append,
    List.reverse_replicate, Nat.ofDigits_append_replicate_zero, value]

theorem head?_write (n : Nat) : (N.write n).head? ≠ some (N.symbol 0) := by
  intro h
  have hdigit := congrArg (Option.map N.digit) h
  rw [← List.head?_map, N.map_digit_write, List.head?_reverse, Option.map_some,
    N.digit_zero] at hdigit
  have hne : Nat.digits N.base n ≠ [] := List.ne_nil_of_mem (List.mem_of_getLast? hdigit)
  rw [List.getLast?_eq_some_getLast hne, Option.some_inj] at hdigit
  exact Nat.getLast_digit_ne_zero N.base (Nat.digits_ne_nil_iff_ne_zero.1 hne) hdigit

theorem write_value {xs : List α} (hsymbols : ∀ x ∈ xs, N.IsSymbol x)
    (hhead : xs.head? ≠ some (N.symbol 0)) : N.write (N.value xs) = xs := by
  have hdigits : Nat.digits N.base (N.value xs) = (xs.map N.digit).reverse := by
    refine Nat.digits_ofDigits N.base N.one_lt_base _ (fun d hd => ?_) fun hne hzero => hhead ?_
    · obtain ⟨x, hx, rfl⟩ := List.mem_map.1 (List.mem_reverse.1 hd)
      exact (hsymbols x hx).1
    · rcases xs with _ | ⟨x, xs⟩
      · exact absurd rfl hne
      · have hx : N.digit x = 0 := by simpa using hzero
        rw [List.head?_cons, ← (hsymbols x List.mem_cons_self).2, hx]
  rw [write, hdigits, List.reverse_reverse, List.map_map]
  exact (List.map_congr_left fun x hx => (hsymbols x hx).2).trans (List.map_id _)

end Numerals

/-! ## What stands in front -/

theorem exists_leading {α : Type} [DecidableEq α] (a : α) (xs : List α) :
    ∃ z rest, xs = List.replicate z a ++ rest ∧ rest.head? ≠ some a := by
  induction xs with
  | nil => exact ⟨0, [], rfl, nofun⟩
  | cons x xs ih =>
    by_cases hx : x = a
    · obtain ⟨z, rest, rfl, hrest⟩ := ih
      exact ⟨z + 1, rest, by rw [hx, List.replicate_succ, List.cons_append], hrest⟩
    · exact ⟨0, x :: xs, rfl, fun h => hx (Option.some.inj h)⟩

theorem length_takeWhile_replicate {α : Type} [BEq α] [LawfulBEq α] (a : α) (n : Nat)
    {rest : List α} (h : rest.head? ≠ some a) :
    ((List.replicate n a ++ rest).takeWhile (· == a)).length = n := by
  rw [List.takeWhile_append_of_pos (by simp)]
  rcases rest with _ | ⟨b, rest⟩
  · simp
  · have hb : b ≠ a := fun hb => h (congrArg some hb)
    simp [hb]

end TxScope
