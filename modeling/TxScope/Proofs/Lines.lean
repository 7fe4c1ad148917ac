import Mathlib.Data.List.Forall2
import TxScope.Proofs.Amounts
import TxScope.Proofs.HexText
import TxScope.Report.Text

/-!
# Lines that are read off

A line tells what it shows if that has no line break in it, or is a number up to the first
character behind it. Lines one after the other tell what each one tells, and a row of lines or of
blocks is told up to a line that begins otherwise (`tells_row`, `tells_blocks`), so no count is
needed.
-/

namespace TxScope

open Text

/-- Lines as characters. -/
def spell (lines : List String) : List Char := (unlines lines).toList

theorem spell_eq (lines : List String) :
    spell lines = lines.flatMap fun line => line.toList ++ ['\n'] := by
  simp [spell, unlines, List.flatMap_map]

theorem spell_cons (line : String) (lines : List String) :
    spell (line :: lines) = line.toList ++ ['\n'] ++ spell lines := by
  rw [spell_eq, spell_eq, List.flatMap_cons]

theorem spell_append (lines lines' : List String) :
    spell (lines ++ lines') = spell lines ++ spell lines' := by
  rw [spell_eq, spell_eq, spell_eq, List.flatMap_append]

theorem spell_flatMap {α : Type} (f : α → List String) (xs : List α) :
    spell (xs.flatMap f) = xs.flatMap fun x => spell (f x) := by
  simp only [spell_eq, List.flatMap_assoc]

theorem spell_singleton (line : String) : spell [line] = line.toList ++ ['\n'] := by
  simp [spell_eq]

section Lines

variable {l l' : String} {ls ls' ms ms' : List String} {P Q : Prop}

theorem tells_append (h : Tells (spell ls) (spell ls') P)
    (h' : P → Tells (spell ms) (spell ms') Q) :
    Tells (spell (ls ++ ms)) (spell (ls' ++ ms')) (P ∧ Q) := by
  rw [spell_append, spell_append]
  exact h.append h'

theorem tells_cons (h : Tells (spell [l]) (spell [l']) P)
    (h' : P → Tells (spell ls) (spell ls') Q) :
    Tells (spell (l :: ls)) (spell (l' :: ls')) (P ∧ Q) := by
  have hboth := tells_append h h'
  rwa [List.singleton_append, List.singleton_append] at hboth

theorem tells_heading (heading : String) (h : Tells (spell ls) (spell ls') P) :
    Tells (spell (heading :: ls)) (spell (heading :: ls')) P := by
  rw [spell_cons, spell_cons]
  exact h.append_left _

theorem tells_label (label : String) {x x' : String} (h : Tells (spell [x]) (spell [x']) P) :
    Tells (spell [label ++ x]) (spell [label ++ x']) P := by
  rw [spell_singleton, spell_singleton] at h ⊢
  rw [String.toList_append, String.toList_append, List.append_assoc, List.append_assoc]
  exact h.append_left _

theorem tells_field {x x' : String} (hx : '\n' ∉ x.toList) (hx' : '\n' ∉ x'.toList) :
    Tells (spell [x]) (spell [x']) (x = x') := by
  rw [spell_singleton, spell_singleton]
  exact (Tells.upTo hx hx').imp String.toList_inj.1

theorem tells_hex (label : String) (bs bs' : Bytes) :
    Tells (spell [label ++ Hex.encode bs]) (spell [label ++ Hex.encode bs']) (bs = bs') :=
  (tells_label label (tells_field (Hex.not_mem_encode rfl) (Hex.not_mem_encode rfl))).imp
    fun h => Hex.encode_injective h

theorem tells_amount (label : String) (m n : Nat) :
    Tells (spell [label ++ Amount.text m]) (spell [label ++ Amount.text n]) (m = n) := by
  refine tells_label label ?_
  rw [spell_singleton, spell_singleton]
  exact (Amount.tells_text m n).append_settled fun _ => rfl

theorem tells_number (label : String) (m n : Nat) :
    Tells (spell [label ++ toString m]) (spell [label ++ toString n]) (m = n) := by
  refine tells_label label ?_
  rw [spell_singleton, spell_singleton]
  exact Tells.number rfl m n

/-- A number, with what stands behind it on the line and may depend on it. -/
theorem tells_figure (label : String) (unit : Nat → String) {c : Char} (hc : c.isDigit = false)
    (hunit : ∀ n, (unit n).toList.head? = some c) (m n : Nat) :
    Tells (spell [label ++ toString m ++ unit m]) (spell [label ++ toString n ++ unit n])
      (m = n) := by
  have hline : ∀ n, spell [label ++ toString n ++ unit n] =
      label.toList ++ ((toString n).toList ++ [c] ++ ((unit n).toList.tail ++ ['\n'])) := by
    intro n
    obtain ⟨back, hback⟩ := List.head?_eq_some_iff.1 (hunit n)
    simp [spell_singleton, hback]
  rw [hline, hline]
  exact ((Tells.number hc m n).append_settled fun h => by rw [h]).append_left _

theorem tells_measure (label unit : String) (c : Char) (hc : c.isDigit = false)
    (hunit : unit.toList.head? = some c) (m n : Nat) :
    Tells (spell [label ++ toString m ++ unit]) (spell [label ++ toString n ++ unit]) (m = n) :=
  tells_figure label (fun _ => unit) hc (fun _ => hunit) m n

theorem clash_lines (h : (l.toList ++ ['\n']).head? ≠ (l'.toList ++ ['\n']).head?) :
    Tells (spell (l :: ls)) (spell (l' :: ls')) False := by
  rw [spell_cons, spell_cons]
  refine Tells.clash_append (Tells.symm (Tells.clash_append ?_))
  rcases hl : l.toList ++ ['\n'] with _ | ⟨c, cs⟩
  · simp at hl
  · rcases hl' : l'.toList ++ ['\n'] with _ | ⟨d, ds⟩
    · simp at hl'
    · rw [hl, hl'] at h
      exact (Tells.clash (by simpa using h)).symm

end Lines

section Rows

variable {α : Type} {f : α → List String} {stop stop' : List String} {Q : Prop}

theorem tells_row (hf : ∀ x y, Tells (spell (f x)) (spell (f y)) (x = y))
    (hstop : ∀ x, Tells (spell (f x)) (spell stop) False)
    (hstop' : ∀ x, Tells (spell (f x)) (spell stop') False)
    (hQ : Tells (spell stop) (spell stop') Q) (xs ys : List α) :
    Tells (spell (xs.flatMap f ++ stop)) (spell (ys.flatMap f ++ stop')) (xs = ys ∧ Q) := by
  rw [spell_append, spell_append, spell_flatMap, spell_flatMap]
  refine (Tells.row hf hstop hstop' hQ xs ys).imp (And.imp_left fun h => ?_)
  rwa [List.forall₂_eq_eq_eq] at h

theorem cons_flatMap_blank (f : α → List String) (xs : List α) (stop : List String) :
    (xs.flatMap fun x => "" :: f x) ++ "" :: stop =
      "" :: ((xs.flatMap fun x => f x ++ [""]) ++ stop) := by
  induction xs with
  | nil => rfl
  | cons x xs ih =>
    rw [List.flatMap_cons, List.append_assoc, ih, List.flatMap_cons]
    simp

/-- Blocks of lines with an empty line before each one and before what stands behind them. The empty
line before a block serves as the end of the one above it. -/
theorem tells_blocks (hf : ∀ x y, Tells (spell (f x ++ [""])) (spell (f y ++ [""])) (x = y))
    (hstop : ∀ x, Tells (spell (f x)) (spell stop) False)
    (hstop' : ∀ x, Tells (spell (f x)) (spell stop') False)
    (hQ : Tells (spell stop) (spell stop') Q) (xs ys : List α) :
    Tells (spell ((xs.flatMap fun x => "" :: f x) ++ "" :: stop))
      (spell ((ys.flatMap fun x => "" :: f x) ++ "" :: stop')) (xs = ys ∧ Q) := by
  have hclash : ∀ {stop}, (∀ x, Tells (spell (f x)) (spell stop) False) →
      ∀ x, Tells (spell (f x ++ [""])) (spell stop) False := by
    intro stop h x
    rw [spell_append]
    exact (h x).clash_append
  rw [cons_flatMap_blank, cons_flatMap_blank, spell_cons, spell_cons]
  exact (tells_row hf (hclash hstop) (hclash hstop') hQ xs ys).append_left _

end Rows

end TxScope
