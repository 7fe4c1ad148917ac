import TxScope.Proofs.Bytes

/-!
# Legible text

`Text.Tells a b P` says that of two texts, one beginning with `a` and one with `b`, the beginnings
can be the same only if `P` holds, and that they end at the same place then, whatever follows. So
a reader knows `P` without a mark behind. It holds of a field up to a character that is not in it,
of fields one after the other, and of a row of them up to something that none of them begins with.
-/

namespace TxScope.Text

theorem toString_text (text : String) : toString text = text := rfl

def Tells (a b : List Char) (P : Prop) : Prop := ∀ r r', a ++ r = b ++ r' → P ∧ r = r'

namespace Tells

variable {a b a' b' : List Char} {P Q : Prop}

theorem of_eq (h : Tells a b P) (hab : a = b) : P :=
  (h [] [] (by rw [hab])).1

theorem imp (h : Tells a b P) (hPQ : P → Q) : Tells a b Q := fun r r' hr =>
  (h r r' hr).imp_left hPQ

theorem symm (h : Tells a b P) : Tells b a P := fun r r' hr =>
  (h r' r hr.symm).imp_right Eq.symm

theorem same (a : List Char) : Tells a a True := fun _ _ hr =>
  ⟨trivial, List.append_cancel_left hr⟩

theorem of_clash (h : Tells a b False) : Tells a b P :=
  h.imp False.elim

theorem append (h : Tells a b P) (h' : P → Tells a' b' Q) : Tells (a ++ a') (b ++ b') (P ∧ Q) := by
  intro r r' hr
  rw [List.append_assoc, List.append_assoc] at hr
  obtain ⟨hP, htail⟩ := h _ _ hr
  obtain ⟨hQ, hrest⟩ := h' hP _ _ htail
  exact ⟨⟨hP, hQ⟩, hrest⟩

theorem append_left (front : List Char) (h : Tells a b P) : Tells (front ++ a) (front ++ b) P :=
  ((same front).append fun _ => h).imp And.right

/-- What follows from a field may stand behind it. -/
theorem append_settled (h : Tells a b P) (hback : P → a' = b') : Tells (a ++ a') (b ++ b') P := by
  refine (h.append (Q := True) fun hP => ?_).imp And.left
  rw [hback hP]
  exact same b'

/-- What begins apart stays apart. -/
theorem clash_append (h : Tells a b False) : Tells (a ++ a') b P := by
  intro r r' hr
  rw [List.append_assoc] at hr
  exact (h _ _ hr).1.elim

theorem clash {c d : Char} (hcd : c ≠ d) : Tells (c :: a) (d :: b) False := fun _ _ hr =>
  absurd (List.cons.inj hr).1 hcd

theorem clash_two {c d c' d' : Char} (h : ¬ (c = c' ∧ d = d')) :
    Tells (c :: d :: a) (c' :: d' :: b) False := by
  intro r r' hr
  simp only [List.cons_append, List.cons.injEq] at hr
  exact absurd ⟨hr.1, hr.2.1⟩ h

/-- A field ends at the first character that cannot be in it. -/
theorem upTo {c : Char} (ha : c ∉ a) (hb : c ∉ b) : Tells (a ++ [c]) (b ++ [c]) (a = b) := by
  induction a generalizing b with
  | nil =>
    rcases b with _ | ⟨d, b⟩
    · exact (same [c]).imp fun _ => rfl
    · exact (clash (List.ne_of_not_mem_cons hb)).of_clash
  | cons d a ih =>
    rcases b with _ | ⟨e, b⟩
    · exact (clash (List.ne_of_not_mem_cons ha)).symm.of_clash
    · by_cases hde : d = e
      · subst hde
        have htail := ih (List.not_mem_of_not_mem_cons ha) (List.not_mem_of_not_mem_cons hb)
        exact (htail.append_left [d]).imp (congrArg _)
      · exact (clash hde).of_clash

/-- A row of fields ends where no field begins. -/
theorem row {α : Type} {f : α → List Char} {R : α → α → Prop} {stop stop' : List Char}
    (hf : ∀ x y, Tells (f x) (f y) (R x y)) (hstop : ∀ x, Tells (f x) stop False)
    (hstop' : ∀ x, Tells (f x) stop' False) (hQ : Tells stop stop' Q) :
    ∀ xs ys, Tells (xs.flatMap f ++ stop) (ys.flatMap f ++ stop') (List.Forall₂ R xs ys ∧ Q)
  | [], [] => hQ.imp fun hq => ⟨.nil, hq⟩
  | [], y :: ys => by
    rw [List.flatMap_cons, List.append_assoc]
    exact (hstop y).clash_append.symm
  | x :: xs, [] => by
    rw [List.flatMap_cons, List.append_assoc]
    exact (hstop' x).clash_append
  | x :: xs, y :: ys => by
    rw [List.flatMap_cons, List.append_assoc, List.flatMap_cons, List.append_assoc]
    exact ((hf x y).append fun _ => row hf hstop hstop' hQ xs ys).imp
      fun h => ⟨.cons h.1 h.2.1, h.2.2⟩

end Tells

/-! ## Numbers -/

theorem toDigits_injective : Function.Injective (Nat.toDigits 10) := fun m n h => by
  rw [← Nat.ofDigitChars_ten_toDigits (n := m), h, Nat.ofDigitChars_ten_toDigits]

theorem toString_injective : Function.Injective fun n : Nat => toString n := fun m n h => by
  simp only [Nat.toString_eq_ofList_toDigits, String.ofList_inj] at h
  exact toDigits_injective h

theorem not_mem_toDigits {n : Nat} {c : Char} (hc : c.isDigit = false) :
    c ∉ Nat.toDigits 10 n := by
  intro h
  rw [Nat.isDigit_of_mem_toDigits (by omega) (by omega) h] at hc
  cases hc

theorem not_mem_toString {n : Nat} {c : Char} (hc : c.isDigit = false) :
    c ∉ (toString n).toList := by
  rw [Nat.toString_eq_ofList_toDigits, String.toList_ofList]
  exact not_mem_toDigits hc

/-- A number ends before the first character that is no digit. -/
theorem Tells.number {c : Char} (hc : c.isDigit = false) (m n : Nat) :
    Tells ((toString m).toList ++ [c]) ((toString n).toList ++ [c]) (m = n) :=
  (upTo (not_mem_toString hc) (not_mem_toString hc)).imp fun h =>
    toString_injective (String.toList_inj.1 h)

theorem toString_int (z : Int) :
    toString z = if 0 ≤ z then toString z.toNat else "-" ++ toString (-z).toNat := by
  rw [Int.toString_eq_repr, Int.repr_eq_if]
  rfl

theorem minus_mem_toString_iff {z : Int} : '-' ∈ (toString z).toList ↔ z < 0 := by
  rw [toString_int]
  by_cases hz : 0 ≤ z
  · have hdigits : '-' ∉ Nat.toDigits 10 z.toNat := not_mem_toDigits rfl
    simp [hz, hdigits]
  · simpa [hz] using Int.not_le.1 hz

theorem toString_int_injective : Function.Injective fun z : Int => toString z := by
  intro y z (h : toString y = toString z)
  have hsign : y < 0 ↔ z < 0 := by
    rw [← minus_mem_toString_iff, h, minus_mem_toString_iff]
  rw [toString_int, toString_int] at h
  by_cases hy : 0 ≤ y
  · have hz : 0 ≤ z := by omega
    rw [if_pos hy, if_pos hz] at h
    have hnat := toString_injective h
    omega
  · have hz : ¬ 0 ≤ z := by omega
    rw [if_neg hy, if_neg hz, String.append_right_inj] at h
    have hnat := toString_injective h
    omega

theorem not_mem_toString_int {z : Int} {c : Char} (hc : c.isDigit = false) (hminus : c ≠ '-') :
    c ∉ (toString z).toList := by
  rw [toString_int]
  split_ifs
  · exact not_mem_toString hc
  · simp [hminus, not_mem_toDigits hc]

end TxScope.Text
