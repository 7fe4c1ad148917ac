import Mathlib.Data.String.Basic
import TxScope.Counters
import TxScope.Proofs.Bytes

/-!
# Tallies

The labels of a tally are in order and each stands once (`Tally.Ordered`), so adding a label changes
the count of that label only (`Tally.count_add`). Labels may be added in any order
(`Tally.add_add_comm`).
-/

namespace TxScope.Tally

/-- Labels in their order, without repetition. -/
def Ordered (t : Tally) : Prop := t.Pairwise fun a b => a.1 < b.1

theorem add_nil (label : String) : add [] label = [(label, 1)] := rfl

theorem add_same (label : String) (n : Nat) (rest : Tally) :
    add ((label, n) :: rest) label = (label, n + 1) :: rest := by
  rw [add, if_pos rfl]

theorem add_before {label l : String} (h : label < l) (n : Nat) (rest : Tally) :
    add ((l, n) :: rest) label = (label, 1) :: (l, n) :: rest := by
  rw [add, if_neg h.ne', if_pos h]

theorem add_after {label l : String} (h : l < label) (n : Nat) (rest : Tally) :
    add ((l, n) :: rest) label = (l, n) :: add rest label := by
  rw [add, if_neg h.ne, if_neg h.asymm]

theorem mem_add {p : String × Nat} {label : String} : ∀ {t : Tally}, p ∈ add t label →
    p.1 = label ∨ ∃ q ∈ t, p.1 = q.1
  | [], h => by
    rw [add_nil, List.mem_singleton] at h
    exact .inl (by rw [h])
  | (l, n) :: rest, h => by
    rcases lt_trichotomy label l with hlt | rfl | hgt
    · rw [add_before hlt, List.mem_cons] at h
      rcases h with rfl | h
      · exact .inl rfl
      · exact .inr ⟨p, h, rfl⟩
    · rw [add_same, List.mem_cons] at h
      rcases h with rfl | h
      · exact .inl rfl
      · exact .inr ⟨p, List.mem_cons_of_mem _ h, rfl⟩
    · rw [add_after hgt, List.mem_cons] at h
      rcases h with rfl | h
      · exact .inr ⟨(l, n), List.mem_cons_self, rfl⟩
      · rcases mem_add h with h | ⟨q, hq, h⟩
        · exact .inl h
        · exact .inr ⟨q, List.mem_cons_of_mem _ hq, h⟩

theorem Ordered.add (label : String) : ∀ {t : Tally}, t.Ordered → (t.add label).Ordered
  | [], _ => List.pairwise_singleton _ _
  | (l, n) :: rest, h => by
    obtain ⟨hl, hrest⟩ := List.pairwise_cons.1 h
    rcases lt_trichotomy label l with hlt | rfl | hgt
    · rw [add_before hlt]
      refine List.pairwise_cons.2 ⟨fun p hp => ?_, h⟩
      rcases List.mem_cons.1 hp with rfl | hp
      · exact hlt
      · exact hlt.trans (hl p hp)
    · rw [add_same]
      exact List.pairwise_cons.2 ⟨hl, hrest⟩
    · rw [add_after hgt]
      refine List.pairwise_cons.2 ⟨fun p hp => ?_, Ordered.add label hrest⟩
      rcases mem_add hp with hp | ⟨q, hq, hp⟩
      · exact hp ▸ hgt
      · exact hp ▸ hl q hq

theorem count_cons (l : String) (n : Nat) (rest : Tally) (label : String) :
    count ((l, n) :: rest) label = if l = label then n else count rest label := by
  rw [count]

theorem count_eq_zero {label : String} : ∀ {t : Tally}, (∀ p ∈ t, p.1 ≠ label) → t.count label = 0
  | [], _ => rfl
  | (l, n) :: rest, h => by
    rw [count_cons, if_neg (h _ List.mem_cons_self)]
    exact count_eq_zero fun p hp => h p (List.mem_cons_of_mem _ hp)

/-- Adding a label counts it once more, and no other one. -/
theorem count_add (label other : String) : ∀ {t : Tally}, t.Ordered →
    (t.add label).count other = t.count other + if label = other then 1 else 0
  | [], _ => by
    rw [add_nil, count_cons]
    simp [count]
  | (l, n) :: rest, h => by
    obtain ⟨hl, hrest⟩ := List.pairwise_cons.1 h
    rcases lt_trichotomy label l with hlt | rfl | hgt
    · rw [add_before hlt, count_cons]
      split_ifs with ho
      · subst ho
        rw [count_eq_zero]
        intro p hp
        rcases List.mem_cons.1 hp with rfl | hp
        · exact hlt.ne'
        · exact (hlt.trans (hl p hp)).ne'
      · rfl
    · rw [add_same, count_cons, count_cons]
      split_ifs <;> rfl
    · rw [add_after hgt, count_cons, count_cons, count_add label other hrest]
      split_ifs with h1 h2
      · exact absurd (h2.trans h1.symm) hgt.ne'
      · rfl
      · rfl
      · rfl

theorem add_add_comm (a b : String) : ∀ t : Tally, (t.add a).add b = (t.add b).add a
  | [] => by
    rw [add_nil, add_nil]
    rcases lt_trichotomy a b with h | rfl | h
    · rw [add_after h, add_nil, add_before h]
    · rfl
    · rw [add_before h, add_after h, add_nil]
  | (l, n) :: rest => by
    rcases lt_trichotomy a l with ha | rfl | ha
    · rcases lt_trichotomy b l with hb | rfl | hb
      · rw [add_before ha, add_before hb]
        rcases lt_trichotomy a b with h | rfl | h
        · rw [add_after h, add_before hb, add_before h]
        · rfl
        · rw [add_before h, add_after h, add_before ha]
      · rw [add_before ha, add_after ha, add_same, add_before ha]
      · rw [add_before ha, add_after (ha.trans hb), add_after hb, add_before ha]
    · rcases lt_trichotomy b a with hb | rfl | hb
      · rw [add_same, add_before hb, add_before hb, add_after hb, add_same]
      · rfl
      · rw [add_same, add_after hb, add_after hb, add_same]
    · rcases lt_trichotomy b l with hb | rfl | hb
      · rw [add_after ha, add_before hb, add_before hb, add_after (hb.trans ha), add_after ha]
      · rw [add_after ha, add_same, add_same, add_after ha]
      · rw [add_after ha, add_after hb, add_after hb, add_after ha, add_add_comm a b rest]

/-! ## Many labels -/

theorem count_foldl_add (other : String) (labels : List String) : ∀ {t : Tally}, t.Ordered →
    (labels.foldl add t).count other = t.count other + labels.count other := by
  induction labels with
  | nil => exact fun _ => rfl
  | cons label labels ih =>
    intro t h
    rw [List.foldl_cons, ih (h.add label), count_add label other h, List.count_cons]
    simp only [beq_iff_eq]
    omega

theorem foldl_add_perm {labels labels' : List String} (h : labels.Perm labels') (t : Tally) :
    labels.foldl add t = labels'.foldl add t :=
  h.foldl_eq' (fun a _ b _ t => add_add_comm a b t) t

end TxScope.Tally
