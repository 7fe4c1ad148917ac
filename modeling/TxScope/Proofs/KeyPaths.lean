import TxScope.Proofs.Bytes
import TxScope.Settings

/-!
# Values stored at paths

Storing a value at a path changes the table under the first name of the path and nowhere else, and
what is there afterwards follows from what was there before (`lookup_put`). So of a whole layer only
the entries matter that begin with a name, each put over what the ones before it left
(`lookup_placeAll`).

A value put over nothing is itself, if the tables in it name each key once (`overlay_none`).
-/

namespace TxScope

open Settings (Value Table lookup assign)

namespace Settings

theorem lookup_cons (key k : String) (v : Value) (t : Table) :
    lookup key ((k, v) :: t) = if key = k then some v else lookup key t := by
  rw [lookup, List.lookup_cons]
  by_cases h : key = k
  · rw [if_pos h, beq_iff_eq.2 h]
  · rw [if_neg h, beq_eq_false_iff_ne.2 h]
    rfl

theorem lookup_assign (key k : String) (v : Value) (t : Table) :
    lookup key (assign k v t) = if key = k then some v else lookup key t := by
  induction t with
  | nil => rw [assign, lookup_cons]
  | cons e t ih =>
    obtain ⟨k', w⟩ := e
    by_cases hk : k' = k
    · rw [assign, if_pos hk, lookup_cons, lookup_cons, hk]
      split_ifs <;> rfl
    · rw [assign, if_neg hk, lookup_cons, lookup_cons, ih]
      split_ifs with h1 h2
      · exact absurd (h1.symm.trans h2) hk
      · rfl
      · rfl
      · rfl

theorem lookup_eq_none_iff {key : String} {t : Table} :
    lookup key t = none ↔ key ∉ t.map Prod.fst := by
  induction t with
  | nil => simp [lookup]
  | cons e t ih =>
    rw [lookup_cons, List.map_cons, List.mem_cons, not_or, ← ih]
    split_ifs with h <;> simp [h]

theorem mem_of_lookup {key : String} {v : Value} {t : Table} (h : lookup key t = some v) :
    (key, v) ∈ t := by
  induction t with
  | nil => simp [lookup] at h
  | cons e t ih =>
    obtain ⟨k, w⟩ := e
    rw [lookup_cons] at h
    split_ifs at h with hk
    · rw [hk, Option.some_inj.1 h]
      exact List.mem_cons_self
    · exact List.mem_cons_of_mem _ (ih h)

theorem assign_of_not_mem {key : String} {v : Value} {t : Table} (h : key ∉ t.map Prod.fst) :
    assign key v t = t ++ [(key, v)] := by
  induction t with
  | nil => rfl
  | cons e t ih =>
    rw [List.map_cons, List.mem_cons, not_or] at h
    rw [assign, if_neg (Ne.symm h.1), ih h.2, List.cons_append]

/-- The tables in a value name each of their keys once. -/
inductive Value.Distinct : Value → Prop
  | plain {v : Value} (h : ∀ entries, v ≠ .table entries) : Distinct v
  | table {entries : Table} (hkeys : (entries.map Prod.fst).Nodup)
      (h : ∀ e ∈ entries, Distinct e.2) : Distinct (.table entries)

theorem Value.distinct_table_iff {entries : Table} : (Value.table entries).Distinct ↔
    (entries.map Prod.fst).Nodup ∧ ∀ e ∈ entries, e.2.Distinct := by
  constructor
  · rintro (⟨h⟩ | ⟨hkeys, h⟩)
    · exact absurd rfl (h entries)
    · exact ⟨hkeys, h⟩
  · exact fun h => .table h.1 h.2

end Settings

namespace KeyPath

theorem overlay_of_plain {v : Value} (h : ∀ entries, v ≠ .table entries) (old : Option Value) :
    overlay old v = v := by
  cases v with
  | table entries => exact absurd rfl (h entries)
  | _ => simp only [overlay]

/-- Entries with new keys go behind those there are. -/
theorem overlayAll_eq_append : ∀ (rest : Table) (below : Table),
    ((below ++ rest).map Prod.fst).Nodup → (∀ e ∈ rest, overlay none e.2 = e.2) →
      overlayAll below rest = below ++ rest
  | [], below, _, _ => by rw [overlayAll, List.append_nil]
  | (k, v) :: rest, below, hkeys, hv => by
    have hk : k ∉ below.map Prod.fst := by
      rw [List.map_append, List.map_cons] at hkeys
      exact fun hmem => (List.nodup_append.1 hkeys).2.2 _ hmem _ List.mem_cons_self rfl
    have happ : below ++ (k, v) :: rest = (below ++ [(k, v)]) ++ rest := by simp
    obtain ⟨hfirst, hrest⟩ := List.forall_mem_cons.1 hv
    rw [overlayAll, Settings.lookup_eq_none_iff.2 hk, hfirst, Settings.assign_of_not_mem hk, happ]
    rw [happ] at hkeys
    exact overlayAll_eq_append rest _ hkeys hrest

/-- A value put over nothing stays as it is. -/
theorem overlay_none {v : Value} (h : v.Distinct) : overlay none v = v := by
  induction h with
  | plain h => exact overlay_of_plain h none
  | @table entries hkeys _ ih =>
    rcases entries with _ | ⟨⟨k, v⟩, rest⟩
    · rw [overlay]
      rfl
    · obtain ⟨hfirst, hrest⟩ := List.forall_mem_cons.1 ih
      have hall := overlayAll_eq_append rest [(k, v)] hkeys hrest
      rw [overlay]
      exact congrArg Value.table (by simpa [hfirst, Settings.lookup, assign, entriesOf] using hall)

/-- What stands under the first name of a path when a value was stored there. -/
def stored (path : KeyPath) (v : Value) (old : Option Value) : Value :=
  match path.steps with
  | [] => overlay old v
  | steps => putSteps v steps (old.getD .nothing)

theorem lookup_put (path : KeyPath) (v : Value) (t : Table) (key : String) :
    lookup key (path.put v t) =
      if key = path.head then some (path.stored v (lookup key t)) else lookup key t := by
  obtain ⟨head, steps⟩ := path
  rcases steps with _ | ⟨step, steps⟩
  · simp only [put, putSteps, entriesOf, stored, Settings.lookup_assign]
    split_ifs with h
    · rw [h]
    · rfl
  · simp only [put, putSteps, entriesOf, stored, Settings.lookup_assign]
    split_ifs with h
    · rw [h]
    · rfl

end KeyPath

namespace Settings

def entriesAt (key : String) (layer : Table) : Table :=
  layer.filter fun e => (KeyPath.ofText e.1).head = key

theorem entriesAt_cons (key k : String) (v : Value) (layer : Table) :
    entriesAt key ((k, v) :: layer) =
      if (KeyPath.ofText k).head = key then (k, v) :: entriesAt key layer
      else entriesAt key layer := by
  simp [entriesAt, List.filter_cons]

/-- Under a key there is what the entries at this key leave, one after the other. -/
theorem lookup_placeAll (key : String) (layer t : Table) :
    lookup key (placeAll layer t) = (entriesAt key layer).foldl
      (fun old e => some ((KeyPath.ofText e.1).stored e.2 old)) (lookup key t) := by
  induction layer generalizing t with
  | nil => rfl
  | cons e layer ih =>
    obtain ⟨k, v⟩ := e
    have hstep : placeAll ((k, v) :: layer) t = placeAll layer ((KeyPath.ofText k).put v t) := rfl
    rw [hstep, ih, KeyPath.lookup_put, entriesAt_cons]
    by_cases h : (KeyPath.ofText k).head = key
    · rw [if_pos h.symm, if_pos h, List.foldl_cons]
    · rw [if_neg (Ne.symm h), if_neg h]

theorem lookup_placeAll_of_entriesAt_eq {key : String} {layer layer' t t' : Table}
    (hlayer : entriesAt key layer = entriesAt key layer') (ht : lookup key t = lookup key t') :
    lookup key (placeAll layer t) = lookup key (placeAll layer' t') := by
  rw [lookup_placeAll, lookup_placeAll, hlayer, ht]

theorem entriesAt_of_plain {key : String} {t : Table} (hkeys : (t.map Prod.fst).Nodup)
    (hplain : ∀ e ∈ t, KeyPath.ofText e.1 = ⟨e.1, []⟩) :
    entriesAt key t = (lookup key t).toList.map fun v => (key, v) := by
  induction t with
  | nil => rfl
  | cons e t ih =>
    obtain ⟨k, v⟩ := e
    obtain ⟨hk, hrest⟩ := List.nodup_cons.1 hkeys
    obtain ⟨hhead, htail⟩ := List.forall_mem_cons.1 hplain
    rw [entriesAt_cons, hhead, lookup_cons, ih hrest htail]
    by_cases h : key = k
    · rw [if_pos h.symm, if_pos h, h, lookup_eq_none_iff.2 hk]
      rfl
    · rw [if_neg (Ne.symm h), if_neg h]

/-- A table without paths for keys, put over nothing, holds what it holds. -/
theorem lookup_placeAll_of_plain {key : String} {t : Table} (ht : (Value.table t).Distinct)
    (hplain : ∀ e ∈ t, KeyPath.ofText e.1 = ⟨e.1, []⟩)
    (hkey : KeyPath.ofText key = ⟨key, []⟩) : lookup key (placeAll t []) = lookup key t := by
  obtain ⟨hkeys, hvalues⟩ := Value.distinct_table_iff.1 ht
  rw [lookup_placeAll, entriesAt_of_plain hkeys hplain]
  rcases hv : lookup key t with _ | v
  · rfl
  · have hmem : (key, v) ∈ t := mem_of_lookup hv
    simp [hkey, KeyPath.stored, KeyPath.overlay_none (hvalues _ hmem), lookup]

end Settings

end TxScope
