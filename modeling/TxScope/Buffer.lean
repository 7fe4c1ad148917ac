/-!
# Buffers

A `Buffer` is a row of slots that are taken from front to back. Slots can be made before the
elements are known; when all are taken and one more element comes, a slot is made for it.
-/

namespace TxScope

structure Buffer (α : Type) where
  slots : Array (Option α)
  /-- How many slots are taken. -/
  size : Nat
  size_le : size ≤ slots.size

namespace Buffer

variable {α : Type}

/-- How many elements fit in the slots there are. -/
def room (b : Buffer α) : Nat := b.slots.size

/-- An empty buffer with slots made in advance. -/
def reserve (room : Nat) : Buffer α := ⟨Array.replicate room none, 0, Nat.zero_le _⟩

def push (b : Buffer α) (x : α) : Buffer α :=
  if h : b.size < b.slots.size then
    ⟨b.slots.set b.size (some x), b.size + 1, by rwa [Array.size_set]⟩
  else
    ⟨b.slots.push (some x), b.size + 1, by rw [Array.size_push]; exact Nat.succ_le_succ b.size_le⟩

def toList (b : Buffer α) : List α := (b.slots.toList.take b.size).filterMap id

@[simp] theorem toList_reserve (room : Nat) : (reserve room : Buffer α).toList = [] := rfl

@[simp] theorem room_reserve (room : Nat) : (reserve room : Buffer α).room = room :=
  Array.size_replicate

theorem room_push {b : Buffer α} (x : α) (h : b.size < b.room) : (b.push x).room = b.room := by
  have hslot : b.size < b.slots.size := h
  rw [push, dif_pos hslot]
  exact Array.size_set hslot

@[simp] theorem size_push (b : Buffer α) (x : α) : (b.push x).size = b.size + 1 := by
  unfold push
  split <;> rfl

@[simp] theorem toList_push (b : Buffer α) (x : α) : (b.push x).toList = b.toList ++ [x] := by
  unfold push toList
  split
  · rename_i h
    have hlen : b.size < b.slots.toList.length := h
    have htake : (b.slots.toList.set b.size (some x)).take (b.size + 1) =
        b.slots.toList.take b.size ++ [some x] := by
      rw [List.take_add_one, List.take_set_of_le (Nat.le_refl _), List.getElem?_set_self hlen]
      rfl
    rw [Array.toList_set, htake, List.filterMap_append]
    rfl
  · rename_i h
    have hall : b.slots.toList.length ≤ b.size := Nat.le_of_not_lt h
    rw [Array.toList_push, List.take_of_length_le (by simpa using hall),
      List.take_of_length_le hall, List.filterMap_append]
    rfl

end Buffer

end TxScope
