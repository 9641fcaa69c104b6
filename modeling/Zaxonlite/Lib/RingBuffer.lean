import Mathlib.Data.List.Range
import Mathlib.Logic.Function.Basic

/-!
# Ring buffers

A ring keeps the newest elements of a sequence in a fixed number of cells. Pushing onto a full ring
overwrites the oldest cell and moves the start. What a reader sees is the list in logical order, oldest
first; the physical position of the start never shows in it.
-/

/-- Cells `start, start + 1, …, start + count - 1`, taken modulo the capacity. -/
structure RingBuffer (α : Type*) (capacity : ℕ) where
  cells : ℕ → α
  start : ℕ
  count : ℕ
  start_lt : start < capacity
  count_le : count ≤ capacity

namespace RingBuffer

variable {α : Type*} {capacity : ℕ}

/-- The element at a logical index. -/
def get (r : RingBuffer α capacity) (index : ℕ) : α :=
  r.cells ((r.start + index) % capacity)

/-- The elements, oldest first. -/
def toList (r : RingBuffer α capacity) : List α :=
  (List.range r.count).map r.get

def empty (fill : α) (h : 0 < capacity) : RingBuffer α capacity :=
  ⟨fun _ => fill, 0, 0, h, Nat.zero_le _⟩

/-- A ring filled from its first cell on with the elements of a list, as many as fit. -/
def ofList (fill : α) (h : 0 < capacity) (l : List α) : RingBuffer α capacity :=
  ⟨fun i => l.getD i fill, 0, min l.length capacity, h, min_le_right _ _⟩

/-- Add an element, in the place of the oldest one when the ring is full. -/
def push (r : RingBuffer α capacity) (x : α) : RingBuffer α capacity :=
  if h : r.count = capacity then
    { r with
      cells := Function.update r.cells r.start x
      start := (r.start + 1) % capacity
      start_lt := Nat.mod_lt _ (Nat.zero_lt_of_lt r.start_lt) }
  else
    { r with
      cells := Function.update r.cells ((r.start + r.count) % capacity) x
      count := r.count + 1
      count_le := Nat.lt_of_le_of_ne r.count_le h }

@[simp] theorem length_toList (r : RingBuffer α capacity) : r.toList.length = r.count := by
  simp [toList]

theorem toList_ofList (fill : α) (h : 0 < capacity) {l : List α} (hlen : l.length ≤ capacity) :
    (ofList fill h l).toList = l := by
  apply List.ext_getElem
  · rw [length_toList]
    exact min_eq_left hlen
  · intro i hi hi'
    simp only [toList, List.getElem_map, List.getElem_range, get, ofList, Nat.zero_add]
    rw [Nat.mod_eq_of_lt (lt_of_lt_of_le hi' hlen), List.getD_eq_getElem?_getD, List.getElem?_eq_getElem hi', Option.getD_some]

theorem cell_ne {start i j : ℕ} (hij : i < j) (hj : j < i + capacity) :
    (start + i) % capacity ≠ (start + j) % capacity := by
  intro heq
  have hzero : (j - i) % capacity = 0 := by
    have hsplit : start + j = start + i + (j - i) := by omega
    have h := Nat.sub_mod_eq_zero_of_mod_eq heq.symm
    rwa [hsplit, Nat.add_sub_cancel_left] at h
  rw [Nat.mod_eq_of_lt (by omega)] at hzero
  omega

theorem toList_push_full (r : RingBuffer α capacity) (x : α) (hfull : r.count = capacity) :
    (r.push x).toList = r.toList.tail ++ [x] := by
  obtain ⟨k, hk⟩ : ∃ k, capacity = k + 1 := ⟨capacity - 1, by have := r.start_lt; omega⟩
  have hkept : ∀ i ∈ List.range k, Function.update r.cells r.start x
      (((r.start + 1) % capacity + i) % capacity) = r.get (i + 1) := by
    intro i hi
    rw [List.mem_range] at hi
    have hcell : ((r.start + 1) % capacity + i) % capacity = (r.start + (i + 1)) % capacity := by
      rw [Nat.mod_add_mod, Nat.add_assoc, Nat.add_comm 1 i]
    have hne : (r.start + (i + 1)) % capacity ≠ r.start := by
      have hzero : 0 < i + 1 := Nat.succ_pos i
      have h : (r.start + 0) % capacity ≠ (r.start + (i + 1)) % capacity :=
        cell_ne hzero (by omega)
      rw [Nat.add_zero, Nat.mod_eq_of_lt r.start_lt] at h
      exact h.symm
    rw [hcell, Function.update_of_ne hne, get]
  have hlast : ((r.start + 1) % capacity + k) % capacity = r.start := by
    have hwrap : r.start + 1 + k = r.start + capacity := by omega
    rw [Nat.mod_add_mod, hwrap, Nat.add_mod_right, Nat.mod_eq_of_lt r.start_lt]
  have hcount : r.count = k + 1 := hfull.trans hk
  have htail : r.toList.tail = (List.range k).map fun i => r.get (i + 1) := by
    rw [toList, hcount, List.range_succ_eq_map, List.map_cons, List.tail_cons, List.map_map]
    rfl
  rw [htail, push, dif_pos hfull, toList]
  simp only [hcount, List.range_succ, List.map_append, List.map_singleton]
  rw [← List.map_congr_left hkept]
  simp only [get, hlast, Function.update_self]
  rfl

theorem toList_push_room (r : RingBuffer α capacity) (x : α) (hroom : r.count ≠ capacity) :
    (r.push x).toList = r.toList ++ [x] := by
  have hlt : r.count < capacity := Nat.lt_of_le_of_ne r.count_le hroom
  have hkept : ∀ i ∈ List.range r.count, Function.update r.cells ((r.start + r.count) % capacity) x
      ((r.start + i) % capacity) = r.get i := by
    intro i hi
    rw [List.mem_range] at hi
    rw [Function.update_of_ne (cell_ne hi (by omega)), get]
  rw [push, dif_neg hroom, toList]
  simp only [List.range_succ, List.map_append, List.map_singleton]
  rw [toList, ← List.map_congr_left hkept]
  simp only [get, Function.update_self]
  rfl

/-- **Pushing appends to the logical list and keeps its newest elements.** -/
theorem toList_push (r : RingBuffer α capacity) (x : α) :
    (r.push x).toList = (r.toList ++ [x]).drop (r.count + 1 - capacity) := by
  by_cases hfull : r.count = capacity
  · have hne : r.toList ≠ [] := by
      intro hnil
      have hlen := r.length_toList
      rw [hnil, List.length_nil] at hlen
      have := r.start_lt
      omega
    rw [toList_push_full r x hfull, hfull, Nat.add_sub_cancel_left, List.drop_one,
      List.tail_append_of_ne_nil hne]
  · have hzero : r.count + 1 - capacity = 0 := by
      have := r.count_le
      omega
    rw [toList_push_room r x hfull, hzero, List.drop_zero]

/-- A ring that holds the newest elements of a sequence holds the newest ones of the longer sequence. -/
theorem toList_push_newest (r : RingBuffer α capacity) {l : List α} (x : α)
    (h : r.toList = l.drop (l.length - capacity)) :
    (r.push x).toList = (l ++ [x]).drop (l.length + 1 - capacity) := by
  have hcount : r.count = l.length - (l.length - capacity) := by
    rw [← r.length_toList, h, List.length_drop]
  have hsplit : l.length - capacity + (r.count + 1 - capacity) = l.length + 1 - capacity := by omega
  rw [toList_push, h, ← List.drop_append_of_le_length (Nat.sub_le _ _), List.drop_drop, hsplit]

end RingBuffer
