import Mathlib.Data.List.Basic
import Mathlib.Logic.Function.Basic

/-!
# Circular buffer

Source: src/include/util/circular_buffer.h. The backing vector is a function of the
slot number, of which the slots below `capacity` are used.
-/
namespace Mmemu.Source

structure CircularBuffer (α : Type) where
  capacity : ℕ
  size : ℕ
  head : ℕ
  buffer : ℕ → α
  size_le : size ≤ capacity
  head_le : head < capacity ∨ capacity = 0

namespace CircularBuffer
variable {α : Type}

/-- A buffer of `capacity` value-initialised slots. -/
def new (capacity : ℕ) (init : α) : CircularBuffer α where
  capacity := capacity
  size := 0
  head := 0
  buffer := fun _ => init
  size_le := Nat.zero_le _
  head_le := by omega

/-- Store an item in the next slot, over the oldest one when the buffer is full. Without any
capacity nothing happens. -/
def push (c : CircularBuffer α) (item : α) : CircularBuffer α where
  capacity := c.capacity
  size := if c.size < c.capacity then c.size + 1 else c.size
  head := if c.capacity = 0 then c.head else (c.head + 1) % c.capacity
  buffer := if c.capacity = 0 then c.buffer else Function.update c.buffer c.head item
  size_le := by
    have := c.size_le
    split <;> omega
  head_le := by
    rcases Nat.eq_zero_or_pos c.capacity with zero | positive
    · exact .inr zero
    · rw [if_neg (Nat.ne_of_gt positive)]
      exact .inl (Nat.mod_lt _ positive)

/-- Advance, and let the caller fill the slot in place; it still holds the item overwritten.
Without any capacity this throws. -/
def pushSlot (c : CircularBuffer α) (fill : α → α) : Option (CircularBuffer α) :=
  if c.capacity = 0 then none else some (c.push (fill (c.buffer c.head)))

/-- Forget the items; the slots stay as they are. -/
def clear (c : CircularBuffer α) : CircularBuffer α where
  capacity := c.capacity
  size := 0
  head := 0
  buffer := c.buffer
  size_le := Nat.zero_le _
  head_le := by omega

/-- The slot of the item pushed last. -/
def lastSlot (c : CircularBuffer α) : ℕ := (c.head + c.capacity - 1) % c.capacity

/-- Remove the most recently pushed item. -/
def popBack (c : CircularBuffer α) : Option (α × CircularBuffer α) :=
  if c.size = 0 then none
  else some (c.buffer c.lastSlot,
    { c with
      size := c.size - 1
      head := c.lastSlot
      size_le := by have := c.size_le; omega
      head_le := by
        rcases Nat.eq_zero_or_pos c.capacity with zero | positive
        · exact .inr zero
        · exact .inl (Nat.mod_lt _ positive) })

/-- Change the most recently pushed item in place, as through the reference `back()`. -/
def modifyBack (c : CircularBuffer α) (f : α → α) : CircularBuffer α :=
  if c.size = 0 then c
  else { c with buffer := Function.update c.buffer c.lastSlot (f (c.buffer c.lastSlot)) }

/-- The slot `operator[]` looks at. -/
def slot (c : CircularBuffer α) (index : ℕ) : ℕ :=
  if c.size < c.capacity then index else (c.head + index) % c.capacity

/-- `operator[]`; out of range it throws. -/
def get (c : CircularBuffer α) (index : ℕ) : Option α :=
  if c.size ≤ index then none else some (c.buffer (c.slot index))

/-- Change an item through the reference `operator[]` returns. -/
def modify (c : CircularBuffer α) (index : ℕ) (f : α → α) : Option (CircularBuffer α) :=
  if c.size ≤ index then none
  else some { c with buffer := Function.update c.buffer (c.slot index) (f (c.buffer (c.slot index))) }

/-- `back()`; on an empty buffer it throws. -/
def back (c : CircularBuffer α) : Option α :=
  if c.size = 0 then none else some (c.buffer c.lastSlot)

/-- The items held, the newest first. -/
def recent (c : CircularBuffer α) : List α :=
  (List.range c.size).map fun k => c.buffer ((c.head + c.capacity - 1 - k) % c.capacity)

@[simp] theorem length_recent (c : CircularBuffer α) : c.recent.length = c.size := by
  simp [recent]

/-- Fewer than `n` slots back around a ring of `n` is another slot. -/
theorem mod_sub_ne {n d : ℕ} (a : ℕ) (positive : 0 < d) (lt : d < n) (le : d ≤ a) :
    (a - d) % n ≠ a % n := by
  intro same
  have multiple := Nat.sub_mod_eq_zero_of_mod_eq same.symm
  rw [Nat.sub_sub_self le, Nat.mod_eq_of_lt lt] at multiple
  omega

/-- One slot back around the ring. -/
theorem back_mod {capacity : ℕ} (h : ℕ) (positive : 0 < capacity) (k : ℕ) (lt : h < capacity)
    (near : k + 1 < capacity) :
    ((h + 1) % capacity + capacity - 1 - (k + 1)) % capacity = (h + capacity - 1 - k) % capacity := by
  rcases Nat.lt_or_ge (h + 1) capacity with inside | wraps
  · rw [Nat.mod_eq_of_lt inside]
    congr 1
    omega
  · obtain rfl : h + 1 = capacity := by omega
    rw [Nat.mod_self]
    have around : h + (h + 1) - 1 - k = (0 + (h + 1) - 1 - (k + 1)) + (h + 1) := by omega
    rw [around, Nat.add_mod_right]

/-- Pushing adds the item in front and drops the oldest one when the buffer is full. -/
theorem recent_push (c : CircularBuffer α) (positive : 0 < c.capacity) (item : α) :
    (c.push item).recent = item :: c.recent.take (c.capacity - 1) := by
  have lt : c.head < c.capacity := by have := c.head_le; omega
  have bound := c.size_le
  apply List.ext_getElem
  · simp only [length_recent, push, List.length_cons, List.length_take]
    split <;> omega
  · intro k hk hk'
    have size : k < c.capacity := Nat.lt_of_lt_of_le (by simpa using hk) (c.push item).size_le
    cases k with
    | zero =>
      have newest : ((c.head + 1) % c.capacity + c.capacity - 1) % c.capacity = c.head := by
        rcases Nat.lt_or_ge (c.head + 1) c.capacity with inside | wraps
        · rw [Nat.mod_eq_of_lt inside, Nat.add_right_comm, Nat.add_sub_cancel,
            Nat.add_mod_right, Nat.mod_eq_of_lt lt]
        · have full : c.head + 1 = c.capacity := by omega
          rw [full, Nat.mod_self, Nat.zero_add, Nat.mod_eq_of_lt (by omega)]
          omega
      simp only [recent, push, List.getElem_map, List.getElem_range, Nat.ne_of_gt positive, if_false,
        Nat.sub_zero, List.getElem_cons_zero, newest, Function.update_self]
    | succ k =>
      have other : (c.head + c.capacity - 1 - k) % c.capacity ≠ c.head := by
        have apart := mod_sub_ne (c.head + c.capacity) (by omega : 0 < k + 1) size (by omega)
        have around : c.head + c.capacity - 1 - k = c.head + c.capacity - (k + 1) := by omega
        rwa [Nat.add_mod_right, Nat.mod_eq_of_lt lt, ← around] at apart
      simp only [recent, push, List.getElem_map, List.getElem_range, List.getElem_cons_succ,
        List.getElem_take, Nat.ne_of_gt positive, if_false]
      rw [back_mod c.head positive k lt size, Function.update_of_ne other]

theorem buffer_of_recent {c : CircularBuffer α} {items : List α} (h : c.recent = items) (k : ℕ)
    (hk : k < items.length) :
    c.buffer ((c.head + c.capacity - 1 - k) % c.capacity) = items[k] := by
  subst h
  simp only [recent, List.getElem_map, List.getElem_range]

theorem popBack_none (c : CircularBuffer α) (empty : c.recent = []) : c.popBack = none := by
  have : c.size = 0 := by simpa using congrArg List.length empty
  simp [popBack, this]

/-- Popping takes the newest item off. -/
theorem popBack_some (c : CircularBuffer α) {item : α} {older : List α}
    (h : c.recent = item :: older) :
    ∃ c', c.popBack = some (item, c') ∧ c'.recent = older ∧ c'.capacity = c.capacity := by
  have size : c.size = older.length + 1 := by simpa using congrArg List.length h
  have bound := c.size_le
  have lt : c.head < c.capacity := by have := c.head_le; omega
  have first : c.buffer c.lastSlot = item := buffer_of_recent h 0 (by simp)
  rw [popBack, if_neg (by omega), first]
  refine ⟨_, rfl, ?_, rfl⟩
  apply List.ext_getElem
  · simp [size]
  · intro k hk hk'
    have next := buffer_of_recent h (k + 1) (by simp; omega)
    simp only [recent, List.getElem_map, List.getElem_range]
    rw [List.getElem_cons_succ] at next
    rw [← next]
    congr 1
    have slot : c.lastSlot < c.capacity := Nat.mod_lt _ (by omega)
    have ahead : (c.lastSlot + 1) % c.capacity = c.head := by
      rw [lastSlot, Nat.mod_add_mod]
      have around : c.head + c.capacity - 1 + 1 = c.head + c.capacity := by omega
      rw [around, Nat.add_mod_right, Nat.mod_eq_of_lt lt]
    rw [← back_mod c.lastSlot (by omega) k slot (by omega), ahead]

theorem recent_modifyBack_nil (c : CircularBuffer α) (f : α → α) (empty : c.recent = []) :
    (c.modifyBack f).recent = [] := by
  have : c.size = 0 := by simpa using congrArg List.length empty
  simp [modifyBack, this, empty]

/-- Changing the newest item leaves the older ones alone. -/
theorem recent_modifyBack_cons (c : CircularBuffer α) (f : α → α) {item : α} {older : List α}
    (h : c.recent = item :: older) : (c.modifyBack f).recent = f item :: older := by
  have size : c.size = older.length + 1 := by simpa using congrArg List.length h
  have bound := c.size_le
  have lt : c.head < c.capacity := by have := c.head_le; omega
  have first : c.buffer c.lastSlot = item := buffer_of_recent h 0 (by simp)
  rw [modifyBack, if_neg (by omega), first]
  apply List.ext_getElem
  · simp [size]
  · intro k hk hk'
    simp only [recent, List.getElem_map, List.getElem_range]
    cases k with
    | zero => simp [lastSlot]
    | succ k =>
      have kth : k + 1 < c.size := by simpa using hk
      have other : (c.head + c.capacity - 1 - (k + 1)) % c.capacity ≠ c.lastSlot :=
        mod_sub_ne (c.head + c.capacity - 1) (by omega) (by omega) (by omega)
      rw [Function.update_of_ne other, buffer_of_recent h (k + 1) (by simp; omega)]
      rfl

@[simp] theorem capacity_modifyBack (c : CircularBuffer α) (f : α → α) :
    (c.modifyBack f).capacity = c.capacity := by
  unfold modifyBack
  split <;> rfl

end CircularBuffer
end Mmemu.Source
