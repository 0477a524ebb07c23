import Mathlib.Data.List.GetD
import Mathlib.Data.List.Rotate
import Mathlib.Data.List.Basic
import Mathlib.Logic.Function.Basic

/-!
# Circular buffers

A list read round and round from position 0: what lies at a position of the endless
sequence, where it is in a rotation of the list, and in a list of equal blocks.
-/
namespace Mmemu.Library.CyclicBuffer

variable {α : Type}

/-- What lies at position `j` of the sequence that repeats `l`. -/
def cyclic (l : List α) (d : α) (j : ℕ) : α := l.getD (j % l.length) d

theorem cyclic_of_lt (l : List α) (d : α) {j : ℕ} (h : j < l.length) : cyclic l d j = l.getD j d := by
  rw [cyclic, Nat.mod_eq_of_lt h]

theorem cyclic_add_mul (l : List α) (d : α) (j q : ℕ) :
    cyclic l d (l.length * q + j) = cyclic l d j := by
  rw [cyclic, cyclic, Nat.mul_add_mod]

/-- Position `i` of a list rotated by `k` is position `k + i` of the sequence. -/
theorem getD_rotate (l : List α) (d : α) (k : ℕ) {i : ℕ} (h : i < l.length) :
    (l.rotate k).getD i d = cyclic l d (k + i) := by
  have inside : (k + i) % l.length < l.length := Nat.mod_lt _ (by omega)
  rw [cyclic, List.getD_eq_getElem?_getD, List.getElem?_rotate h, List.getD_eq_getElem?_getD,
    Nat.add_comm]

/-- The `r`-th element of the `s`-th of `n` blocks of length `len`. -/
theorem getD_flatMap_range (f : ℕ → List α) (d : α) {len n s r : ℕ} (length : ∀ s, (f s).length = len)
    (hs : s < n) (hr : r < len) :
    ((List.range n).flatMap f).getD (len * s + r) d = (f s).getD r d := by
  have total : ∀ n, ((List.range n).flatMap f).length = len * n := by
    intro n
    induction n with
    | zero => rfl
    | succ n ih => rw [List.range_succ, List.flatMap_append, List.length_append, ih,
        List.flatMap_singleton, length, Nat.mul_succ]
  induction n with
  | zero => exact absurd hs s.not_lt_zero
  | succ n ih =>
    rw [List.range_succ, List.flatMap_append, List.flatMap_singleton]
    rcases Nat.lt_succ_iff_lt_or_eq.mp hs with before | rfl
    · have inside : len * s + r < len * n := by
        calc len * s + r < len * s + len := by omega
          _ = len * (s + 1) := (Nat.mul_succ len s).symm
          _ ≤ len * n := Nat.mul_le_mul_left len before
      rw [List.getD_append _ _ _ _ (by rw [total]; exact inside), ih before]
    · rw [List.getD_append_right _ _ _ _ (by rw [total]; omega), total, Nat.add_sub_cancel_left]

/-- A position of the rotation that stands for position `x` of the sequence. -/
def StandsFor (n k i x : ℕ) : Prop := i < n ∧ (k + i) % n = x % n

theorem StandsFor.next {n k i x : ℕ} (h : StandsFor n k i x) :
    StandsFor n k (if n ≤ i + 1 then 0 else i + 1) (x + 1) := by
  obtain ⟨inside, same⟩ := h
  have step : (k + i + 1) % n = (x + 1) % n := by rw [Nat.add_mod, same, ← Nat.add_mod]
  split
  · rename_i last
    have round : k + i + 1 = k + n := by omega
    rw [round, Nat.add_mod_right] at step
    exact ⟨by omega, step⟩
  · rename_i more
    exact ⟨by omega, step⟩

theorem StandsFor.getD {l : List α} {k i x : ℕ} (h : StandsFor l.length k i x) (d : α) :
    (l.rotate k).getD i d = cyclic l d x := by
  rw [getD_rotate l d k h.1, cyclic, cyclic, h.2]

end Mmemu.Library.CyclicBuffer

/-!
# Queues in a ring of slots

The items between a reading place and a number of slots on from it, around a ring. Storing
an item behind them appends it, reading on takes the oldest ones off.
-/
namespace Mmemu.Library.RingQueue

variable {α : Type*} (slots : ℕ → α) {size : ℕ}

/-- The `count` items from slot `read` on, the oldest first. -/
def held (size read count : ℕ) : List α :=
  (List.range count).map fun i => slots ((read + i) % size)

@[simp] theorem length_held (read count : ℕ) : (held slots size read count).length = count := by
  simp [held]

@[simp] theorem held_zero (read : ℕ) : held slots size read 0 = [] := by
  simp [held]

theorem held_succ (read count : ℕ) :
    held slots size read (count + 1) =
      held slots size read count ++ [slots ((read + count) % size)] := by
  simp [held, List.range_succ]

theorem held_cons (read count : ℕ) :
    held slots size read (count + 1) =
      slots (read % size) :: held slots size ((read + 1) % size) count := by
  unfold held
  rw [List.range_succ_eq_map, List.map_cons, List.map_map, Nat.add_zero]
  congr 1
  apply List.map_congr_left
  intro i _
  have around : read + i.succ = read + 1 + i := by omega
  rw [Function.comp_apply, around, Nat.mod_add_mod]

/-- Reading on by a number of slots. -/
theorem drop_held (read count n : ℕ) :
    (held slots size read count).drop n = held slots size ((read + n) % size) (count - n) := by
  apply List.ext_getElem
  · simp
  · intro i _ _
    simp only [held, List.getElem_drop, List.getElem_map, List.getElem_range]
    rw [Nat.mod_add_mod, Nat.add_assoc]

theorem take_held (read : ℕ) {count n : ℕ} (le : n ≤ count) :
    (held slots size read count).take n = held slots size read n := by
  apply List.ext_getElem
  · simp [Nat.min_eq_left le]
  · intro i _ _
    simp [held]

/-- Fewer than `size` slots on is another slot. -/
theorem slot_ne {read i j : ℕ} (before : i < j) (around : j < size) :
    (read + i) % size ≠ (read + j) % size := by
  intro same
  have apart := Nat.sub_mod_eq_zero_of_mod_eq same.symm
  rw [Nat.add_sub_add_left, Nat.mod_eq_of_lt (by omega)] at apart
  omega

/-- An item stored in the first free slot. -/
theorem held_update {read count : ℕ} (room : count < size) (item : α) :
    held (Function.update slots ((read + count) % size) item) size read (count + 1) =
      held slots size read count ++ [item] := by
  rw [held_succ, Function.update_self]
  congr 1
  apply List.map_congr_left
  intro i inside
  exact Function.update_of_ne (slot_ne (List.mem_range.mp inside) room) _ _

end Mmemu.Library.RingQueue
