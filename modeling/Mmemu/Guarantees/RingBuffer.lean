import Mathlib.Data.Nat.ModEq
import Mmemu.Library.Runs
import Mmemu.Source.CircularBuffer

/-!
# The circular buffer as a bounded list

Pushing, popping, clearing and writing through references keep the list of the last items,
oldest first, as long as nothing is popped off a full buffer whose oldest item is not in
slot 0.
-/
namespace Mmemu.Guarantees.RingBuffer
open Mmemu.Library.GuardedRun
open Mmemu.Source

inductive Op (α : Type) where
  | push (item : α)
  | pushSlot (fill : α → α)
  | popBack
  | clear
  | write (index : ℕ) (f : α → α)
  | writeBack (f : α → α)

section Lists
variable {α : Type}

/-- Append, and drop the oldest when there are more than `capacity`. -/
def pushBounded (capacity : ℕ) (items : List α) (item : α) : List α :=
  (items ++ [item]).drop (items.length + 1 - capacity)

/-- A buffer and the list it stands for. -/
structure Tracked (α : Type) where
  buffer : CircularBuffer α
  items : List α

namespace Tracked

def step (t : Tracked α) : Op α → Tracked α
  | .push item => ⟨t.buffer.push item, pushBounded t.buffer.capacity t.items item⟩
  | .pushSlot fill =>
    match t.buffer.pushSlot fill with
    | some buffer =>
      ⟨buffer, pushBounded t.buffer.capacity t.items (fill (t.buffer.buffer t.buffer.head))⟩
    | none => t
  | .popBack => ⟨(t.buffer.popBack.map Prod.snd).getD t.buffer, t.items.dropLast⟩
  | .clear => ⟨t.buffer.clear, []⟩
  | .write index f => ⟨(t.buffer.modify index f).getD t.buffer, t.items.modify index f⟩
  | .writeBack f => ⟨t.buffer.modifyBack f, t.items.modify (t.items.length - 1) f⟩

def start (capacity : ℕ) (init : α) : Tracked α := ⟨.new capacity init, []⟩

/-- What can be read of the buffer is the list. -/
structure Refines (t : Tracked α) : Prop where
  size : t.buffer.size = t.items.length
  get : ∀ index, t.buffer.get index = t.items[index]?
  back : t.buffer.back = t.items.getLast?

end Tracked

/-- The buffer is full and went round: its oldest item is not in slot 0. -/
def Wrapped (c : CircularBuffer α) : Prop := c.size = c.capacity ∧ c.head ≠ 0

instance (c : CircularBuffer α) : Decidable (Wrapped c) := inferInstanceAs (Decidable (_ ∧ _))

def KeepsWrapped (t : Tracked α) : Op α → Prop
  | .popBack => ¬ Wrapped t.buffer
  | _ => True

/-! ## The list behind the slots -/

/-- Until the buffer is full its items lie in the slots from 0 on. -/
structure Aligned (t : Tracked α) : Prop where
  head : t.buffer.size < t.buffer.capacity → t.buffer.head = t.buffer.size
  items : t.items = t.buffer.recent.reverse

theorem Aligned.size {t : Tracked α} (h : Aligned t) : t.items.length = t.buffer.size := by
  rw [h.items, List.length_reverse, CircularBuffer.length_recent]

/-- The slot looked at is the one that many steps before the newest. -/
theorem Aligned.slot {t : Tracked α} (h : Aligned t) {index : ℕ} (inside : index < t.buffer.size) :
    t.buffer.slot index =
      (t.buffer.head + t.buffer.capacity - 1 - (t.buffer.size - 1 - index)) % t.buffer.capacity := by
  have bound := t.buffer.size_le
  unfold CircularBuffer.slot
  split
  next partly =>
    rw [h.head partly]
    have around : t.buffer.size + t.buffer.capacity - 1 - (t.buffer.size - 1 - index) =
        index + t.buffer.capacity := by omega
    rw [around, Nat.add_mod_right, Nat.mod_eq_of_lt (by omega)]
  next full =>
    have same : t.buffer.size = t.buffer.capacity := by omega
    congr 1
    omega

theorem Aligned.getElem {t : Tracked α} (h : Aligned t) {index : ℕ}
    (inside : index < t.items.length) :
    t.buffer.buffer (t.buffer.slot index) = t.items[index] := by
  have size := h.size
  have within : t.buffer.size - 1 - index < t.buffer.recent.length := by
    rw [CircularBuffer.length_recent]
    omega
  rw [h.slot (by omega), CircularBuffer.buffer_of_recent rfl _ within]
  simp only [h.items, List.getElem_reverse, CircularBuffer.length_recent]

/-- The newest item lies in the slot of the last index. -/
theorem Aligned.lastSlot {t : Tracked α} (h : Aligned t) (some : t.buffer.size ≠ 0) :
    t.buffer.lastSlot = t.buffer.slot (t.buffer.size - 1) := by
  rw [h.slot (by omega)]
  unfold CircularBuffer.lastSlot
  congr 1
  omega

theorem Aligned.refines {t : Tracked α} (h : Aligned t) : t.Refines where
  size := h.size.symm
  get := by
    intro index
    have size := h.size
    unfold CircularBuffer.get
    split
    next outside => exact (List.getElem?_eq_none (by omega)).symm
    next inside =>
      rw [List.getElem?_eq_getElem (by omega), h.getElem (by omega)]
  back := by
    have size := h.size
    unfold CircularBuffer.back
    split
    next empty =>
      have none : t.items = [] := List.length_eq_zero_iff.mp (by omega)
      rw [none]
      rfl
    next some =>
      rw [h.lastSlot some, h.getElem (by omega), List.getLast?_eq_getElem?,
        List.getElem?_eq_getElem (by omega)]
      simp only [size]

/-! ## Every operation -/

theorem aligned_start (capacity : ℕ) (init : α) : Aligned (.start capacity init) where
  head := fun _ => rfl
  items := rfl

theorem recent_eq_nil {c : CircularBuffer α} (empty : c.size = 0) : c.recent = [] := by
  rw [← List.length_eq_zero_iff, CircularBuffer.length_recent, empty]

theorem Aligned.push {t : Tracked α} (h : Aligned t) (item : α) :
    Aligned ⟨t.buffer.push item, pushBounded t.buffer.capacity t.items item⟩ := by
  have bound := t.buffer.size_le
  have size := h.size
  rcases Nat.eq_zero_or_pos t.buffer.capacity with zero | positive
  · have none : t.items = [] := List.length_eq_zero_iff.mp (by omega)
    have full : ¬ t.buffer.size < t.buffer.capacity := by omega
    refine ⟨?_, ?_⟩
    · intro partly
      simp only [CircularBuffer.push, if_neg full] at partly
      exact absurd partly full
    · have empty : (t.buffer.push item).size = 0 := by
        simp only [CircularBuffer.push, if_neg full]
        omega
      dsimp only
      rw [recent_eq_nil empty, none, zero]
      rfl
  · refine ⟨?_, ?_⟩
    · intro partly
      simp only [CircularBuffer.push, Nat.ne_of_gt positive, if_false] at partly ⊢
      split at partly
      next room =>
        rw [if_pos room, h.head room, Nat.mod_eq_of_lt partly]
      next full => exact absurd partly full
    · dsimp only
      rw [CircularBuffer.recent_push _ positive, List.reverse_cons, List.reverse_take, ← h.items]
      unfold pushBounded
      rw [List.drop_append_of_le_length (by omega), CircularBuffer.length_recent]
      congr 2
      omega

/-- Popping keeps the oldest item where it is, which must be slot 0. -/
theorem Aligned.popBack {t : Tracked α} (h : Aligned t) (unwrapped : ¬ Wrapped t.buffer) :
    Aligned (t.step .popBack) := by
  have bound := t.buffer.size_le
  have size := h.size
  unfold Tracked.step
  cases recent : t.buffer.recent with
  | nil =>
    have none : t.items = [] := by
      rw [h.items, recent]
      rfl
    rw [CircularBuffer.popBack_none _ recent]
    refine ⟨h.head, ?_⟩
    dsimp only [Option.map_none, Option.getD_none]
    rw [none, recent]
    rfl
  | cons item older =>
    have length : t.buffer.size = older.length + 1 := by
      rw [← CircularBuffer.length_recent, recent, List.length_cons]
    have head : t.buffer.head % t.buffer.capacity = t.buffer.size % t.buffer.capacity := by
      by_cases full : t.buffer.size = t.buffer.capacity
      · have zero : t.buffer.head = 0 := by
          by_contra other
          exact unwrapped ⟨full, other⟩
        rw [zero, full, Nat.mod_self, Nat.zero_mod]
      · rw [h.head (by omega)]
    obtain ⟨c, popped, rest, capacity⟩ := CircularBuffer.popBack_some _ recent
    rw [popped]
    refine ⟨?_, ?_⟩
    · intro _
      unfold CircularBuffer.popBack at popped
      rw [if_neg (by omega)] at popped
      obtain ⟨-, rfl⟩ := Prod.mk.inj (Option.some.inj popped)
      dsimp only [Option.map_some, Option.getD_some, CircularBuffer.lastSlot]
      have around : t.buffer.head + t.buffer.capacity - 1 =
          t.buffer.head + (t.buffer.capacity - 1) := by omega
      rw [around, Nat.add_mod, head, ← Nat.add_mod]
      have back : t.buffer.size + (t.buffer.capacity - 1) =
          t.buffer.size - 1 + t.buffer.capacity := by omega
      rw [back, Nat.add_mod_right, Nat.mod_eq_of_lt (by omega)]
    · dsimp only [Option.map_some, Option.getD_some]
      rw [rest, h.items, recent, List.dropLast_reverse, List.tail_cons]

/-- Different items lie in different slots. -/
theorem slot_ne {c : CircularBuffer α} {i j : ℕ} (hi : i < c.size) (hj : j < c.size)
    (other : i ≠ j) : c.slot i ≠ c.slot j := by
  have bound := c.size_le
  unfold CircularBuffer.slot
  split
  · exact other
  · intro same
    have cancelled : i % c.capacity = j % c.capacity := Nat.ModEq.add_left_cancel' c.head same
    rw [Nat.mod_eq_of_lt (by omega), Nat.mod_eq_of_lt (by omega)] at cancelled
    exact other cancelled

theorem Aligned.write {t : Tracked α} (h : Aligned t) (index : ℕ) (f : α → α) :
    Aligned (t.step (.write index f)) := by
  have size := h.size
  unfold Tracked.step CircularBuffer.modify
  dsimp only
  split
  next outside =>
    rw [List.modify_eq_self (by omega)]
    exact h
  next inside =>
    dsimp only [Option.getD_some]
    refine ⟨h.head, ?_⟩
    generalize changed : ({ t.buffer with
      buffer := Function.update t.buffer.buffer (t.buffer.slot index)
        (f (t.buffer.buffer (t.buffer.slot index))) } : CircularBuffer α) = c
    have same : c.size = t.buffer.size ∧ c.slot = t.buffer.slot ∧ c.buffer =
        Function.update t.buffer.buffer (t.buffer.slot index)
          (f (t.buffer.buffer (t.buffer.slot index))) := by
      subst changed
      exact ⟨rfl, rfl, rfl⟩
    have behind : Aligned ⟨c, c.recent.reverse⟩ := by
      subst changed
      exact ⟨h.head, rfl⟩
    apply List.ext_getElem
    · rw [List.length_modify, List.length_reverse, CircularBuffer.length_recent, same.1, size]
    · intro j hj hj'
      rw [← behind.getElem hj', List.getElem_modify]
      dsimp only
      rw [same.2.1, same.2.2]
      rw [List.length_modify] at hj
      split
      next here =>
        subst here
        rw [Function.update_self, h.getElem]
      next other =>
        rw [Function.update_of_ne (slot_ne (by omega) (by omega) (Ne.symm other)), h.getElem]

theorem Aligned.writeBack {t : Tracked α} (h : Aligned t) (f : α → α) :
    Aligned (t.step (.writeBack f)) := by
  have size := h.size
  have back : t.step (.writeBack f) = t.step (.write (t.items.length - 1) f) := by
    unfold Tracked.step CircularBuffer.modifyBack CircularBuffer.modify
    dsimp only
    split
    next empty => rw [if_pos (by omega), Option.getD_none]
    next some => rw [if_neg (by omega), Option.getD_some, h.lastSlot some, size]
  rw [back]
  exact h.write _ f

theorem Aligned.step {t : Tracked α} (h : Aligned t) {op : Op α} (keeps : KeepsWrapped t op) :
    Aligned (t.step op) := by
  cases op with
  | push item => exact h.push item
  | pushSlot fill =>
    unfold Tracked.step CircularBuffer.pushSlot
    dsimp only
    split
    next c made =>
      split at made
      · cases made
      · obtain rfl := Option.some.inj made
        exact h.push _
    · exact h
  | popBack => exact h.popBack keeps
  | clear => exact ⟨fun _ => rfl, rfl⟩
  | write index f => exact h.write index f
  | writeBack f => exact h.writeBack f

/-- The buffer is the list of the last items, as long as nothing is popped off a full buffer that
went round. -/
theorem refines_list (capacity : ℕ) (init : α) (ops : List (Op α))
    (keeps : Guarded Tracked.step KeepsWrapped (.start capacity init) ops) :
    (ops.foldl Tracked.step (.start capacity init)).Refines :=
  (foldl_invariant Tracked.step KeepsWrapped Aligned (fun _ _ h guard => h.step guard) _ ops
    (aligned_start capacity init) keeps).refines

instance (t : Tracked α) (op : Op α) : Decidable (KeepsWrapped t op) :=
  match op with
  | .popBack => inferInstanceAs (Decidable (¬ Wrapped t.buffer))
  | .push _ | .pushSlot _ | .clear | .write .. | .writeBack _ => inferInstanceAs (Decidable True)

end Lists

/-- A full buffer of two may be written and read, and cleared before it is filled anew. -/
theorem refines_list_of_two :
    ([.push 1, .push 2, .push 3, .write 0 (· + 5), .clear, .push 4, .popBack].foldl Tracked.step
      (.start 2 0)).buffer.get 0 = none := by
  have refines := refines_list 2 0
    [.push 1, .push 2, .push 3, .write 0 (· + 5), .clear, .push 4, .popBack] (by decide)
  exact refines.get 0

/-- Three items in two slots and the newest popped: what is left is the second item, and
`operator[]` shows the popped one. -/
theorem popped_item_shown :
    ¬ ([.push 1, .push 2, .push 3, .popBack].foldl Tracked.step (.start 2 0)).Refines := by
  intro refines
  have shown := refines.get 0
  revert shown
  decide

end Mmemu.Guarantees.RingBuffer
