import Mmemu.Library.WordBytes

/-!
# Numbers in a file of byte registers

A number held by consecutive registers, the lowest byte first, and registers set to one.
-/
namespace Mmemu.Library.RegisterFile
open Mmemu.Library.LittleEndian

variable {regs regs' : ℕ → Byte} {place width : ℕ}

/-- The number in `width` registers from `place` on. -/
def number (regs : ℕ → Byte) (place width : ℕ) : ℕ :=
  decode ((List.range width).map fun i => regs (place + i))

/-- `width` registers from `place` on hold the low bytes of a number. -/
def placed (regs : ℕ → Byte) (place width n : ℕ) : ℕ → Byte := fun r =>
  if place ≤ r ∧ r < place + width then BitVec.ofNat 8 (n / 256 ^ (r - place)) else regs r

@[simp] theorem number_zero : number regs place 0 = 0 := rfl

theorem decode_append (low high : List Byte) :
    decode (low ++ high) = decode low + 256 ^ low.length * decode high := by
  induction low with
  | nil => simp [decode]
  | cons b low ih =>
    have step : ∀ rest, decode (b :: rest) = b.toNat + 256 * decode rest := fun _ => rfl
    rw [List.cons_append, step, step, ih, List.length_cons, Nat.pow_succ', Nat.mul_add,
      Nat.mul_assoc, Nat.add_assoc]

theorem number_succ (regs : ℕ → Byte) (place width : ℕ) :
    number regs place (width + 1) =
      number regs place width + 256 ^ width * (regs (place + width)).toNat := by
  unfold number
  rw [List.range_succ, List.map_append, decode_append]
  simp [decode]

theorem number_congr (same : ∀ r, place ≤ r → r < place + width → regs r = regs' r) :
    number regs place width = number regs' place width := by
  unfold number
  congr 1
  refine List.map_congr_left fun i inside => ?_
  have := List.mem_range.mp inside
  exact same (place + i) (by omega) (by omega)

theorem number_lt (regs : ℕ → Byte) (place width : ℕ) : number regs place width < 256 ^ width := by
  induction width with
  | zero => simp
  | succ width ih =>
    have byte := (regs (place + width)).isLt
    calc number regs place (width + 1)
        < 256 ^ width + 256 ^ width * (regs (place + width)).toNat := by
          rw [number_succ]
          omega
      _ = 256 ^ width * ((regs (place + width)).toNat + 1) := by rw [Nat.mul_succ, Nat.add_comm]
      _ ≤ 256 ^ width * 256 := Nat.mul_le_mul_left _ (by omega)
      _ = 256 ^ (width + 1) := (Nat.pow_succ ..).symm

theorem number_placed (regs : ℕ → Byte) (place width n : ℕ) :
    number (placed regs place width n) place width = n % 256 ^ width := by
  induction width with
  | zero => simp [Nat.mod_one]
  | succ width ih =>
    have low : number (placed regs place (width + 1) n) place width =
        number (placed regs place width n) place width := by
      refine number_congr fun r from_ before => ?_
      unfold placed
      rw [if_pos ⟨from_, by omega⟩, if_pos ⟨from_, before⟩]
    have high : placed regs place (width + 1) n (place + width) =
        BitVec.ofNat 8 (n / 256 ^ width) := by
      unfold placed
      rw [if_pos ⟨by omega, by omega⟩, Nat.add_sub_cancel_left]
    rw [number_succ, low, high, ih, BitVec.toNat_ofNat]
    exact Nat.mod_pow_succ.symm

/-- Registers apart from those set keep their number. -/
theorem number_placed_other {place' width' n : ℕ}
    (apart : place + width ≤ place' ∨ place' + width' ≤ place) :
    number (placed regs place' width' n) place width = number regs place width := by
  refine number_congr fun r from_ before => ?_
  unfold placed
  rw [if_neg (by omega)]

theorem number_update_other {r : ℕ} {val : Byte} (apart : r < place ∨ place + width ≤ r) :
    number (Function.update regs r val) place width = number regs place width :=
  number_congr fun r' _ _ => Function.update_of_ne (by omega) _ _

theorem placed_zero (regs : ℕ → Byte) (place n : ℕ) : placed regs place 0 n = regs := by
  funext r
  unfold placed
  rw [if_neg (by omega)]

/-- One more register set. -/
theorem placed_succ (regs : ℕ → Byte) (place width n : ℕ) :
    placed regs place (width + 1) n =
      Function.update (placed regs place width n) (place + width)
        (BitVec.ofNat 8 (n / 256 ^ width)) := by
  funext r
  by_cases last : r = place + width
  · subst last
    rw [Function.update_self]
    unfold placed
    rw [if_pos ⟨by omega, by omega⟩, Nat.add_sub_cancel_left]
  · rw [Function.update_of_ne last]
    unfold placed
    by_cases inside : place ≤ r ∧ r < place + width
    · rw [if_pos inside, if_pos ⟨inside.1, by omega⟩]
    · rw [if_neg inside, if_neg (by omega)]

end Mmemu.Library.RegisterFile
