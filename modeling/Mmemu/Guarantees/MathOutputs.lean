import Mmemu.Library.Runs
import Mmemu.Source.Mega65Math

/-!
# MEGA65 math unit: the outputs match the inputs

A write to an operand recomputes its own unit. The divider leaves its remainder in the
multiplicand of the other one and the product is not recomputed, so it stays right only where
the remainder is the multiplicand that was there, or the multiplier is zero.
-/
namespace Mmemu.Guarantees.MathOutputs
open Mmemu.Library.GuardedRun Mmemu.Library.LittleEndian Mmemu.Library.RegisterFile
open Mmemu.Source.Mega65Math

/-- The number that so many registers read back as. -/
def readBack (d : Mega65MathDevice) (off width : ℕ) : ℕ :=
  decode ((List.range width).map fun i => ((d.ioRead (d.m_base + BitVec.ofNat 32 (off + i))).1).getD 0)

/-- The outputs are what the inputs make them. -/
structure Matches (d : Mega65MathDevice) : Prop where
  product : readBack d OFF_MULTOUT 8 = readBack d OFF_MULTINA 4 * readBack d OFF_MULTINB 4
  quotient : readBack d OFF_DIVINB 4 ≠ 0 →
    readBack d OFF_DIVOUT 8 = readBack d OFF_DIVINA 4 / readBack d OFF_DIVINB 4

theorem offset_eq (base : BitVec 32) {off : ℕ} (small : off < 256) :
    (base + BitVec.ofNat 32 off - base).toNat = off := by
  rw [BitVec.add_comm, BitVec.add_sub_cancel, BitVec.toNat_ofNat]
  omega

theorem readBack_eq (d : Mega65MathDevice) (off width : ℕ) (from_ : 0x10 ≤ off)
    (fits : off + width ≤ OFF_RNDREG) : readBack d off width = number d.m_regs off width := by
  unfold readBack number
  congr 1
  refine List.map_congr_left fun i inside => ?_
  have := List.mem_range.mp inside
  unfold OFF_RNDREG at fits
  unfold Mega65MathDevice.ioRead
  dsimp only
  rw [offset_eq d.m_base (by omega), if_neg (by omega), if_neg (by omega),
    if_neg (by unfold OFF_RNDREG; omega), Option.getD_some]

/-- The same, of the registers. -/
structure Computed (regs : ℕ → BitVec 8) : Prop where
  product : number regs OFF_MULTOUT 8 = number regs OFF_MULTINA 4 * number regs OFF_MULTINB 4
  quotient : number regs OFF_DIVINB 4 ≠ 0 →
    number regs OFF_DIVOUT 8 = number regs OFF_DIVINA 4 / number regs OFF_DIVINB 4

theorem matches_iff (d : Mega65MathDevice) : Matches d ↔ Computed d.m_regs := by
  have out := readBack_eq d OFF_MULTOUT 8 (by decide) (by decide)
  have a := readBack_eq d OFF_MULTINA 4 (by decide) (by decide)
  have b := readBack_eq d OFF_MULTINB 4 (by decide) (by decide)
  have quotient := readBack_eq d OFF_DIVOUT 8 (by decide) (by decide)
  have dividend := readBack_eq d OFF_DIVINA 4 (by decide) (by decide)
  have divisor := readBack_eq d OFF_DIVINB 4 (by decide) (by decide)
  constructor
  · rintro ⟨product, divided⟩
    rw [out, a, b] at product
    rw [quotient, dividend, divisor] at divided
    exact ⟨product, divided⟩
  · rintro ⟨product, divided⟩
    constructor
    · rw [out, a, b]
      exact product
    · rw [quotient, dividend, divisor]
      exact divided

/-! ## The two units -/

theorem product_lt (regs : ℕ → BitVec 8) :
    number regs OFF_MULTINA 4 * number regs OFF_MULTINB 4 < 256 ^ 8 :=
  calc number regs OFF_MULTINA 4 * number regs OFF_MULTINB 4
      < 256 ^ 4 * 256 ^ 4 := Nat.mul_lt_mul'' (number_lt ..) (number_lt ..)
    _ = 256 ^ 8 := (Nat.pow_add 256 4 4).symm

theorem computeMultiply_regs (d : Mega65MathDevice) :
    d.computeMultiply.m_regs = placed d.m_regs OFF_MULTOUT 8
      (number d.m_regs OFF_MULTINA 4 * number d.m_regs OFF_MULTINB 4) := by
  have a := number_lt d.m_regs OFF_MULTINA 4
  have b := number_lt d.m_regs OFF_MULTINB 4
  unfold Mega65MathDevice.computeMultiply store64
  dsimp only
  rw [storeBytes_eq, BitVec.toNat_mul, BitVec.toNat_setWidth, BitVec.toNat_setWidth, load32_eq,
    load32_eq, Nat.mod_eq_of_lt (a := number _ OFF_MULTINA 4) (by omega),
    Nat.mod_eq_of_lt (a := number _ OFF_MULTINB 4) (by omega)]
  congr 1
  exact Nat.mod_eq_of_lt (product_lt d.m_regs)

def quotientOf (a b : ℕ) : ℕ := if b = 0 then 2 ^ 64 - 1 else a / b

def remainderOf (a b : ℕ) : ℕ := if b = 0 then 2 ^ 32 - 1 else a % b

theorem computeDivide_regs (d : Mega65MathDevice) :
    d.computeDivide.m_regs = placed
      (placed d.m_regs OFF_DIVOUT 8
        (quotientOf (number d.m_regs OFF_DIVINA 4) (number d.m_regs OFF_DIVINB 4)))
      OFF_MULTINA 4 (remainderOf (number d.m_regs OFF_DIVINA 4) (number d.m_regs OFF_DIVINB 4)) := by
  have a := number_lt d.m_regs OFF_DIVINA 4
  unfold Mega65MathDevice.computeDivide store64 quotientOf remainderOf
  rw [← load32_eq, ← load32_eq]
  by_cases zero : load32 d.m_regs OFF_DIVINB = 0
  · simp [zero, storeBytes_eq]
  · have nonzero : (load32 d.m_regs OFF_DIVINB).toNat ≠ 0 := fun none_ =>
      zero (BitVec.eq_of_toNat_eq none_)
    have small : (load32 d.m_regs OFF_DIVINA).toNat / (load32 d.m_regs OFF_DIVINB).toNat < 2 ^ 64 :=
      lt_of_le_of_lt (Nat.div_le_self ..) (by omega)
    simp only [ne_eq, zero, not_false_eq_true, if_true, nonzero, if_false, storeBytes_eq,
      BitVec.toNat_setWidth, BitVec.toNat_udiv, BitVec.toNat_umod,
      Nat.mod_eq_of_lt small]

/-- Once the product is right, so are both outputs. -/
theorem computed_multiply {regs : ℕ → BitVec 8}
    (quotient : number regs OFF_DIVINB 4 ≠ 0 →
      number regs OFF_DIVOUT 8 = number regs OFF_DIVINA 4 / number regs OFF_DIVINB 4) :
    Computed (placed regs OFF_MULTOUT 8 (number regs OFF_MULTINA 4 * number regs OFF_MULTINB 4)) := by
  constructor
  · rw [number_placed, number_placed_other (by decide), number_placed_other (by decide)]
    exact Nat.mod_eq_of_lt (product_lt regs)
  · rw [number_placed_other (by decide), number_placed_other (by decide),
      number_placed_other (by decide)]
    exact quotient

theorem remainderOf_lt (regs : ℕ → BitVec 8) :
    remainderOf (number regs OFF_DIVINA 4) (number regs OFF_DIVINB 4) < 256 ^ 4 := by
  unfold remainderOf
  split
  next => decide
  next => exact lt_of_le_of_lt (Nat.mod_le ..) (number_lt regs OFF_DIVINA 4)

/-- The multiplicand may give way to the remainder without the product changing. -/
def RemainderFits (regs : ℕ → BitVec 8) : Prop :=
  number regs OFF_MULTINB 4 = 0 ∨
    remainderOf (number regs OFF_DIVINA 4) (number regs OFF_DIVINB 4) = number regs OFF_MULTINA 4

theorem computed_divide_iff {regs : ℕ → BitVec 8}
    (product : number regs OFF_MULTOUT 8 = number regs OFF_MULTINA 4 * number regs OFF_MULTINB 4) :
    Computed (placed
      (placed regs OFF_DIVOUT 8 (quotientOf (number regs OFF_DIVINA 4) (number regs OFF_DIVINB 4)))
      OFF_MULTINA 4 (remainderOf (number regs OFF_DIVINA 4) (number regs OFF_DIVINB 4))) ↔
      RemainderFits regs := by
  have remainder := remainderOf_lt regs
  constructor
  · rintro ⟨same, -⟩
    rw [number_placed_other (by decide), number_placed_other (by decide), number_placed,
      number_placed_other (by decide), number_placed_other (by decide), product,
      Nat.mod_eq_of_lt remainder] at same
    rcases Nat.eq_zero_or_pos (number regs OFF_MULTINB 4) with zero | pos
    · exact Or.inl zero
    · exact Or.inr (Nat.eq_of_mul_eq_mul_right pos same).symm
  · intro fits
    constructor
    · rw [number_placed_other (by decide), number_placed_other (by decide), number_placed,
        number_placed_other (by decide), number_placed_other (by decide), product,
        Nat.mod_eq_of_lt remainder]
      rcases fits with zero | kept
      · rw [zero, Nat.mul_zero, Nat.mul_zero]
      · rw [kept]
    · rw [number_placed_other (by decide), number_placed_other (by decide),
        number_placed_other (by decide), number_placed, number_placed_other (by decide),
        number_placed_other (by decide)]
      intro nonzero
      rw [quotientOf, if_neg nonzero]
      have dividend := number_lt regs OFF_DIVINA 4
      exact Nat.mod_eq_of_lt (lt_of_le_of_lt (Nat.div_le_self ..) (by omega))

/-! ## Steps -/

/-- The input registers. -/
inductive Operand where
  | DIVINA
  | DIVINB
  | MULTINA
  | MULTINB

def Operand.off : Operand → ℕ
  | .DIVINA => OFF_DIVINA
  | .DIVINB => OFF_DIVINB
  | .MULTINA => OFF_MULTINA
  | .MULTINB => OFF_MULTINB

inductive Event where
  | write (operand : Operand) (i : Fin 4) (val : BitVec 8)
  | read (addr : BitVec 32)
  | tick (cycles : BitVec 64)

def apply (d : Mega65MathDevice) : Event → Mega65MathDevice
  | .write operand i val => (d.ioWrite (d.m_base + BitVec.ofNat 32 (operand.off + i)) val).2
  | .read addr => (d.ioRead addr).2
  | .tick cycles => d.tick cycles

section Operands
variable (d : Mega65MathDevice) {off : ℕ} (val : BitVec 8)

theorem ioWrite_divide (low : 0x60 ≤ off) (high : off < 0x68) :
    (d.ioWrite (d.m_base + BitVec.ofNat 32 off) val).2 =
      Mega65MathDevice.computeDivide { d with m_regs := Function.update d.m_regs off val } := by
  have special : ¬(off = OFF_RNDREG ∨ off = OFF_RNGSTAT) := by
    unfold OFF_RNDREG OFF_RNGSTAT
    omega
  have notA : ¬(OFF_MULTINA ≤ off ∧ off < OFF_MULTINA + 4) := by
    unfold OFF_MULTINA
    omega
  have notB : ¬(OFF_MULTINB ≤ off ∧ off < OFF_MULTINB + 4) := by
    unfold OFF_MULTINB
    omega
  unfold Mega65MathDevice.ioWrite
  dsimp only
  rw [offset_eq d.m_base (by omega), if_neg (by omega), if_neg (by omega), if_neg special,
    if_neg notA, if_neg notB]
  unfold OFF_DIVINA OFF_DIVINB
  by_cases first : off < 0x64
  · rw [if_neg (by omega), if_pos ⟨low, first⟩]
  · rw [if_pos (by omega), if_neg (by omega)]

theorem ioWrite_multiply (low : 0x70 ≤ off) (high : off < 0x78) :
    (d.ioWrite (d.m_base + BitVec.ofNat 32 off) val).2 =
      Mega65MathDevice.computeMultiply { d with m_regs := Function.update d.m_regs off val } := by
  have special : ¬(off = OFF_RNDREG ∨ off = OFF_RNGSTAT) := by
    unfold OFF_RNDREG OFF_RNGSTAT
    omega
  have notA : ¬(OFF_DIVINA ≤ off ∧ off < OFF_DIVINA + 4) := by
    unfold OFF_DIVINA
    omega
  have notB : ¬(OFF_DIVINB ≤ off ∧ off < OFF_DIVINB + 4) := by
    unfold OFF_DIVINB
    omega
  unfold Mega65MathDevice.ioWrite
  dsimp only
  rw [offset_eq d.m_base (by omega), if_neg (by omega), if_neg (by omega), if_neg special,
    if_neg notB, if_neg notA]
  unfold OFF_MULTINA OFF_MULTINB
  by_cases first : off < 0x74
  · rw [if_neg (by omega), if_pos ⟨low, first⟩]
  · rw [if_pos (by omega), if_neg (by omega)]

end Operands

/-- Registers that agree on the two units' part. -/
theorem Computed.congr {regs regs' : ℕ → BitVec 8}
    (same : ∀ r, OFF_DIVINA ≤ r → r < OFF_RNDREG → regs' r = regs r) (h : Computed regs) :
    Computed regs' := by
  have part : ∀ off width, OFF_DIVINA ≤ off → off + width ≤ OFF_RNDREG →
      number regs' off width = number regs off width := fun off width from_ fits =>
    number_congr fun r after before => same r (from_.trans after) (before.trans_le fits)
  constructor
  · rw [part _ _ (by decide) (by decide), part _ _ (by decide) (by decide),
      part _ _ (by decide) (by decide)]
    exact h.product
  · rw [part _ _ (by decide) (by decide), part _ _ (by decide) (by decide),
      part _ _ (by decide) (by decide)]
    exact h.quotient

theorem apply_divide_iff {d : Mega65MathDevice} (h : Computed d.m_regs) {off : ℕ} (val : BitVec 8)
    (low : 0x60 ≤ off) (high : off < 0x68) :
    Computed (d.ioWrite (d.m_base + BitVec.ofNat 32 off) val).2.m_regs ↔
      RemainderFits (Function.update d.m_regs off val) := by
  rw [ioWrite_divide d val low high, computeDivide_regs]
  refine computed_divide_iff ?_
  have out : off < OFF_MULTOUT := by
    unfold OFF_MULTOUT
    omega
  have a : off < OFF_MULTINA := by
    unfold OFF_MULTINA
    omega
  have b : off < OFF_MULTINB := by
    unfold OFF_MULTINB
    omega
  rw [number_update_other (Or.inl out), number_update_other (Or.inl a),
    number_update_other (Or.inl b)]
  exact h.product

theorem apply_multiply {d : Mega65MathDevice} (h : Computed d.m_regs) {off : ℕ} (val : BitVec 8)
    (low : 0x70 ≤ off) (high : off < 0x78) :
    Computed (d.ioWrite (d.m_base + BitVec.ofNat 32 off) val).2.m_regs := by
  rw [ioWrite_multiply d val low high, computeMultiply_regs]
  refine computed_multiply ?_
  have out : OFF_DIVOUT + 8 ≤ off := low
  have a : OFF_DIVINA + 4 ≤ off := le_trans (by decide) low
  have b : OFF_DIVINB + 4 ≤ off := le_trans (by decide) low
  rw [number_update_other (Or.inr out), number_update_other (Or.inr a),
    number_update_other (Or.inr b)]
  exact h.quotient

theorem advanceRng_regs (d : Mega65MathDevice) {r : ℕ} (below : r < OFF_RNDREG) :
    d.advanceRng.m_regs r = d.m_regs r := by
  have stat : r ≠ OFF_RNGSTAT := ne_of_lt (below.trans (by decide))
  simp [Mega65MathDevice.advanceRng, stat, below.ne]

theorem updateCycleCounters_regs (d : Mega65MathDevice) {r : ℕ} (below : r < OFF_RNDREG) :
    d.updateCycleCounters.m_regs r = d.m_regs r := by
  unfold OFF_RNDREG at below
  unfold Mega65MathDevice.updateCycleCounters
  dsimp only
  rw [storeBytes_eq, storeBytes_eq]
  unfold placed OFF_FRMECY OFF_PHICYC
  rw [if_neg (by omega), if_neg (by omega)]

theorem ioRead_regs (d : Mega65MathDevice) (addr : BitVec 32) {r : ℕ} (below : r < OFF_RNDREG) :
    (d.ioRead addr).2.m_regs r = d.m_regs r := by
  unfold Mega65MathDevice.ioRead
  dsimp only
  split
  next => rfl
  next =>
    split
    next => rfl
    next =>
      split
      next => exact advanceRng_regs d below
      next => rfl

/-- A division leaves the product right. -/
def Keeps (d : Mega65MathDevice) : Event → Prop
  | .write .DIVINA i val => RemainderFits (Function.update d.m_regs (OFF_DIVINA + i) val)
  | .write .DIVINB i val => RemainderFits (Function.update d.m_regs (OFF_DIVINB + i) val)
  | _ => True

theorem apply_matches_iff {d : Mega65MathDevice} (h : Matches d) (e : Event) :
    Matches (apply d e) ↔ Keeps d e := by
  rw [matches_iff] at h ⊢
  cases e with
  | write operand i val =>
    have below := i.isLt
    cases operand with
    | DIVINA => exact apply_divide_iff h val (Nat.le_add_right ..) (by change 0x60 + _ < _; omega)
    | DIVINB =>
      exact apply_divide_iff h val (by change _ ≤ 0x64 + _; omega) (by change 0x64 + _ < _; omega)
    | MULTINA =>
      exact iff_of_true (apply_multiply h val (Nat.le_add_right ..) (by change 0x70 + _ < _; omega))
        trivial
    | MULTINB =>
      exact iff_of_true
        (apply_multiply h val (by change _ ≤ 0x74 + _; omega) (by change 0x74 + _ < _; omega)) trivial
  | read addr => exact iff_of_true (h.congr fun r _ below => ioRead_regs d addr below) trivial
  | tick cycles => exact iff_of_true (h.congr fun r _ below => updateCycleCounters_regs _ below) trivial

/-! ## Runs -/

theorem matches_new (base : BitVec 32) : Matches (.new base) := by
  have cleared : Computed fun _ => 0 := ⟨by decide, by decide⟩
  rw [matches_iff]
  refine cleared.congr fun r _ below => ?_
  rw [Mega65MathDevice.new, updateCycleCounters_regs _ below, advanceRng_regs _ below]

/-- The outputs match the inputs throughout a run exactly when every division leaves the
remainder that the multiplicand already was, or the multiplier is zero. -/
theorem matches_throughout_iff (base : BitVec 32) (events : List Event) :
    (∀ before, before <+: events → Matches (before.foldl apply (.new base))) ↔
      Guarded apply Keeps (.new base) events :=
  forall_prefix_iff apply Keeps Matches (fun _ e h => apply_matches_iff h e) (matches_new base)
    events

/-- 5 / 3 leaves 2 times 1, and the product still reads 0. -/
theorem not_matches_remainder :
    ¬ Matches ([.write .DIVINB 0 3, .write .MULTINB 0 1, .write .DIVINA 0 5].foldl apply
      (.new 0xD700)) := by
  intro outputs
  have product := outputs.product
  revert product
  decide

end Mmemu.Guarantees.MathOutputs
