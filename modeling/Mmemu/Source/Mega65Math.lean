import Mmemu.Library.RegisterFile

/-!
# MEGA65 math unit

`mega65_math.cpp`: a multiplier, a divider, a random byte and cycle counters behind 256
registers, of which the lowest 16 belong to the DMA controller.
-/
namespace Mmemu.Source.Mega65Math
open Mmemu.Library.LittleEndian Mmemu.Library.RegisterFile

def OFF_DIVINA : ℕ := 0x60
def OFF_DIVINB : ℕ := 0x64
def OFF_DIVOUT : ℕ := 0x68
/-- The remainder of a division as well. -/
def OFF_MULTINA : ℕ := 0x70
def OFF_MULTINB : ℕ := 0x74
def OFF_MULTOUT : ℕ := 0x78
def OFF_RNDREG : ℕ := 0xEF
def OFF_RNGSTAT : ℕ := 0xFE
def OFF_PHICYC : ℕ := 0xF2
def OFF_FRMECY : ℕ := 0xF6

section Registers
variable {w : ℕ}

def storeBytes (count : ℕ) (regs : ℕ → BitVec 8) (dst : ℕ) (val : BitVec w) : ℕ → BitVec 8 :=
  (List.range count).foldl
    (fun regs i => Function.update regs (dst + i) ((val >>> (i * 8)).setWidth 8)) regs

def store64 (regs : ℕ → BitVec 8) (dst : ℕ) (val : BitVec 64) : ℕ → BitVec 8 :=
  storeBytes 8 regs dst val

def load32 (regs : ℕ → BitVec 8) (src : ℕ) : BitVec 32 :=
  (regs src).setWidth 32 ||| (regs (src + 1)).setWidth 32 <<< 8 |||
    (regs (src + 2)).setWidth 32 <<< 16 ||| (regs (src + 3)).setWidth 32 <<< 24

theorem storeBytes_eq (count : ℕ) (regs : ℕ → BitVec 8) (dst : ℕ) (val : BitVec w) :
    storeBytes count regs dst val = placed regs dst count val.toNat := by
  induction count with
  | zero => simp [storeBytes, placed_zero]
  | succ count ih =>
    have byte : (val >>> (count * 8)).setWidth 8 = BitVec.ofNat 8 (val.toNat / 256 ^ count) := by
      apply BitVec.eq_of_toNat_eq
      have power : 2 ^ (count * 8) = 256 ^ count := by rw [Nat.mul_comm, Nat.pow_mul]
      simp [Nat.shiftRight_eq_div_pow, power]
    rw [placed_succ, ← ih, ← byte]
    unfold storeBytes
    rw [List.range_succ, List.foldl_append, List.foldl_cons, List.foldl_nil]

theorem toNat_append_eq {m n : ℕ} (high : BitVec m) (low : BitVec n) :
    (high ++ low).toNat = low.toNat + 2 ^ n * high.toNat := by
  rw [BitVec.toNat_append, ← Nat.shiftLeft_add_eq_or_of_lt low.isLt, Nat.shiftLeft_eq,
    Nat.mul_comm, Nat.add_comm]

theorem load32_eq (regs : ℕ → BitVec 8) (src : ℕ) : (load32 regs src).toNat = number regs src 4 := by
  have apart : load32 regs src =
      regs (src + 3) ++ (regs (src + 2) ++ (regs (src + 1) ++ regs src)) := by
    unfold load32
    ext i hi
    simp only [BitVec.getElem_or, BitVec.getElem_shiftLeft, BitVec.getElem_setWidth]
    grind
  rw [apart, toNat_append_eq, toNat_append_eq, toNat_append_eq]
  simp only [number_succ, number_zero, Nat.add_zero]
  omega

end Registers

structure Mega65MathDevice where
  m_base : BitVec 32
  m_regs : ℕ → BitVec 8
  m_rngState : BitVec 32
  m_phiCounter : BitVec 32
  m_frameCounter : BitVec 32

namespace Mega65MathDevice

def advanceRng (d : Mega65MathDevice) : Mega65MathDevice :=
  let rngState := if d.m_rngState &&& 1 ≠ 0 then d.m_rngState >>> 1 ^^^ 0xD0000001
    else d.m_rngState >>> 1
  { d with
    m_rngState := rngState
    m_regs := Function.update (Function.update d.m_regs OFF_RNDREG (rngState.setWidth 8))
      OFF_RNGSTAT 0 }

def updateCycleCounters (d : Mega65MathDevice) : Mega65MathDevice :=
  { d with
    m_regs := storeBytes 4 (storeBytes 4 d.m_regs OFF_PHICYC d.m_phiCounter) OFF_FRMECY
      d.m_frameCounter }

/-- As built, and after `reset`. -/
def new (base : BitVec 32) : Mega65MathDevice :=
  (advanceRng ⟨base, fun _ => 0, 0xACE1, 0, 0⟩).updateCycleCounters

def tick (d : Mega65MathDevice) (cycles : BitVec 64) : Mega65MathDevice :=
  updateCycleCounters
    { d with
      m_phiCounter := d.m_phiCounter + cycles.setWidth 32
      m_frameCounter := d.m_frameCounter + cycles.setWidth 32 }

def computeMultiply (d : Mega65MathDevice) : Mega65MathDevice :=
  let a := (load32 d.m_regs OFF_MULTINA).setWidth 64
  let b := (load32 d.m_regs OFF_MULTINB).setWidth 64
  { d with m_regs := store64 d.m_regs OFF_MULTOUT (a * b) }

def computeDivide (d : Mega65MathDevice) : Mega65MathDevice :=
  let dividend := load32 d.m_regs OFF_DIVINA
  let divisor := load32 d.m_regs OFF_DIVINB
  let (quotient, remainder) : BitVec 64 × BitVec 32 :=
    if divisor ≠ 0 then ((dividend / divisor).setWidth 64, dividend % divisor)
    else (0xFFFFFFFFFFFFFFFF, 0xFFFFFFFF)
  { d with m_regs := storeBytes 4 (store64 d.m_regs OFF_DIVOUT quotient) OFF_MULTINA remainder }

/-- The byte read, if the address is the device's. -/
def ioRead (d : Mega65MathDevice) (addr : BitVec 32) : Option (BitVec 8) × Mega65MathDevice :=
  let off := (addr - d.m_base).toNat
  if 256 ≤ off then (none, d)
  else if off ≤ 0x0F then (none, d)
  else if off = OFF_RNDREG then (some (d.m_regs OFF_RNDREG), d.advanceRng)
  else (some (d.m_regs off), d)

def ioWrite (d : Mega65MathDevice) (addr : BitVec 32) (val : BitVec 8) : Bool × Mega65MathDevice :=
  let off := (addr - d.m_base).toNat
  if 256 ≤ off then (false, d)
  else if off ≤ 0x0F then (false, d)
  else if off = OFF_RNDREG ∨ off = OFF_RNGSTAT then (true, d)
  else
    let d := { d with m_regs := Function.update d.m_regs off val }
    let d := if OFF_MULTINA ≤ off ∧ off < OFF_MULTINA + 4 then d.computeMultiply else d
    let d := if OFF_MULTINB ≤ off ∧ off < OFF_MULTINB + 4 then d.computeMultiply else d
    let d := if OFF_DIVINA ≤ off ∧ off < OFF_DIVINA + 4 then d.computeDivide else d
    let d := if OFF_DIVINB ≤ off ∧ off < OFF_DIVINB + 4 then d.computeDivide else d
    (true, d)

end Mega65MathDevice

end Mmemu.Source.Mega65Math
