import Mmemu.Source.Cpu6502
import Mmemu.Source.MapMmu

/-!
# MOS 45GS02: registers, memory and arithmetic

Source: src/plugins/45gs02/main/cpu45gs02.cpp and cpu45gs02.h. The bus, the MAP controller and
the hypervisor's RAM are one world `ω`; no access of the core calls back into it. The status
flags and what sets them are those of the 6502, except bit 5.
-/
namespace Mmemu.Source.Cpu45gs02
open Mmemu.Source.MemoryBus
open Mmemu.Source.Cpu6502 (flag orIf nz carryTo int FLAG_C FLAG_Z FLAG_I FLAG_D FLAG_B FLAG_V FLAG_N)

/-- Bit 5 of P: the stack stays within its page. -/
def FLAG_E : BitVec 8 := 0x20

structure CPU45GS02State where
  a : BitVec 8
  x : BitVec 8
  y : BitVec 8
  z : BitVec 8
  b : BitVec 8
  sp : BitVec 16
  pc : BitVec 16
  p : BitVec 8
  cycles : BitVec 64
  irqLine : Bool
  nmiLine : Bool
  nmiPrev : Bool
  haltLine : Bool
  mapInterruptInhibit : Bool
  hypervisor : Bool
  deriving DecidableEq, Repr, Inhabited

/-- The virtualisation control registers. -/
structure HypervisorState where
  regA : BitVec 8
  regX : BitVec 8
  regY : BitVec 8
  regZ : BitVec 8
  regB : BitVec 8
  spl : BitVec 8
  sph : BitVec 8
  pflags : BitVec 8
  pc : BitVec 16
  mapOffsetLow : BitVec 32
  mapOffsetHigh : BitVec 32
  mapEnables : BitVec 8
  megabyteLow : BitVec 32
  megabyteHigh : BitVec 32
  port00 : BitVec 8
  port01 : BitVec 8
  vicMode : BitVec 8
  dmaSrcMB : BitVec 8
  dmaDstMB : BitVec 8
  dmaListAddr : BitVec 32
  deriving DecidableEq, Repr, Inhabited

def HypervisorState.zero : HypervisorState :=
  ⟨0, 0, 0, 0, 0, 0, 0, 0, 0, 0, 0, 0, 0, 0, 0, 0, 0, 0, 0, 0⟩

/-- What the core reaches besides its bus. Where the MAP controller names no physical bus,
`physRead8` and `physWrite8` are those of the bus itself. -/
class MachineBus (ω : Type) extends IBus ω where
  isHaltRequested : ω → Bool
  getMapState : ω → MapState
  setMapState : ω → MapState → ω
  physRead8 : ω → BitVec 32 → BitVec 8 × ω
  physWrite8 : ω → BitVec 32 → BitVec 8 → ω
  hyperRam : ω → ℕ → BitVec 8
  setHyperRam : ω → ℕ → BitVec 8 → ω

/-- A plain memory bus: nothing is mapped and nothing halts the core. -/
instance : MachineBus FlatMemoryBus where
  isHaltRequested _ := false
  getMapState _ := .zero
  setMapState b _ := b
  physRead8 b addr := (b.read8 addr, b)
  physWrite8 b addr val := b.write8 addr val
  hyperRam _ _ := 0xFF
  setHyperRam b _ _ := b

structure MOS45GS02 (ω : Type) where
  state : CPU45GS02State
  hyperState : HypervisorState
  bus : ω
  mapMmu : Bool
  hyperRom : Option (List (BitVec 8))
  experimentalPrefixMode : Bool

abbrev Exec (ω : Type) := StateM (MOS45GS02 ω)

namespace CPU45GS02State

/-- `regRead(8)` -/
def q (s : CPU45GS02State) : BitVec 32 := s.z ++ s.y ++ s.x ++ s.a

/-- `regWrite(8, val)` -/
def setQ (s : CPU45GS02State) (val : BitVec 32) : CPU45GS02State :=
  { s with
    a := val.extractLsb' 0 8, x := val.extractLsb' 8 8
    y := val.extractLsb' 16 8, z := val.extractLsb' 24 8 }

def updateNZ (s : CPU45GS02State) (val : BitVec 8) : CPU45GS02State := { s with p := nz s.p val }

/-- N and Z from a value of any width. -/
def nzOf {n : ℕ} (p : BitVec 8) (val : BitVec n) : BitVec 8 :=
  orIf (orIf (p &&& ~~~(FLAG_N ||| FLAG_Z)) FLAG_Z (val == 0)) FLAG_N val.msb

def updateNZ16 (s : CPU45GS02State) (val : BitVec 16) : CPU45GS02State :=
  { s with p := nzOf s.p val }

def updateNZ32 (s : CPU45GS02State) (val : BitVec 32) : CPU45GS02State :=
  { s with p := nzOf s.p val }

/-! ## 8-bit arithmetic -/

def CVZN : BitVec 8 := FLAG_N ||| FLAG_V ||| FLAG_Z ||| FLAG_C

/-- Decimal mode: Z from the binary sum, N and V before the high nibble is adjusted. -/
def adcDecimal (s : CPU45GS02State) (v : BitVec 8) : CPU45GS02State :=
  let a := int s.a
  let c := int (s.p &&& FLAG_C)
  let lo := (a &&& 0x0F) + (int v &&& 0x0F) + c
  let lo := if 9 < lo then lo + 6 else lo
  let t := (lo &&& 0x0F) + (a &&& 0xF0) + (int v &&& 0xF0) + if lo < 0x10 then 0 else 0x10
  let p := s.p &&& ~~~CVZN
  let p := orIf p FLAG_Z ((a + int v + c) &&& 0xFF == 0)
  let p := orIf p FLAG_N (t &&& 0x80 != 0)
  let p := orIf p FLAG_V ((a ^^^ t) &&& 0x80 != 0 && (a ^^^ int v) &&& 0x80 == 0)
  if 9 < (t >>> 4 &&& 0x1F) then
    { s with a := ((t + 0x60) &&& 0xFF).setWidth 8, p := p ||| FLAG_C }
  else { s with a := t.setWidth 8, p := p }

def adcBinary (s : CPU45GS02State) (v : BitVec 8) : CPU45GS02State :=
  let a : BitVec 16 := s.a.setWidth 16
  let sum := a + v.setWidth 16 + (s.p &&& FLAG_C).setWidth 16
  let p := s.p &&& ~~~(FLAG_V ||| FLAG_C)
  let p := orIf p FLAG_V (~~~(a ^^^ v.setWidth 16) &&& (a ^^^ sum) &&& 0x80 != 0)
  let p := orIf p FLAG_C (0xFF < sum)
  ({ s with a := sum.setWidth 8, p := p } : CPU45GS02State).updateNZ (sum.setWidth 8)

def doAdc8 (s : CPU45GS02State) (v : BitVec 8) : CPU45GS02State :=
  if flag s.p FLAG_D then s.adcDecimal v else s.adcBinary v

/-- Decimal mode: the flags of the binary difference, the result corrected by nibbles. -/
def sbcDecimal (s : CPU45GS02State) (v : BitVec 8) : CPU45GS02State :=
  let a := int s.a
  let borrow : BitVec 32 := if flag s.p FLAG_C then 0 else 1
  let bin : BitVec 16 := (a - int v - borrow).setWidth 16
  let p := s.p &&& ~~~CVZN
  let p := orIf p FLAG_C (bin ≤ 0xFF)
  let p := orIf p FLAG_V ((s.a ^^^ v).setWidth 16 &&& (s.a.setWidth 16 ^^^ bin) &&& 0x80 != 0)
  let p := orIf p FLAG_N (bin &&& 0x80 != 0)
  let p := orIf p FLAG_Z (bin &&& 0xFF == 0)
  let d := ((a &&& 0x0F) - (int v &&& 0x0F) - borrow) &&& 0x1FF
  let d :=
    if d &&& 0x10 != 0 then
      ((d &&& 0x0F) - 6) &&& 0x0F ||| ((a >>> 4 - int v >>> 4 - 1) &&& 0x1F) <<< 4
    else d &&& 0x0F ||| ((a >>> 4 - int v >>> 4) &&& 0x1F) <<< 4
  let d := if d &&& 0x100 != 0 then (d - 0x60) &&& 0x1FF else d
  { s with a := d.setWidth 8, p := p }

def sbcBinary (s : CPU45GS02State) (v : BitVec 8) : CPU45GS02State :=
  let a : BitVec 16 := s.a.setWidth 16
  let d := a - v.setWidth 16 - if flag s.p FLAG_C then 0 else 1
  let p := s.p &&& ~~~(FLAG_V ||| FLAG_C)
  let p := orIf p FLAG_V ((a ^^^ v.setWidth 16) &&& (a ^^^ d) &&& 0x80 != 0)
  let p := orIf p FLAG_C (d ≤ 0xFF)
  ({ s with a := d.setWidth 8, p := p } : CPU45GS02State).updateNZ (d.setWidth 8)

def doSbc8 (s : CPU45GS02State) (v : BitVec 8) : CPU45GS02State :=
  if flag s.p FLAG_D then s.sbcDecimal v else s.sbcBinary v

/-- CMP, CPX, CPY and CPZ. -/
def compare (reg : CPU45GS02State → BitVec 8) (s : CPU45GS02State) (v : BitVec 8) :
    CPU45GS02State :=
  { s with p := nz (carryTo s.p (v ≤ reg s)) (reg s - v) }

/-- BIT, also of 32 bits: Z from the register and the operand, N and V from the operand. -/
def bit {n : ℕ} (p : BitVec 8) (reg v : BitVec n) : BitVec 8 :=
  let p := p &&& ~~~(FLAG_Z ||| FLAG_N ||| FLAG_V)
  let p := orIf p FLAG_Z (reg &&& v == 0)
  let p := orIf p FLAG_N v.msb
  orIf p FLAG_V (v.getLsbD (n - 2))

/-! ## 32-bit arithmetic -/

def doAdc32 (s : CPU45GS02State) (v : BitVec 32) : CPU45GS02State :=
  let res : BitVec 64 := s.q.setWidth 64 + v.setWidth 64 + (s.p &&& FLAG_C).setWidth 64
  let r := res.setWidth 32
  let p := s.p &&& ~~~(FLAG_V ||| FLAG_C)
  let p := orIf p FLAG_V (~~~(s.q ^^^ v) &&& (s.q ^^^ r) &&& 0x80000000 != 0)
  let p := orIf p FLAG_C (0xFFFFFFFF < res)
  (({ s with p := p } : CPU45GS02State).setQ r).updateNZ32 r

def doSbc32 (s : CPU45GS02State) (v : BitVec 32) : CPU45GS02State :=
  let d : BitVec 64 := s.q.setWidth 64 - v.setWidth 64 - if flag s.p FLAG_C then 0 else 1
  let r := d.setWidth 32
  let p := s.p &&& ~~~(FLAG_V ||| FLAG_C)
  let p := orIf p FLAG_V ((s.q ^^^ v) &&& (s.q ^^^ r) &&& 0x80000000 != 0)
  let p := orIf p FLAG_C (d ≤ 0xFFFFFFFF)
  (({ s with p := p } : CPU45GS02State).setQ r).updateNZ32 r

def doCmp32 (s : CPU45GS02State) (v : BitVec 32) : CPU45GS02State :=
  { s with p := nzOf (carryTo s.p (v ≤ s.q)) (s.q - v) }

/-- Put a value in Q and set N and Z from it. -/
def toQ (s : CPU45GS02State) (val : BitVec 32) : CPU45GS02State := (s.setQ val).updateNZ32 val

def doAnd32 (s : CPU45GS02State) (v : BitVec 32) : CPU45GS02State := s.toQ (s.q &&& v)
def doOra32 (s : CPU45GS02State) (v : BitVec 32) : CPU45GS02State := s.toQ (s.q ||| v)
def doEor32 (s : CPU45GS02State) (v : BitVec 32) : CPU45GS02State := s.toQ (s.q ^^^ v)

end CPU45GS02State

/-! ## Memory -/

section Access
variable {ω : Type} [MachineBus ω]

/-- Change the registers only. -/
def regs (f : CPU45GS02State → CPU45GS02State) : Exec ω Unit :=
  modify fun c => { c with state := f c.state }

def addCycles (n : ℕ) : Exec ω Unit :=
  regs fun s => { s with cycles := s.cycles + BitVec.ofNat 64 n }

/-- In hypervisor mode $8000-$BFFF is the hypervisor's RAM: its size, and the offset in it. -/
def MOS45GS02.hyperWindow (c : MOS45GS02 ω) (addr : BitVec 16) : Option (ℕ × ℕ) :=
  match c.hyperRom with
  | some rom =>
    if c.state.hypervisor && 0x8000 ≤ addr && addr ≤ 0xBFFF then
      some (rom.length, (addr - 0x8000).toNat)
    else none
  | none => none

def read8 (addr : BitVec 16) : Exec ω (BitVec 8) := fun c =>
  match c.hyperWindow addr with
  | some (size, off) => (if off < size then MachineBus.hyperRam c.bus off else 0xFF, c)
  | none =>
    let (val, bus) := IBus.read8 c.bus (addr.setWidth 32)
    (val, { c with bus := bus })

def write8 (addr : BitVec 16) (val : BitVec 8) : Exec ω Unit :=
  modify fun c =>
    match c.hyperWindow addr with
    | some (size, off) =>
      if off < size then { c with bus := MachineBus.setHyperRam c.bus off val } else c
    | none => { c with bus := IBus.write8 c.bus (addr.setWidth 32) val }

theorem write8_run (addr : BitVec 16) (val : BitVec 8) (c : MOS45GS02 ω) :
    (write8 addr val c).2 = (c.hyperWindow addr).elim
      { c with bus := IBus.write8 c.bus (addr.setWidth 32) val }
      (fun w => if w.2 < w.1 then { c with bus := MachineBus.setHyperRam c.bus w.2 val } else c) := by
  have run : ∀ f : MOS45GS02 ω → MOS45GS02 ω, ((modify f : Exec ω Unit) c).2 = f c := fun _ => rfl
  unfold write8
  rw [run]
  cases c.hyperWindow addr <;> rfl

/-- 32-bit physical access bypasses the mapping. -/
def read8_phys (physAddr : BitVec 32) : Exec ω (BitVec 8) := fun c =>
  let addr := physAddr &&& 0x0FFFFFFF
  let (val, bus) := if c.mapMmu then MachineBus.physRead8 c.bus addr else IBus.read8 c.bus addr
  (val, { c with bus := bus })

def write8_phys (physAddr : BitVec 32) (val : BitVec 8) : Exec ω Unit :=
  modify fun c =>
    let addr := physAddr &&& 0x0FFFFFFF
    let bus := if c.mapMmu then MachineBus.physWrite8 c.bus addr val else IBus.write8 c.bus addr val
    { c with bus := bus }

/-- Four bytes, the lowest first. -/
def readFour (read : BitVec 32 → Exec ω (BitVec 8)) (addr : BitVec 32) : Exec ω (BitVec 32) := do
  let b0 ← read addr
  let b1 ← read (addr + 1)
  let b2 ← read (addr + 2)
  let b3 ← read (addr + 3)
  return b3 ++ b2 ++ b1 ++ b0

def writeFour (write : BitVec 32 → BitVec 8 → Exec ω Unit) (addr val : BitVec 32) :
    Exec ω Unit := do
  write addr (val.extractLsb' 0 8)
  write (addr + 1) (val.extractLsb' 8 8)
  write (addr + 2) (val.extractLsb' 16 8)
  write (addr + 3) (val.extractLsb' 24 8)

def read32 (addr : BitVec 16) : Exec ω (BitVec 32) :=
  readFour (fun at_ => read8 (at_.setWidth 16)) (addr.setWidth 32)

def write32 (addr : BitVec 16) (val : BitVec 32) : Exec ω Unit :=
  writeFour (fun at_ => write8 (at_.setWidth 16)) (addr.setWidth 32) val

def read32_phys : BitVec 32 → Exec ω (BitVec 32) := readFour read8_phys

def write32_phys : BitVec 32 → BitVec 32 → Exec ω Unit := writeFour write8_phys

/-- `read8(addr) | read8(addr + 1) << 8` -/
def read16 (addr : BitVec 16) : Exec ω (BitVec 16) := do
  let lo ← read8 addr
  let hi ← read8 (addr + 1)
  return hi ++ lo

/-- `read8(m_state.pc++)` -/
def fetch : Exec ω (BitVec 8) := do
  let pc := (← get).state.pc
  regs fun s => { s with pc := s.pc + 1 }
  read8 pc

/-! ## Stack -/

/-- The stack pointer moved by one: within its page in the 8-bit mode. -/
def CPU45GS02State.moveSp (s : CPU45GS02State) (by_ : BitVec 16) : CPU45GS02State :=
  { s with sp :=
      if flag s.p FLAG_E then s.sp &&& 0xFF00 ||| (s.sp + by_) &&& 0xFF else s.sp + by_ }

def push8 (v : BitVec 8) : Exec ω Unit := do
  write8 (← get).state.sp v
  regs fun s => s.moveSp 0xFFFF

def pull8 : Exec ω (BitVec 8) := do
  regs fun s => s.moveSp 1
  read8 (← get).state.sp

def push16 (v : BitVec 16) : Exec ω Unit := do
  push8 (v.extractLsb' 8 8)
  push8 (v.setWidth 8)

def pull16 : Exec ω (BitVec 16) := do
  let l ← pull8
  let h ← pull8
  return h ++ l

/-! ## Hypervisor -/

/-- The machine's hooks for what the core cannot see. -/
structure HypervisorHooks (ω : Type) where
  onEnter : Option (HypervisorState → ω → HypervisorState × ω)
  onExit : Option (HypervisorState → ω → ω)

/-- The saved context, MAP state included where there is a controller. -/
def MOS45GS02.context (c : MOS45GS02 ω) : HypervisorState :=
  let s := c.state
  let saved : HypervisorState :=
    { c.hyperState with
      regA := s.a, regX := s.x, regY := s.y, regZ := s.z, regB := s.b
      spl := s.sp.setWidth 8, sph := s.sp.extractLsb' 8 8, pflags := s.p, pc := s.pc }
  if c.mapMmu then
    let ms := MachineBus.getMapState c.bus
    { saved with
      mapOffsetLow := ms.offsets 0 &&& 0xFFF00, mapOffsetHigh := ms.offsets 4 &&& 0xFFF00
      mapEnables := ms.enables, megabyteLow := ms.megabyteLow, megabyteHigh := ms.megabyteHigh }
  else saved

/-- The lower half stays mapped, unless it shows megabyte $FF; blocks 4 and 5 show $FFF8000. -/
def hypervisorMap (ms : MapState) : MapState :=
  { offsets := fun i => if 4 ≤ i then 0xF0000 else ms.offsets i
    enables := ms.enables &&& 0x0F ||| 0x30
    padding := ms.padding
    megabyteLow := if ms.megabyteLow = 0xFF <<< 20 then 0 else ms.megabyteLow
    megabyteHigh := 0xFF <<< 20 }

def enterHypervisor (hooks : HypervisorHooks ω) (trapAddr : BitVec 16) : Exec ω Unit := do
  modify fun c => { c with hyperState := c.context }
  regs fun s =>
    { s with
      hypervisor := true, p := (s.p ||| (FLAG_I ||| FLAG_E)) &&& ~~~FLAG_D, pc := trapAddr
      sp := 0xBEFF, b := 0xBF }
  modify fun c =>
    if c.mapMmu then
      { c with bus := MachineBus.setMapState c.bus (hypervisorMap (MachineBus.getMapState c.bus)) }
    else c
  modify fun c =>
    match hooks.onEnter with
    | some hook =>
      let (saved, bus) := hook c.hyperState c.bus
      { c with hyperState := saved, bus := bus }
    | none => c

/-- The MAP state that the context holds. -/
def HypervisorState.map (h : HypervisorState) : MapState :=
  { offsets := fun i => if i < 4 then h.mapOffsetLow else h.mapOffsetHigh
    enables := h.mapEnables
    padding := 0
    megabyteLow := h.megabyteLow
    megabyteHigh := h.megabyteHigh }

def exitHypervisor (hooks : HypervisorHooks ω) : Exec ω Unit := do
  let h := (← get).hyperState
  regs fun s =>
    { s with
      a := h.regA, x := h.regX, y := h.regY, z := h.regZ, b := h.regB, sp := h.sph ++ h.spl
      p := h.pflags, pc := h.pc }
  modify fun c =>
    if c.mapMmu then { c with bus := MachineBus.setMapState c.bus c.hyperState.map } else c
  modify fun c =>
    match hooks.onExit with
    | some hook => { c with bus := hook c.hyperState c.bus }
    | none => c
  regs fun s => { s with hypervisor := false }

/-! ## Reset and the lines -/

/-- `memcpy` of the ROM over the hypervisor's RAM. -/
def loadHyperRam (rom : List (BitVec 8)) (w : ω) : ω :=
  rom.zipIdx.foldl (fun w (byte, off) => MachineBus.setHyperRam w off byte) w

def reset (hooks : HypervisorHooks ω) : Exec ω Unit := do
  regs fun s =>
    { s with
      a := 0, x := 0, y := 0, z := 0, b := 0, sp := 0x01FF, p := FLAG_I ||| FLAG_E, cycles := 0
      irqLine := false, nmiLine := false, nmiPrev := false, haltLine := false
      mapInterruptInhibit := false }
  modify fun c => { c with hyperState := .zero }
  match (← get).hyperRom with
  | some rom =>
    regs fun s => { s with hypervisor := false }
    modify fun c =>
      if c.mapMmu then { c with bus := MachineBus.setMapState c.bus .zero } else c
    let pc ← read16 0xFFFC
    regs fun s => { s with pc := pc }
    modify fun c => { c with bus := loadHyperRam rom c.bus }
    enterHypervisor hooks 0x8100
  | none =>
    let pc ← read16 0xFFFC
    regs fun s => { s with pc := pc }

def setIrqLine (asserted : Bool) : Exec ω Unit := regs fun s => { s with irqLine := asserted }
def setNmiLine (asserted : Bool) : Exec ω Unit := regs fun s => { s with nmiLine := asserted }
def setHaltLine (asserted : Bool) : Exec ω Unit := regs fun s => { s with haltLine := asserted }
def triggerIrq : Exec ω Unit := regs fun s => { s with irqLine := true }
def triggerNmi : Exec ω Unit := regs fun s => { s with nmiLine := true }

end Access
end Mmemu.Source.Cpu45gs02
