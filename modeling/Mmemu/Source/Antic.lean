import Mmemu.Source.Cpu6502Frame
import Mmemu.Source.MemoryBus

/-!
# ANTIC

Source: src/plugins/devices/antic/main/antic.cpp and antic.h. Fetches go through the bus that
ANTIC is itself mapped on, so they run on the machine's world; what GTIA makes of the fetched
and drawn data belongs to the other devices. The frame buffer and the inspection interface
are left out, and so are the frame and cycle counts, which only they read.
-/
namespace Mmemu.Source.Atari
open Mmemu.Source.MemoryBus

/-! ## Registers -/

def DMACTL : BitVec 4 := 0x0
def DLISTL : BitVec 4 := 0x2
def DLISTH : BitVec 4 := 0x3
def HSCROL : BitVec 4 := 0x4
def VSCROL : BitVec 4 := 0x5
def PMBASE : BitVec 4 := 0x7
def WSYNC : BitVec 4 := 0xA
def VCOUNT : BitVec 4 := 0xB
def PENH : BitVec 4 := 0xC
def PENV : BitVec 4 := 0xD
def NMIEN : BitVec 4 := 0xE
def NMIST : BitVec 4 := 0xF

def DMA_PF_MASK : BitVec 8 := 0x03
def DMA_MISSILE : BitVec 8 := 0x04
def DMA_PLAYER : BitVec 8 := 0x08
def DMA_PM_1LINE : BitVec 8 := 0x10
def DMA_DL : BitVec 8 := 0x20

def NMI_DLI : BitVec 8 := 0x80
def NMI_VBI : BitVec 8 := 0x40
def NMI_RESET : BitVec 8 := 0x20

def CYCLES_PER_LINE : ℕ := 114
def FIRST_LINE : ℕ := 8
def VBLANK_LINE : ℕ := 248
def RENDER_CYCLE : ℕ := 104

def MODE_LINES : List ℕ := [0, 0, 8, 10, 8, 16, 8, 16, 8, 4, 4, 2, 1, 2, 1, 1]
def MODE_BYTES : List ℕ := [0, 0, 40, 40, 40, 40, 20, 20, 10, 10, 20, 20, 20, 40, 40, 40]

def bytesForWidth (mode width : ℕ) : ℕ :=
  let n := MODE_BYTES.getD mode 0
  match width with
  | 1 => n * 4 / 5
  | 3 => n * 6 / 5
  | _ => n

/-- `lines` is 262, or 312 for PAL; `nmiHold` and the flags are 0 or 1 in the source. -/
structure Antic where
  regs : BitVec 4 → BitVec 8
  lines : ℕ
  line : ℕ
  cycle : ℕ
  nmist : BitVec 8
  nmiHold : Bool
  wsync : Bool
  stealPending : ℕ
  dlPc : BitVec 16
  memScan : BitVec 16
  instr : BitVec 8
  mode : ℕ
  row : ℤ
  lastRow : ℤ
  waitVbl : Bool
  prevVscrol : Bool
  dliThisLine : Bool
  lineData : List (BitVec 8)
  lineBytes : ℕ
  hscrolShift : ℕ
  hsFetchWidth : ℕ

namespace Antic

def ioRead (a : Antic) (r : BitVec 4) : BitVec 8 :=
  if r = VCOUNT then BitVec.ofNat 8 (a.line / 2)
  else if r = NMIST then a.nmist ||| 0x1F
  else if r = PENH || r = PENV then a.regs r
  else 0xFF

def ioWrite (a : Antic) (r : BitVec 4) (val : BitVec 8) : Antic :=
  if r = VCOUNT || r = PENH || r = PENV then a
  else
    let a := { a with regs := Function.update a.regs r val }
    if r = DLISTL then { a with dlPc := a.dlPc &&& 0xFF00 ||| val.setWidth 16 }
    else if r = DLISTH then { a with dlPc := val ++ a.dlPc.setWidth 8 }
    else if r = WSYNC then { a with wsync := true }
    else if r = NMIST then { a with nmist := 0 }
    else a

/-- WSYNC until the end of the line, or a DMA cycle that ANTIC takes. -/
def cpuBlocked (a : Antic) : Bool := a.wsync || 0 < a.stealPending

def consumeBlockedCycle (a : Antic) : Antic := { a with stealPending := a.stealPending - 1 }

end Antic

/-! ## The world of the machine -/

/-- The machine besides CPU and ANTIC: memory, banking, GTIA, POKEY, PIA and the peripherals.
`tickBefore` and `tickAfter` are the devices registered before and after ANTIC. -/
class Devices (ρ : Type) where
  read8 : ρ → BitVec 32 → BitVec 8 × ρ
  write8 : ρ → BitVec 32 → BitVec 8 → ρ
  peek8 : ρ → BitVec 32 → BitVec 8
  dmaMissiles : ρ → BitVec 8 → Bool → ρ
  dmaPlayer : ρ → ℕ → BitVec 8 → Bool → ρ
  drawLine : ρ → Antic → ρ
  tickBefore : ρ → ℕ → ρ
  tickAfter : ρ → ℕ → ρ
  irq : ρ → Bool

/-- `nmiSets` are the levels that ANTIC has set the NMI line to and the CPU has not seen. -/
structure World (ρ : Type) where
  antic : Antic
  devices : ρ
  nmiSets : List Bool

section
variable {ρ : Type} [Devices ρ]

/-- ANTIC is mirrored through $D400-$D4FF. -/
def isAntic (addr : BitVec 32) : Bool := addr &&& 0xFF00 == 0xD400

instance : IBus (World ρ) where
  read8 w addr :=
    if isAntic addr then (w.antic.ioRead (addr.setWidth 4), w)
    else
      let (val, devices) := Devices.read8 w.devices (addr &&& 0xFFFF)
      (val, { w with devices := devices })
  write8 w addr val :=
    if isAntic addr then { w with antic := w.antic.ioWrite (addr.setWidth 4) val }
    else { w with devices := Devices.write8 w.devices (addr &&& 0xFFFF) val }
  peek8 w addr :=
    if isAntic addr then w.antic.ioRead (addr.setWidth 4)
    else Devices.peek8 w.devices (addr &&& 0xFFFF)

abbrev Tick (ρ : Type) := StateM (World ρ)

def antic (f : Antic → Antic) : Tick ρ Unit := modify fun w => { w with antic := f w.antic }

def devices (f : ρ → ρ) : Tick ρ Unit := modify fun w => { w with devices := f w.devices }

def fetch (addr : BitVec 16) : Tick ρ (BitVec 8) := fun w => IBus.read8 w (addr.setWidth 32)

def setNmiLine (level : Bool) : Tick ρ Unit :=
  modify fun w => { w with nmiSets := w.nmiSets ++ [level] }

/-! ## Interrupts -/

/-- Setting the DLI or VBI status bit clears the other. -/
def raiseNmi (bit : BitVec 8) : Tick ρ Unit := do
  antic fun a => { a with nmist :=
    if bit = NMI_DLI then a.nmist &&& ~~~NMI_VBI ||| NMI_DLI
    else if bit = NMI_VBI then a.nmist &&& ~~~NMI_DLI ||| NMI_VBI
    else a.nmist ||| bit }
  if (← get).antic.regs NMIEN &&& bit != 0 || bit = NMI_RESET then
    setNmiLine false
    setNmiLine true
    antic fun a => { a with nmiHold := true }

def pressResetKey : Tick ρ Unit := raiseNmi NMI_RESET

/-! ## Display lists -/

/-- The next byte of the display list: the low ten bits of its counter count. -/
def next : Tick ρ (BitVec 8) := do
  let b ← fetch (← get).antic.dlPc
  antic fun a => { a with
    dlPc := a.dlPc &&& 0xFC00 ||| (a.dlPc + 1) &&& 0x03FF
    stealPending := a.stealPending + 1 }
  return b

/-- Fetch `n` bytes from `memScan` on, in its 4 KB. -/
def fetchLine (memScan : BitVec 16) : ℕ → Tick ρ (List (BitVec 8))
  | 0 => return []
  | n + 1 => do
    let before ← fetchLine memScan n
    let b ← fetch (memScan &&& 0xF000 ||| (memScan + BitVec.ofNat 16 n) &&& 0x0FFF)
    return before ++ [b]

/-- The rows of a mode line: vertical scrolling enters at VSCROL and leaves with it. -/
def rows (a : Antic) (mode : ℕ) : ℤ × ℤ :=
  let vs := a.instr &&& 0x20 != 0
  let vscrol : ℤ := (a.regs VSCROL &&& 0x0F).toNat
  let first := if vs && !a.prevVscrol then vscrol else 0
  let last := if !vs && a.prevVscrol then vscrol else MODE_LINES.getD mode 0 - 1
  (first, if last < first then first else last)

def fetchInstruction : Tick ρ Unit := do
  let instr ← next
  antic fun a => { a with instr := instr, row := 0 }
  let mode := (instr &&& 0x0F).toNat
  if mode = 0 then
    antic fun a => { a with mode := 0, lastRow := ((instr >>> 4) &&& 7).toNat }
  else if mode = 1 then
    let lo ← next
    let hi ← next
    antic fun a => { a with dlPc := hi ++ lo, mode := 0, lastRow := 0 }
    if instr &&& 0x40 != 0 then antic fun a => { a with waitVbl := true }
  else
    if instr &&& 0x40 != 0 then
      let lo ← next
      let hi ← next
      antic fun a => { a with memScan := hi ++ lo }
    antic fun a => { a with
      mode := mode
      row := (rows a mode).1
      lastRow := (rows a mode).2
      prevVscrol := instr &&& 0x20 != 0 }
    let a := (← get).antic
    let width := (a.regs DMACTL &&& DMA_PF_MASK).toNat
    let hs := instr &&& 0x10 != 0
    let fetchWidth := if hs && width != 0 && width < 3 then width + 1 else width
    let lineBytes := if width = 0 then 0 else bytesForWidth mode fetchWidth
    let bytes ← fetchLine a.memScan (min lineBytes 64)
    antic fun a => { a with
      lineBytes := lineBytes
      lineData := bytes ++ a.lineData.drop bytes.length
      memScan := a.memScan &&& 0xF000 ||| (a.memScan + BitVec.ofNat 16 lineBytes) &&& 0x0FFF
      stealPending := a.stealPending + lineBytes
      hscrolShift := if hs then (a.regs HSCROL &&& 0x0F).toNat * 2 else 0
      hsFetchWidth := fetchWidth }

/-- Player/missile DMA for GTIA. -/
def fetchPlayers : Tick ρ Unit := do
  let a := (← get).antic
  let dma := a.regs DMACTL
  if dma &&& (DMA_MISSILE ||| DMA_PLAYER) != 0 then
    let single := dma &&& DMA_PM_1LINE != 0
    let base : BitVec 16 :=
      if single then (a.regs PMBASE &&& 0xF8) ++ 0#8 else (a.regs PMBASE &&& 0xFC) ++ 0#8
    let idx := BitVec.ofNat 16 (if single then a.line else a.line / 2)
    let even := a.line % 2 = 0
    let missiles ← fetch (base + (if single then 0x300 else 0x180) + idx)
    antic fun a => { a with stealPending := a.stealPending + 1 }
    devices fun d => Devices.dmaMissiles d missiles even
    if dma &&& DMA_PLAYER != 0 then
      for p in [0, 1, 2, 3] do
        let data ← fetch (if single then base + 0x400 + BitVec.ofNat 16 p * 0x100 + idx
          else base + 0x200 + BitVec.ofNat 16 p * 0x80 + idx)
        devices fun d => Devices.dmaPlayer d p data even
      antic fun a => { a with stealPending := a.stealPending + 4 }

/-! ## Timing -/

def startLine : Tick ρ Unit := do
  if (← get).antic.nmiHold then
    antic fun a => { a with nmiHold := false }
    setNmiLine false
  antic fun a => { a with dliThisLine := false, stealPending := 0 }
  if (← get).antic.line = VBLANK_LINE then
    raiseNmi NMI_VBI
    antic fun a => { a with waitVbl := false, row := 0, lastRow := -1, mode := 0, prevVscrol := false }
  let line := (← get).antic.line
  if FIRST_LINE ≤ line && line < VBLANK_LINE then
    antic fun a => { a with stealPending := a.stealPending + 9 }
    fetchPlayers
    let a := (← get).antic
    let dma := a.regs DMACTL
    if dma &&& DMA_DL = 0 || a.waitVbl then
      antic fun a => { a with mode := 0 }
    else
      if a.lastRow < a.row then fetchInstruction
      antic fun a => { a with
        dliThisLine := a.instr &&& 0x80 != 0 && a.row == a.lastRow
        -- glyph data, one byte a character, on every line of a character mode
        stealPending := a.stealPending + (if 2 ≤ a.mode && a.mode ≤ 7 && dma &&& DMA_PF_MASK != 0
          then a.lineBytes else 0) }

/-- The line is rendered, with its glyph fetches, by the devices; ANTIC counts its row. -/
def drawLine : Tick ρ Unit := do
  let a := (← get).antic
  if FIRST_LINE ≤ a.line && a.line < VBLANK_LINE then
    devices fun d => Devices.drawLine d a
    if a.regs DMACTL &&& DMA_DL != 0 && !a.waitVbl then antic fun a => { a with row := a.row + 1 }

/-- The next scan line at the end of a line. -/
def advance (a : Antic) : Antic :=
  if a.cycle + 1 = CYCLES_PER_LINE then
    { a with cycle := 0, line := if a.line + 1 = a.lines then 0 else a.line + 1 }
  else { a with cycle := a.cycle + 1 }

def tickCycle : Tick ρ Unit := do
  if (← get).antic.cycle = 0 then startLine
  let a := (← get).antic
  if a.cycle = 8 && a.dliThisLine then raiseNmi NMI_DLI
  if a.cycle = RENDER_CYCLE then
    drawLine
    antic fun a => { a with wsync := false }
  antic advance

def tick : ℕ → Tick ρ Unit
  | 0 => return
  | n + 1 => do
    tick n
    tickCycle

end
end Mmemu.Source.Atari

/-!
# Atari 8-bit machine

Source: src/plugins/machines/atari/main/machine_atari.cpp. One CPU instruction, or one cycle
while ANTIC holds the CPU. The levels that ANTIC sets the NMI line to during the devices'
ticks reach the CPU before its next step; so does the level of the shared IRQ line.
-/
namespace Mmemu.Source.Atari
open Mmemu.Source.MemoryBus
open Mmemu.Source.Cpu6502

variable {ρ : Type} [Devices ρ]

/-- The NMOS core on the Atari bus. -/
abbrev Machine (ρ : Type) := MOS6502 (World ρ)

/-- Run a part of the world's clock. -/
def clock (t : Tick ρ Unit) (m : Machine ρ) : Machine ρ := { m with bus := (t m.bus).2 }

/-- `IORegistry::tickAll` -/
def tickAll (cycles : ℕ) : Tick ρ Unit := do
  devices fun d => Devices.tickBefore d cycles
  tick cycles
  devices fun d => Devices.tickAfter d cycles

/-- `NmiLine::set` in order, and the IRQ line. -/
def wires (m : Machine ρ) : Machine ρ :=
  { m with
    state := { m.state with
      nmiLine := m.bus.nmiSets.foldl (fun _ level => level) m.state.nmiLine
      irqLine := Devices.irq m.bus.devices }
    bus := { m.bus with nmiSets := [] } }

/-- The machine attaches nothing to its CPU but the bus. -/
def wiring : Wiring (World ρ) := ⟨none, none, none⟩

/-- One CPU instruction, or one cycle while ANTIC holds the CPU. -/
def schedulerStep (m : Machine ρ) : Machine ρ :=
  if m.bus.antic.cpuBlocked then
    let m := { m with bus := { m.bus with antic := m.bus.antic.consumeBlockedCycle } }
    wires (clock (tickAll 1) m)
  else
    let (c, m) := step wiring m
    wires (clock (tickAll c) m)

/-- The scheduler's step, and the RESET key of the 800. -/
inductive AtariEvent where
  | schedulerStep
  | resetKey
  deriving DecidableEq, Repr

def happen (m : Machine ρ) : AtariEvent → Machine ρ
  | .schedulerStep => schedulerStep m
  | .resetKey => wires (clock pressResetKey m)

end Mmemu.Source.Atari
