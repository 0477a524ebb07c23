import Mathlib.Data.BitVec
import Mathlib.Logic.Function.Basic
import Mmemu.Library.Literals

/-!
# F018B DMA controller

Source: src/plugins/devices/f018b_dma/main/f018b_dma.cpp and f018b_dma.h. The
DMA bus is a 28-bit flat bus, present from the first register write on. What
`m_ioRegistry` dispatches to is a parameter with a state of its own; it stands
for the other devices, so a transfer does not reach the controller's registers.
-/
namespace Mmemu.Source.F018bDma

/-- The registry of I/O handlers: a dispatch says whether a handler took it. -/
structure IoRegistry (ι : Type) where
  dispatchRead : ι → BitVec 32 → Option (BitVec 8) × ι
  dispatchWrite : ι → BitVec 32 → BitVec 8 → Option ι

/-- The devices the controller is given: `m_ioRegistry` and `m_mapController`,
the latter by its `resolvePhysical`. -/
structure Wiring (ι : Type) where
  ioRegistry : Option (IoRegistry ι)
  mapController : Option (BitVec 16 → BitVec 32)

/-- What lies on the other side of the controller: memory and the I/O devices. -/
structure World (ι : Type) where
  mem : BitVec 28 → BitVec 8
  io : ι

inductive DmaOperation where
  | copy | mix | swap | fill
  deriving DecidableEq, Repr

def DmaOperation.decode (commandLsb : BitVec 8) : DmaOperation :=
  match (commandLsb &&& 0x03).toNat with
  | 0 => .copy | 1 => .mix | 2 => .swap | _ => .fill

structure LineMode where
  xCol : BitVec 32
  yCol : BitVec 32
  slope : BitVec 16
  slopeAccum : BitVec 32
  slopeType : BitVec 8
  deriving DecidableEq, Repr

def LineMode.zero : LineMode := { xCol := 0, yCol := 0, slope := 0, slopeAccum := 0, slopeType := 0 }

/-- Bit 7 of the control byte enables line drawing. -/
def LineMode.enabled (lm : LineMode) : Bool := decide (lm.slopeType &&& 0x80 ≠ 0#8)

structure SpiralMode where
  enabled : Bool
  phase : BitVec 8
  bytesInPhase : BitVec 16
  bytesPhaseStep : BitVec 16
  deriving DecidableEq, Repr

/-- Spiral mode as `startDma` leaves it. -/
def SpiralMode.off : SpiralMode :=
  { enabled := false, phase := 0, bytesInPhase := 1, bytesPhaseStep := 0 }

/-- One side of a job: `m_srcBase`, `m_srcAccum`, ... or `m_dstBase`, `m_dstAccum`, ... -/
structure Channel where
  base : BitVec 32
  accum : BitVec 32
  step : BitVec 16
  dir : Bool
  hold : Bool
  io : Bool
  modulo : Bool
  line : LineMode
  deriving DecidableEq, Repr

def Channel.start : Channel :=
  { base := 0, accum := 0, step := 0x0100, dir := false, hold := false, io := false
    modulo := false, line := .zero }

structure DmaJob where
  commandLsb : BitVec 8
  commandMsb : BitVec 8
  count : BitVec 16
  srcAddr : BitVec 32
  srcFlags : BitVec 8
  dstAddr : BitVec 32
  dstFlags : BitVec 8
  modulo : BitVec 16
  srcSkipRate : BitVec 16
  dstSkipRate : BitVec 16
  srcMB : BitVec 8
  dstMB : BitVec 8
  srcMBset : Bool
  dstMBset : Bool
  useF018A : Bool
  deriving DecidableEq, Repr

/-- The MIX masks of the four combinations of a source and a destination bit. -/
structure Minterms where
  m0 : BitVec 8
  m1 : BitVec 8
  m2 : BitVec 8
  m3 : BitVec 8
  deriving DecidableEq, Repr

/-- A megabyte setting inherited along a chain. -/
structure InheritMB where
  mb : BitVec 8
  isSet : Bool
  deriving DecidableEq, Repr

def InheritMB.clear : InheritMB := { mb := 0, isSet := false }

structure Dma where
  regs : Fin 16 → BitVec 8
  listAddr : BitVec 32
  active : Bool
  enhancedMode : Bool
  experimentalDmaOps : Bool
  hasChain : Bool
  bytesRemaining : ℕ
  src : Channel
  dst : Channel
  fillByte : BitVec 8
  currentOp : DmaOperation
  moduloValue : BitVec 16
  colLimit : ℕ
  rowLimit : ℕ
  colCounter : ℕ
  rowCounter : ℕ
  moduloActive : Bool
  transparency : BitVec 16
  transparencyVal : BitVec 8
  spiralMode : SpiralMode
  minterms : Minterms
  inheritSrc : InheritMB
  inheritDst : InheritMB

def setReg (s : Dma) (offset : Fin 16) (val : BitVec 8) : Dma :=
  { s with regs := Function.update s.regs offset val }

/-- The controller as constructed. The source leaves the line modes open there;
every trigger clears them before they can be used. -/
def init : Dma :=
  { regs := fun _ => 0, listAddr := 0, active := false, enhancedMode := false
    experimentalDmaOps := false, hasChain := false, bytesRemaining := 0, src := .start, dst := .start
    fillByte := 0, currentOp := .copy, moduloValue := 0, colLimit := 0, rowLimit := 0
    colCounter := 0, rowCounter := 0, moduloActive := false, transparency := 0x100
    transparencyVal := 0, spiralMode := .off, minterms := { m0 := 0, m1 := 0, m2 := 0, m3 := 0 }
    inheritSrc := .clear, inheritDst := .clear }

def reset (s : Dma) : Dma :=
  { s with
    regs := fun _ => 0, listAddr := 0, active := false, hasChain := false, bytesRemaining := 0
    inheritSrc := .clear, inheritDst := .clear }

/-! ## The bus -/

/-- The bus keeps the low 28 address bits. -/
def busAddr (addr : BitVec 32) : BitVec 28 := addr.setWidth 28

def read8 (mem : BitVec 28 → BitVec 8) (addr : BitVec 32) : BitVec 8 := mem (busAddr addr)

def write8 (mem : BitVec 28 → BitVec 8) (addr : BitVec 32) (val : BitVec 8) : BitVec 28 → BitVec 8 :=
  Function.update mem (busAddr addr) val

variable {ι : Type}

/-- With the I/O flag set, `$D000-$DFFF` of any bank goes to the I/O registry
first. -/
def dmaRead (c : Wiring ι) (w : World ι) (addr : BitVec 32) (ioFlag : Bool) :
    BitVec 8 × World ι :=
  match c.ioRegistry with
  | none => (read8 w.mem addr, w)
  | some registry =>
    if ioFlag && addr &&& 0xF000 = 0xD000 then
      match registry.dispatchRead w.io (addr &&& 0xFFFF) with
      | (some val, io) => (val, { w with io := io })
      | (none, io) => (read8 w.mem addr, { w with io := io })
    else (read8 w.mem addr, w)

def dmaWrite (c : Wiring ι) (w : World ι) (addr : BitVec 32) (val : BitVec 8) (ioFlag : Bool) :
    World ι :=
  match c.ioRegistry with
  | none => { w with mem := write8 w.mem addr val }
  | some registry =>
    if ioFlag && addr &&& 0xF000 = 0xD000 then
      match registry.dispatchWrite w.io (addr &&& 0xFFFF) val with
      | some io => { w with io := io }
      | none => { w with mem := write8 w.mem addr val }
    else { w with mem := write8 w.mem addr val }

/-! ## Job options -/

/-- The low or high byte of a 16-bit setting. -/
def setLo (w : BitVec 16) (arg : BitVec 8) : BitVec 16 := (w &&& 0xFF00) ||| arg.setWidth 16
def setHi (w : BitVec 16) (arg : BitVec 8) : BitVec 16 := (w &&& 0x00FF) ||| (arg.setWidth 16 <<< 8)

/-- A card boundary offset: its bytes are bits 15:8 and 23:16. -/
def setCol8 (w : BitVec 32) (arg : BitVec 8) : BitVec 32 :=
  (w &&& 0xFF0000) ||| (arg.setWidth 32 <<< 8)
def setCol16 (w : BitVec 32) (arg : BitVec 8) : BitVec 32 :=
  (w &&& 0x00FF00) ||| (arg.setWidth 32 <<< 16)

/-- Line options `$87-$8F` and `$97-$9F`, by their low four bits. -/
def LineMode.option (lm : LineMode) (option arg : BitVec 8) : LineMode :=
  match (option &&& 0x0F).toNat with
  | 0x7 => { lm with xCol := setCol8 lm.xCol arg }
  | 0x8 => { lm with xCol := setCol16 lm.xCol arg }
  | 0x9 => { lm with yCol := setCol8 lm.yCol arg }
  | 0xA => { lm with yCol := setCol16 lm.yCol arg }
  | 0xB => { lm with slope := setLo lm.slope arg }
  | 0xC => { lm with slope := setHi lm.slope arg }
  | 0xD => { lm with slopeAccum := (lm.slopeAccum &&& 0xFF00) ||| arg.setWidth 32 }
  | 0xE => { lm with slopeAccum := (lm.slopeAccum &&& 0x00FF) ||| (arg.setWidth 32 <<< 8) }
  | 0xF => { lm with slopeType := arg }
  | _ => lm

/-- An option `$80-$FF` with its argument. -/
def paramOption (option arg : BitVec 8) (s : Dma) (job : DmaJob) : Dma × DmaJob :=
  match option.toNat with
  | 0x80 => (s, { job with srcMB := arg, srcMBset := true })
  | 0x81 => (s, { job with dstMB := arg, dstMBset := true })
  | 0x82 => (s, { job with srcSkipRate := setLo job.srcSkipRate arg })
  | 0x83 => (s, { job with srcSkipRate := setHi job.srcSkipRate arg })
  | 0x84 => (s, { job with dstSkipRate := setLo job.dstSkipRate arg })
  | 0x85 => (s, { job with dstSkipRate := setHi job.dstSkipRate arg })
  | 0x86 => ({ s with transparencyVal := arg }, job)
  | _ =>
    if 0x87#8 ≤ option ∧ option ≤ 0x8F#8 then ({ s with dst.line := s.dst.line.option option arg }, job)
    else if 0x97#8 ≤ option ∧ option ≤ 0x9F#8 then
      ({ s with src.line := s.src.line.option option arg }, job)
    else (s, job)

/-- An option `$01-$7F`. -/
def flagOption (option : BitVec 8) (s : Dma) (job : DmaJob) : Dma × DmaJob :=
  match option.toNat with
  | 0x06 => ({ s with transparency := s.transparency ||| 0x100 }, job)
  | 0x07 => ({ s with transparency := s.transparency &&& 0xFF }, job)
  | 0x0A => (s, { job with useF018A := true })
  | 0x0B => (s, { job with useF018A := false })
  | 0x53 => ({ s with spiralMode := { SpiralMode.off with enabled := true } }, job)
  | _ => (s, job)

/-- `parseJobOptions`; `left` counts the options still allowed, 128 at the start. -/
def parseJobOptions (mem : BitVec 28 → BitVec 8) (left : ℕ) (addr : BitVec 32) (s : Dma)
    (job : DmaJob) : BitVec 32 × Dma × DmaJob :=
  match left with
  | 0 => (addr, s, job)
  | left + 1 =>
    let option := read8 mem addr
    let addr := addr + 1
    if option = 0#8 then (addr, s, job)
    else if option &&& 0x80 ≠ 0#8 then
      let (s, job) := paramOption option (read8 mem addr) s job
      parseJobOptions mem left (addr + 1) s job
    else
      let (s, job) := flagOption option s job
      parseJobOptions mem left addr s job

/-! ## Fetching a job -/

/-- The list address in the registers, as reads show it. -/
def syncListAddrToRegs (s : Dma) : Dma :=
  let byte (shift : ℕ) : BitVec 8 := (s.listAddr >>> shift).setWidth 8
  let s := setReg s 0x00 (byte 0)
  let s := setReg s 0x05 (byte 0)
  let s := setReg s 0x01 (byte 8)
  let s := setReg s 0x02 ((s.regs 0x02 &&& 0x80) ||| (byte 16 &&& 0x7F))
  setReg s 0x04 (byte 20)

/-- A 16-bit word and a 20-bit address as they lie in a job. -/
def word16 (lo hi : BitVec 8) : BitVec 16 := lo.setWidth 16 ||| (hi.setWidth 16 <<< 8)
def addr20 (lo mid bankflags : BitVec 8) : BitVec 32 :=
  lo.setWidth 32 ||| (mid.setWidth 32 <<< 8) ||| ((bankflags &&& 0x0F).setWidth 32 <<< 16)

/-- The revision a job is read in: option `$0A` overrides `$D703`. -/
def isF018b (s : Dma) (job : DmaJob) : Bool :=
  if job.useF018A then false else decide (s.regs 0x03 &&& 0x01 ≠ 0#8)

/-- The fields of the job at `addr`. -/
def readJob (mem : BitVec 28 → BitVec 8) (addr : BitVec 32) (f018b : Bool) (job : DmaJob) : DmaJob :=
  let byte (k : ℕ) : BitVec 8 := read8 mem (addr + BitVec.ofNat 32 k)
  { job with
    commandLsb := byte 0
    count := word16 (byte 1) (byte 2)
    srcAddr := addr20 (byte 3) (byte 4) (byte 5)
    srcFlags := (byte 5 >>> 4) &&& 0x0F
    dstAddr := addr20 (byte 6) (byte 7) (byte 8)
    dstFlags := (byte 8 >>> 4) &&& 0x0F
    commandMsb := if f018b then byte 9 else 0
    modulo := if f018b then word16 (byte 10) (byte 11) else word16 (byte 9) (byte 10) }

/-- The upper address bits of a channel: in a F018B job the bank flags count in. -/
def megabyte (f018b : Bool) (inherit : InheritMB) (flags : BitVec 8) : BitVec 32 :=
  if f018b then (inherit.mb + (flags &&& 0x07)).setWidth 32 <<< 20
  else inherit.mb.setWidth 32 <<< 20

/-- A channel's first address. -/
def baseAddr (f018b : Bool) (inherit : InheritMB) (addr : BitVec 32) (flags : BitVec 8) : BitVec 32 :=
  (addr &&& 0x0FFFFF) ||| megabyte f018b inherit flags

/-- A mode bit: of the command bytes in a F018B job, of the bank byte in a F018A
job. -/
def modeBit (f018b : Bool) (command bit : BitVec 8) (flags flag : BitVec 8) : Bool :=
  if f018b then decide (command &&& bit ≠ 0#8) else decide (flags &&& flag ≠ 0#8)

def DmaJob.srcDir (job : DmaJob) (f018b : Bool) : Bool :=
  modeBit f018b job.commandLsb 0x10 job.srcFlags 0x04
def DmaJob.dstDir (job : DmaJob) (f018b : Bool) : Bool :=
  modeBit f018b job.commandLsb 0x20 job.dstFlags 0x04
def DmaJob.srcHold (job : DmaJob) (f018b : Bool) : Bool :=
  modeBit f018b job.commandMsb 0x02 job.srcFlags 0x01
def DmaJob.dstHold (job : DmaJob) (f018b : Bool) : Bool :=
  modeBit f018b job.commandMsb 0x08 job.dstFlags 0x01
def DmaJob.srcModulo (job : DmaJob) (f018b : Bool) : Bool :=
  modeBit f018b job.commandMsb 0x01 job.srcFlags 0x02
def DmaJob.dstModulo (job : DmaJob) (f018b : Bool) : Bool :=
  modeBit f018b job.commandMsb 0x04 job.dstFlags 0x02

/-- I/O visibility of a channel: bit 7 of its bank byte. -/
def DmaJob.srcIo (job : DmaJob) : Bool := decide (job.srcFlags &&& 0x08 ≠ 0#8)
def DmaJob.dstIo (job : DmaJob) : Bool := decide (job.dstFlags &&& 0x08 ≠ 0#8)

def DmaJob.op (job : DmaJob) : DmaOperation := .decode job.commandLsb

/-- `n ? n : dflt`. -/
def nonzeroOr (n dflt : ℕ) : ℕ := if n ≠ 0 then n else dflt

/-- The bytes of a job outside modulo mode. -/
def DmaJob.length (job : DmaJob) : ℕ := nonzeroOr job.count.toNat 0x10000

def mintermsOf (bits : BitVec 8) : Minterms :=
  let mask (bit : BitVec 8) : BitVec 8 := if bits &&& bit ≠ 0#8 then 0xFF else 0x00
  { m0 := mask 0x10, m1 := mask 0x20, m2 := mask 0x40, m3 := mask 0x80 }

/-- Line mode gives way to modulo addressing on the same channel. -/
def Channel.dropLine (ch : Channel) : Channel :=
  if ch.modulo && ch.line.enabled then { ch with line.slopeType := ch.line.slopeType &&& ~~~0x80 }
  else ch

/-- The execution state of a job that has been read. Modulo addressing, with its
own row and column counters, needs the experimental operations. -/
def beginJob (s : Dma) (job : DmaJob) (f018b : Bool) : Dma :=
  let src : Channel :=
    { base := baseAddr f018b s.inheritSrc job.srcAddr job.srcFlags
      accum := 0
      step := if job.srcSkipRate ≠ 0 then job.srcSkipRate else 0x0100
      dir := job.srcDir f018b, hold := job.srcHold f018b, io := job.srcIo
      modulo := s.experimentalDmaOps && job.srcModulo f018b
      line := s.src.line }
  let dst : Channel :=
    { base := baseAddr f018b s.inheritDst job.dstAddr job.dstFlags
      accum := 0
      step := if job.dstSkipRate ≠ 0 then job.dstSkipRate else 0x0100
      dir := job.dstDir f018b, hold := job.dstHold f018b, io := job.dstIo
      modulo := s.experimentalDmaOps && job.dstModulo f018b
      line := s.dst.line }
  let s :=
    { s with
      hasChain := decide (job.commandLsb &&& 0x04 ≠ 0#8)
      bytesRemaining := job.length
      currentOp := job.op
      src := src
      dst := dst
      fillByte := job.srcAddr.setWidth 8
      minterms :=
        if job.op = DmaOperation.mix then mintermsOf (if f018b then job.commandMsb else job.commandLsb)
        else s.minterms
      moduloActive := s.experimentalDmaOps && (src.modulo || dst.modulo)
      transparency := (s.transparency &&& 0x100) ||| s.transparencyVal.setWidth 16 }
  if s.moduloActive then
    let cols := nonzeroOr (job.count &&& 0xFF).toNat 256
    let rows := nonzeroOr (job.count >>> 8).toNat 256
    { s with
      colLimit := cols, rowLimit := rows, colCounter := 0, rowCounter := 0
      moduloValue := job.modulo, bytesRemaining := cols * rows
      src := s.src.dropLine, dst := s.dst.dropLine }
  else s

/-- The job record before its options and bytes are read. -/
def newJob (s : Dma) : DmaJob :=
  { commandLsb := 0, commandMsb := 0, count := 0, srcAddr := 0, srcFlags := 0, dstAddr := 0
    dstFlags := 0, modulo := 0, srcSkipRate := 0x0100, dstSkipRate := 0x0100
    srcMB := s.inheritSrc.mb, dstMB := s.inheritDst.mb
    srcMBset := s.inheritSrc.isSet, dstMBset := s.inheritDst.isSet, useF018A := false }

/-- `fetchAndBeginNextJob`. The source's branch for a job of no bytes is never
taken, as a count of zero means 65536, so the fetch succeeds. -/
def fetchAndBeginNextJob (mem : BitVec 28 → BitVec 8) (s : Dma) : Dma :=
  let (addr, s, job) :=
    if s.enhancedMode then parseJobOptions mem 128 s.listAddr s (newJob s)
    else (s.listAddr, s, newJob s)
  let s :=
    { s with
      inheritSrc := if job.srcMBset then { mb := job.srcMB, isSet := true } else s.inheritSrc
      inheritDst := if job.dstMBset then { mb := job.dstMB, isSet := true } else s.inheritDst }
  let f018b := isF018b s job
  let s := { s with listAddr := (addr + if f018b then 12 else 11) &&& 0x0FFFFFFF }
  beginJob (syncListAddrToRegs s) (readJob mem addr f018b job) f018b

/-! ## Registers -/

def ioRead (s : Dma) (offset : Fin 16) : BitVec 8 := s.regs offset

/-- The options a new trigger starts from. The source does this in `startDma`
before the first job is fetched, and in the mapped trigger after it. -/
def resetOptions (s : Dma) : Dma :=
  { s with
    transparency := 0x100, transparencyVal := 0
    inheritSrc := .clear, inheritDst := .clear
    src.line := .zero, dst.line := .zero
    spiralMode := .off }

/-- The list address the registers hold, for the low byte of a trigger. -/
def assembleListAddr (s : Dma) (low : BitVec 8) : BitVec 32 :=
  (low.setWidth 32 ||| ((s.regs 0x01).setWidth 32 <<< 8)
    ||| ((s.regs 0x02 &&& 0x7F).setWidth 32 <<< 16)
    ||| ((s.regs 0x04 >>> 3).setWidth 32 <<< 23)) &&& 0x0FFFFFFF

def startDma (mem : BitVec 28 → BitVec 8) (s : Dma) : Dma :=
  let low := if s.enhancedMode then s.regs 0x05 else s.regs 0x00
  let s := resetOptions { s with listAddr := assembleListAddr s low }
  { fetchAndBeginNextJob mem s with active := true }

/-- The mapped trigger with a controller that resolves the 16-bit address. -/
def startMapped (mem : BitVec 28 → BitVec 8) (resolvePhysical : BitVec 16 → BitVec 32)
    (val : BitVec 8) (s : Dma) : Dma :=
  let vaddr := word16 val (s.regs 0x01)
  let s := { s with listAddr := resolvePhysical vaddr &&& 0x0FFFFFFF }
  resetOptions { fetchAndBeginNextJob mem s with active := true }

/-- `ioWrite` of the register at `offset`. -/
def ioWrite (c : Wiring ι) (mem : BitVec 28 → BitVec 8) (s : Dma) (offset : Fin 16)
    (val : BitVec 8) : Dma :=
  let s := setReg s offset val
  match offset.val with
  | 0x00 =>
    let s := setReg { s with enhancedMode := false } 0x04 (s.regs 0x04 &&& 0x07)
    startDma mem (setReg s 0x05 val)
  | 0x02 => setReg s 0x04 ((val &&& 0x70) >>> 4)
  | 0x04 => setReg s 0x02 ((s.regs 0x02 &&& 0x8F) ||| ((val &&& 0x07) <<< 4))
  | 0x05 => startDma mem (setReg { s with enhancedMode := true } 0x00 val)
  | 0x06 =>
    let s := setReg { s with enhancedMode := true } 0x00 val
    match c.mapController with
    | some resolvePhysical => startMapped mem resolvePhysical val s
    | none => startDma mem s
  | _ => s

/-- Save and restore across hypervisor traps. -/
def setListAddr (s : Dma) (addr : BitVec 32) : Dma :=
  syncListAddrToRegs { s with listAddr := addr &&& 0x0FFFFFFF }

/-! ## Running a job -/

def spiralStep (phase : BitVec 8) : BitVec 32 :=
  match phase.toNat with
  | 0 => 1 | 1 => 40 | 2 => -1 | _ => -40

/-- A spiral step: each phase moves one way, and after a full turn the phases grow. -/
def SpiralMode.advance (sp : SpiralMode) : SpiralMode :=
  let sp := { sp with bytesPhaseStep := sp.bytesPhaseStep + 1 }
  if sp.bytesInPhase ≤ sp.bytesPhaseStep then
    let sp := { sp with bytesPhaseStep := 0, phase := (sp.phase + 1) &&& 3 }
    if sp.phase = 0 then { sp with bytesInPhase := sp.bytesInPhase + 1 } else sp
  else sp

/-- A step along the X axis of the card layout. -/
def stepX (accum xCol : BitVec 32) : BitVec 32 :=
  accum + if accum &&& 0x700 = 0x700 then xCol + 0x100 else 0x100

/-- `stepAddress` in line drawing mode. -/
def stepLine (accum : BitVec 32) (lm : LineMode) : BitVec 32 × LineMode :=
  let lm := { lm with slopeAccum := lm.slopeAccum + lm.slope.setWidth 32 }
  let carry := 0x10000#32 ≤ lm.slopeAccum
  let lm' := if carry then { lm with slopeAccum := lm.slopeAccum - 0x10000 } else lm
  if lm.slopeType &&& 0x40 ≠ 0#8 then
    let accum := accum + 0x800
    let accum := if accum &&& 0x3800 = 0x3800 then accum + lm.yCol else accum
    if carry then
      if lm.slopeType &&& 0x20 ≠ 0#8 then
        (accum - if accum &&& 0x700 = 0 then lm.xCol + 0x100 else 0x100, lm')
      else (stepX accum lm.xCol, lm')
    else (accum, lm')
  else
    let accum := stepX accum lm.xCol
    if carry then (if lm.slopeType &&& 0x20 ≠ 0#8 then accum - 0x800 else accum + 0x800, lm')
    else (accum, lm')

/-- `stepAddress` for one channel; spiral mode takes the destination to be the
channel whose accumulator equals that of the destination. -/
def stepAddress (ch : Channel) (dstAccum : BitVec 32) (sp : SpiralMode) : Channel × SpiralMode :=
  if ch.hold then (ch, sp)
  else if ch.line.enabled then
    let (accum, lm) := stepLine ch.accum ch.line
    ({ ch with accum := accum, line := lm }, sp)
  else if sp.enabled && ch.accum = dstAccum then
    ({ ch with accum := ch.accum + spiralStep sp.phase }, sp.advance)
  else if ch.dir then ({ ch with accum := ch.accum - ch.step.setWidth 32 }, sp)
  else ({ ch with accum := ch.accum + ch.step.setWidth 32 }, sp)

/-- The address a channel is at. -/
def Channel.addr (ch : Channel) : BitVec 32 := ch.base + (ch.accum >>> 8)

def mixByte (m : Minterms) (s d : BitVec 8) : BitVec 8 :=
  (s &&& d &&& m.m3) ||| (s &&& ~~~d &&& m.m2) ||| (~~~s &&& d &&& m.m1) ||| (~~~s &&& ~~~d &&& m.m0)

/-- The transfer of one byte. SWAP and MIX abort unless enabled. -/
def transferByte (c : Wiring ι) (s : Dma) (w : World ι) : Bool × World ι :=
  match s.currentOp with
  | .copy =>
    let (byte, w) := dmaRead c w s.src.addr s.src.io
    if byte.setWidth 16 ≠ s.transparency then (true, dmaWrite c w s.dst.addr byte s.dst.io)
    else (true, w)
  | .fill => (true, dmaWrite c w s.dst.addr s.fillByte s.dst.io)
  | .swap =>
    if !s.experimentalDmaOps then (false, w)
    else
      let (a, w) := dmaRead c w s.src.addr s.src.io
      let (b, w) := dmaRead c w s.dst.addr s.dst.io
      let w := dmaWrite c w s.dst.addr a s.dst.io
      (true, dmaWrite c w s.src.addr b s.src.io)
  | .mix =>
    if !s.experimentalDmaOps then (false, w)
    else
      let (a, w) := dmaRead c w s.src.addr s.src.io
      let (b, w) := dmaRead c w s.dst.addr s.dst.io
      (true, dmaWrite c w s.dst.addr (mixByte s.minterms a b) s.dst.io)

/-- Both channels after a byte. -/
def stepChannels (s : Dma) : Dma :=
  let (src, sp) := stepAddress s.src s.dst.accum s.spiralMode
  let (dst, sp) := stepAddress s.dst s.dst.accum sp
  { s with src := src, dst := dst, spiralMode := sp }

/-- The end of a row in modulo mode. -/
def Channel.addModulo (ch : Channel) (moduloValue : BitVec 16) : Channel :=
  if ch.modulo then { ch with accum := ch.accum + (moduloValue.setWidth 32 <<< 8) } else ch

def stepModulo (s : Dma) : Dma :=
  if !s.moduloActive then s
  else if s.colCounter + 1 < s.colLimit then { s with colCounter := s.colCounter + 1 }
  else if s.rowCounter + 1 < s.rowLimit then
    { s with
      colCounter := 0, rowCounter := s.rowCounter + 1
      src := s.src.addModulo s.moduloValue, dst := s.dst.addModulo s.moduloValue }
  else { s with colCounter := 0, rowCounter := s.rowCounter + 1, bytesRemaining := 0 }

/-- After the last byte: the next job of the chain, or the end. -/
def endJob (mem : BitVec 28 → BitVec 8) (s : Dma) : Dma :=
  if s.hasChain then fetchAndBeginNextJob mem s
  else { s with inheritSrc := .clear, inheritDst := .clear, active := false }

def finishByte (mem : BitVec 28 → BitVec 8) (s : Dma) : Dma :=
  let s := { s with bytesRemaining := s.bytesRemaining - 1 }
  if s.bytesRemaining ≠ 0 then s else endJob mem s

def tickOneByte (c : Wiring ι) (s : Dma) (w : World ι) : Dma × World ι :=
  if s.bytesRemaining = 0 then ({ s with active := false }, w)
  else
    let (ok, w) := transferByte c s w
    let s := { s with active := s.active && ok }
    (finishByte w.mem (stepModulo (stepChannels s)), w)

def tick (c : Wiring ι) (x : Dma × World ι) : Dma × World ι :=
  if !x.1.active then x else tickOneByte c x.1 x.2

end Mmemu.Source.F018bDma

/-!
# F018B DMA behind its own I/O registry

Source: src/plugins/devices/f018b_dma/main/f018b_dma.cpp (dmaRead, dmaWrite,
tickOneByte), src/libdevices/main/io_registry.cpp. The registry asks its handlers
in the order of their base addresses, and the controller is one of them: a job
that writes to I/O can write the controller's own registers and so start another
job in the middle of a byte.
-/
namespace Mmemu.Source.F018bDma

variable {ι : Type}

/-- The registry around a controller at `base`: the handlers asked before it and
those asked after it. `m_mapController` as before. -/
structure Board (ι : Type) where
  base : BitVec 32
  ahead : IoRegistry ι
  behind : IoRegistry ι
  mapController : Option (BitVec 16 → BitVec 32)

/-- The wiring the controller's own registers see. -/
def Board.wiring (b : Board ι) : Wiring ι := { ioRegistry := none, mapController := b.mapController }

/-- The register an I/O address names: `offset < 16`. -/
def Board.offset (b : Board ι) (addr : BitVec 32) : Option (Fin 16) :=
  if h : (addr - b.base).toNat < 16 then some ⟨(addr - b.base).toNat, h⟩ else none

/-- Whether an access goes to the registry. -/
def toRegistry (addr : BitVec 32) (ioFlag : Bool) : Bool := ioFlag && decide (addr &&& 0xF000 = 0xD000)

/-- `dmaRead` through the registry. -/
def boardRead (b : Board ι) (s : Dma) (w : World ι) (addr : BitVec 32) (ioFlag : Bool) :
    BitVec 8 × World ι :=
  if toRegistry addr ioFlag then
    match b.ahead.dispatchRead w.io (addr &&& 0xFFFF) with
    | (some val, io) => (val, { w with io := io })
    | (none, io) =>
      match b.offset (addr &&& 0xFFFF) with
      | some k => (ioRead s k, { w with io := io })
      | none =>
        match b.behind.dispatchRead io (addr &&& 0xFFFF) with
        | (some val, io) => (val, { w with io := io })
        | (none, io) => (read8 w.mem addr, { w with io := io })
  else (read8 w.mem addr, w)

/-- `dmaWrite` through the registry, which may write a register of the controller. -/
def boardWrite (b : Board ι) (x : Dma × World ι) (addr : BitVec 32) (val : BitVec 8)
    (ioFlag : Bool) : Dma × World ι :=
  if toRegistry addr ioFlag then
    match b.ahead.dispatchWrite x.2.io (addr &&& 0xFFFF) val with
    | some io => (x.1, { x.2 with io := io })
    | none =>
      match b.offset (addr &&& 0xFFFF) with
      | some k => (ioWrite b.wiring x.2.mem x.1 k val, x.2)
      | none =>
        match b.behind.dispatchWrite x.2.io (addr &&& 0xFFFF) val with
        | some io => (x.1, { x.2 with io := io })
        | none => (x.1, { x.2 with mem := write8 x.2.mem addr val })
  else (x.1, { x.2 with mem := write8 x.2.mem addr val })

/-- The transfer of one byte. The addresses are those before it; what a register
write in its first half changes counts in its second. -/
def boardTransfer (b : Board ι) (s : Dma) (w : World ι) : Dma × World ι :=
  let srcAddr := s.src.addr
  let dstAddr := s.dst.addr
  match s.currentOp with
  | .copy =>
    let (byte, w) := boardRead b s w srcAddr s.src.io
    if byte.setWidth 16 ≠ s.transparency then boardWrite b (s, w) dstAddr byte s.dst.io
    else (s, w)
  | .fill => boardWrite b (s, w) dstAddr s.fillByte s.dst.io
  | .swap =>
    if !s.experimentalDmaOps then ({ s with active := false }, w)
    else
      let (a, w) := boardRead b s w srcAddr s.src.io
      let (d, w) := boardRead b s w dstAddr s.dst.io
      let x := boardWrite b (s, w) dstAddr a s.dst.io
      boardWrite b x srcAddr d x.1.src.io
  | .mix =>
    if !s.experimentalDmaOps then ({ s with active := false }, w)
    else
      let (a, w) := boardRead b s w srcAddr s.src.io
      let (d, w) := boardRead b s w dstAddr s.dst.io
      boardWrite b (s, w) dstAddr (mixByte s.minterms a d) s.dst.io

/-- `tick` of a controller on its board. -/
def boardTick (b : Board ι) (x : Dma × World ι) : Dma × World ι :=
  if !x.1.active then x
  else if x.1.bytesRemaining = 0 then ({ x.1 with active := false }, x.2)
  else
    let (s, w) := boardTransfer b x.1 x.2
    (finishByte w.mem (stepModulo (stepChannels s)), w)

/-! ## What a byte leaves alone -/

/-- Outside the fetches the registers, the list address and the mode stay. -/
structure SameList (s s' : Dma) : Prop where
  regs : s'.regs = s.regs
  listAddr : s'.listAddr = s.listAddr
  enhancedMode : s'.enhancedMode = s.enhancedMode

theorem SameList.refl (s : Dma) : SameList s s := ⟨rfl, rfl, rfl⟩

theorem SameList.trans {s t u : Dma} (h : SameList s t) (k : SameList t u) : SameList s u :=
  ⟨k.regs.trans h.regs, k.listAddr.trans h.listAddr, k.enhancedMode.trans h.enhancedMode⟩

theorem beginJob_sameList (s : Dma) (job : DmaJob) (f018b : Bool) :
    SameList s (beginJob s job f018b) := by
  unfold beginJob
  dsimp only
  split <;> exact ⟨rfl, rfl, rfl⟩

theorem stepChannels_sameList (s : Dma) : SameList s (stepChannels s) := ⟨rfl, rfl, rfl⟩

theorem stepModulo_sameList (s : Dma) : SameList s (stepModulo s) := by
  unfold stepModulo
  split
  · exact .refl s
  · split
    · exact ⟨rfl, rfl, rfl⟩
    · split <;> exact ⟨rfl, rfl, rfl⟩

/-- The last byte of a job that is chained fetches the next one. -/
theorem finishByte_fetches (mem : BitVec 28 → BitVec 8) {s : Dma} (last : s.bytesRemaining - 1 = 0)
    (chain : s.hasChain = true) :
    finishByte mem s =
      fetchAndBeginNextJob mem { s with bytesRemaining := s.bytesRemaining - 1 } := by
  unfold finishByte endJob
  dsimp only
  rw [if_neg (not_not.mpr last), if_pos chain]

/-- Any other byte leaves the list alone. -/
theorem finishByte_between (mem : BitVec 28 → BitVec 8) {s : Dma}
    (h : ¬(s.bytesRemaining - 1 = 0 ∧ s.hasChain = true)) : SameList s (finishByte mem s) := by
  unfold finishByte
  dsimp only
  split
  · exact ⟨rfl, rfl, rfl⟩
  next last =>
    have single : s.hasChain = false := by
      rw [← Bool.not_eq_true]
      exact fun chain => h ⟨not_not.mp last, chain⟩
    unfold endJob
    rw [if_neg (by rw [single]; exact Bool.false_ne_true)]
    exact ⟨rfl, rfl, rfl⟩

end Mmemu.Source.F018bDma

/-!
# F018B DMA: option lists

`parseJobOptions` reads an option list and applies it in one loop. Here the two
are apart: the list that lies in memory, and what each option does to the
controller and to the job record. No option reads the one to write the other.
-/
namespace Mmemu.Source.F018bDma

/-- The options at `addr`, each with its argument (zero for one without). -/
def optionsAt (mem : BitVec 28 → BitVec 8) : ℕ → BitVec 32 → List (BitVec 8 × BitVec 8)
  | 0, _ => []
  | left + 1, addr =>
    let option := read8 mem addr
    if option = 0#8 then []
    else if option &&& 0x80 ≠ 0#8 then
      (option, read8 mem (addr + 1)) :: optionsAt mem left (addr + 1 + 1)
    else (option, 0) :: optionsAt mem left (addr + 1)

/-- Where the job behind the options at `addr` begins. -/
def afterOptions (mem : BitVec 28 → BitVec 8) : ℕ → BitVec 32 → BitVec 32
  | 0, addr => addr
  | left + 1, addr =>
    let option := read8 mem addr
    if option = 0#8 then addr + 1
    else if option &&& 0x80 ≠ 0#8 then afterOptions mem left (addr + 1 + 1)
    else afterOptions mem left (addr + 1)

/-- What an option does to the controller. -/
def stateOption (s : Dma) (o : BitVec 8 × BitVec 8) : Dma :=
  if o.1 &&& 0x80 ≠ 0#8 then (paramOption o.1 o.2 s (newJob s)).1 else (flagOption o.1 s (newJob s)).1

/-- What an option does to the job record. -/
def jobOption (job : DmaJob) (o : BitVec 8 × BitVec 8) : DmaJob :=
  if o.1 &&& 0x80 ≠ 0#8 then (paramOption o.1 o.2 init job).2 else (flagOption o.1 init job).2

theorem paramOption_eq (option arg : BitVec 8) (s s' : Dma) (job job' : DmaJob) :
    paramOption option arg s job =
      ((paramOption option arg s job').1, (paramOption option arg s' job).2) := by
  unfold paramOption
  split <;> try rfl
  split
  · rfl
  · split <;> rfl

theorem flagOption_eq (option : BitVec 8) (s s' : Dma) (job job' : DmaJob) :
    flagOption option s job = ((flagOption option s job').1, (flagOption option s' job).2) := by
  unfold flagOption
  split <;> rfl

theorem parseJobOptions_eq (mem : BitVec 28 → BitVec 8) (left : ℕ) (addr : BitVec 32) (s : Dma)
    (job : DmaJob) :
    parseJobOptions mem left addr s job =
      (afterOptions mem left addr, (optionsAt mem left addr).foldl stateOption s,
        (optionsAt mem left addr).foldl jobOption job) := by
  induction left generalizing addr s job with
  | zero => rfl
  | succ left ih =>
    unfold parseJobOptions optionsAt afterOptions
    by_cases stop : read8 mem addr = 0#8
    · simp [stop]
    · by_cases param : read8 mem addr &&& 0x80 = 0#8
      · have split := flagOption_eq (read8 mem addr) s init job (newJob s)
        simp only [stop, param, if_false, ne_eq, not_true_eq_false]
        rw [split]
        simp only [stateOption, jobOption, param, List.foldl_cons, if_false, ne_eq, not_true_eq_false]
        exact ih _ _ _
      · have split := paramOption_eq (read8 mem addr) (read8 mem (addr + 1)) s init job (newJob s)
        simp only [stop, param, if_false, if_true, ne_eq, not_false_eq_true]
        rw [split]
        simp only [stateOption, jobOption, param, List.foldl_cons, if_true, ne_eq, not_false_eq_true]
        exact ih _ _ _

/-! ## The parts an option writes -/

/-- What options set in the controller. -/
structure Options where
  transparency : BitVec 16
  transparencyVal : BitVec 8
  spiralMode : SpiralMode
  srcLine : LineMode
  dstLine : LineMode

/-- No option in force. -/
def Options.off : Options :=
  { transparency := 0x100, transparencyVal := 0, spiralMode := .off, srcLine := .zero
    dstLine := .zero }

def optionsOf (s : Dma) : Options :=
  { transparency := s.transparency, transparencyVal := s.transparencyVal
    spiralMode := s.spiralMode, srcLine := s.src.line, dstLine := s.dst.line }

def withOptions (s : Dma) (x : Options) : Dma :=
  { s with
    transparency := x.transparency, transparencyVal := x.transparencyVal
    spiralMode := x.spiralMode, src.line := x.srcLine, dst.line := x.dstLine }

/-- An option, as a change of the option settings alone. -/
def Options.step (x : Options) (o : BitVec 8 × BitVec 8) : Options :=
  optionsOf (stateOption (withOptions init x) o)

theorem stateOption_withOptions (s : Dma) (x : Options) (o : BitVec 8 × BitVec 8) :
    stateOption (withOptions s x) o = withOptions s (x.step o) := by
  unfold Options.step stateOption
  split
  · unfold paramOption
    split <;> try rfl
    split
    · rfl
    · split <;> rfl
  · unfold flagOption
    split <;> rfl

theorem foldl_stateOption (s : Dma) (opts : List (BitVec 8 × BitVec 8)) :
    opts.foldl stateOption s = withOptions s (opts.foldl Options.step (optionsOf s)) := by
  have general : ∀ x, opts.foldl stateOption (withOptions s x) =
      withOptions s (opts.foldl Options.step x) := by
    induction opts with
    | nil => exact fun _ => rfl
    | cons o rest ih =>
      intro x
      rw [List.foldl_cons, List.foldl_cons, stateOption_withOptions, ih]
  exact general (optionsOf s)

/-- A megabyte setting after an option list; `$80` sets that of the source, `$81`
that of the destination. -/
def InheritMB.step (key : BitVec 8) (i : InheritMB) (o : BitVec 8 × BitVec 8) : InheritMB :=
  if o.1 = key then { mb := o.2, isSet := true } else i

/-- A job record with the given megabyte settings. -/
def withMB (job : DmaJob) (src dst : InheritMB) : DmaJob :=
  { job with srcMB := src.mb, srcMBset := src.isSet, dstMB := dst.mb, dstMBset := dst.isSet }

theorem newJob_eq (s : Dma) : newJob s = withMB (newJob init) s.inheritSrc s.inheritDst := rfl

theorem jobOption_withMB (job : DmaJob) (src dst : InheritMB) (o : BitVec 8 × BitVec 8) :
    jobOption (withMB job src dst) o =
      withMB (jobOption job o) (src.step 0x80 o) (dst.step 0x81 o) := by
  rcases o with ⟨option, arg⟩
  by_cases srcMB : option = 0x80#8
  · subst srcMB
    simp [jobOption, paramOption, withMB, InheritMB.step]
  · by_cases dstMB : option = 0x81#8
    · subst dstMB
      simp [jobOption, paramOption, withMB, InheritMB.step]
    · have keepSrc : src.step 0x80 (option, arg) = src := if_neg srcMB
      have keepDst : dst.step 0x81 (option, arg) = dst := if_neg dstMB
      rw [keepSrc, keepDst]
      unfold jobOption
      dsimp only
      split
      · unfold paramOption
        split
        · rename_i same
          exact absurd (BitVec.eq_of_toNat_eq same) srcMB
        · rename_i same
          exact absurd (BitVec.eq_of_toNat_eq same) dstMB
        all_goals try rfl
        split
        · rfl
        · split <;> rfl
      · unfold flagOption
        split <;> rfl

theorem foldl_jobOption (job : DmaJob) (src dst : InheritMB) (opts : List (BitVec 8 × BitVec 8)) :
    opts.foldl jobOption (withMB job src dst) =
      withMB (opts.foldl jobOption job) (opts.foldl (InheritMB.step 0x80) src)
        (opts.foldl (InheritMB.step 0x81) dst) := by
  induction opts generalizing job src dst with
  | nil => rfl
  | cons o rest ih =>
    simp only [List.foldl_cons]
    rw [jobOption_withMB, ih]

/-- A setting the options left unset is the one before them. -/
theorem inherit_foldl (key : BitVec 8) (i : InheritMB) (opts : List (BitVec 8 × BitVec 8)) :
    (if (opts.foldl (InheritMB.step key) i).isSet then
      { mb := (opts.foldl (InheritMB.step key) i).mb, isSet := true } else i) =
      opts.foldl (InheritMB.step key) i := by
  have unset : (opts.foldl (InheritMB.step key) i).isSet = false →
      opts.foldl (InheritMB.step key) i = i := by
    induction opts generalizing i with
    | nil => exact fun _ => rfl
    | cons o rest ih =>
      rw [List.foldl_cons]
      intro off
      have rest := ih (i.step key o) off
      rw [rest] at off ⊢
      unfold InheritMB.step at off ⊢
      split
      · rename_i same
        rw [if_pos same] at off
        cases off
      · rfl
  cases set : (opts.foldl (InheritMB.step key) i).isSet with
  | true =>
    rw [if_pos rfl, ← set]
  | false =>
    rw [if_neg Bool.false_ne_true, unset set]

/-! ## The fetch -/

/-- The options of the next job. -/
def nextOptions (s : Dma) (mem : BitVec 28 → BitVec 8) : List (BitVec 8 × BitVec 8) :=
  if s.enhancedMode then optionsAt mem 128 s.listAddr else []

/-- Where the next job lies, behind its options. -/
def nextAddr (s : Dma) (mem : BitVec 28 → BitVec 8) : BitVec 32 :=
  if s.enhancedMode then afterOptions mem 128 s.listAddr else s.listAddr

/-- The job record of a list of options, before megabytes are inherited. -/
def optionJob (opts : List (BitVec 8 × BitVec 8)) : DmaJob := opts.foldl jobOption (newJob init)

/-- The controller with the next job's options in force and the list address past
the job. -/
def readied (s : Dma) (opts : List (BitVec 8 × BitVec 8)) (next : BitVec 32) : Dma :=
  { withOptions s (opts.foldl Options.step (optionsOf s)) with
    inheritSrc := opts.foldl (InheritMB.step 0x80) s.inheritSrc
    inheritDst := opts.foldl (InheritMB.step 0x81) s.inheritDst
    listAddr := next &&& 0x0FFFFFFF }

/-- `fetchAndBeginNextJob` with its option list read first. -/
theorem fetch_eq (s : Dma) (mem : BitVec 28 → BitVec 8) :
    fetchAndBeginNextJob mem s =
      let opts := nextOptions s mem
      let f018b := isF018b s (optionJob opts)
      let job := readJob mem (nextAddr s mem) f018b
        (withMB (optionJob opts) (opts.foldl (InheritMB.step 0x80) s.inheritSrc)
          (opts.foldl (InheritMB.step 0x81) s.inheritDst))
      beginJob (syncListAddrToRegs
        (readied s opts (nextAddr s mem + if f018b then 12 else 11))) job f018b := by
  have parsed : (if s.enhancedMode then parseJobOptions mem 128 s.listAddr s (newJob s)
      else (s.listAddr, s, newJob s)) =
      (nextAddr s mem, (nextOptions s mem).foldl stateOption s,
        (nextOptions s mem).foldl jobOption (newJob s)) := by
    unfold nextAddr nextOptions
    cases s.enhancedMode with
    | false => rfl
    | true => exact parseJobOptions_eq mem 128 s.listAddr s (newJob s)
  have src := inherit_foldl 0x80 s.inheritSrc (nextOptions s mem)
  have dst := inherit_foldl 0x81 s.inheritDst (nextOptions s mem)
  unfold fetchAndBeginNextJob
  rw [parsed, foldl_stateOption, newJob_eq, foldl_jobOption]
  dsimp only [withMB, withOptions]
  rw [src, dst]
  rfl

end Mmemu.Source.F018bDma
