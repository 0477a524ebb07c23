import Mmemu.Source.Cpu45gs02Disasm

/-!
# MOS 45GS02: opcodes and the step

Source: src/plugins/45gs02/main/cpu45gs02.cpp (step). The cases of the switch are a table: what
the case does, where its operand is, the cycles it adds, and its 32-bit form. Every opcode has
a case, so the default that halts is never reached.
-/
namespace Mmemu.Source.Cpu45gs02
open Mmemu.Source.MemoryBus
open Mmemu.Source.Cpu6502 (flag orIf nz carryTo FLAG_C FLAG_Z FLAG_I FLAG_D FLAG_B FLAG_V FLAG_N)

/-! ## Operands -/

inductive Mode where
  | imp | imm | zp | zpx | zpy | abs | absx | absy | indx | indy | stackRel | indz | indzq
  deriving DecidableEq, Repr

/-- Where an instruction's operand is: the accumulator, or Q; an address as the CPU sees it; or
a flat 28-bit one. -/
inductive Operand where
  | reg
  | mem (addr : BitVec 16)
  | flat (addr : BitVec 32)
  deriving DecidableEq, Repr

def Operand.addr : Operand → BitVec 16
  | .reg => 0
  | .mem addr => addr
  | .flat addr => addr.setWidth 16

section Instructions
variable {ω : Type} [MachineBus ω]

def readAt : Operand → Exec ω (BitVec 8)
  | .reg => do return (← get).state.a
  | .mem addr => read8 addr
  | .flat addr => read8_phys addr

def writeAt (o : Operand) (v : BitVec 8) : Exec ω Unit :=
  match o with
  | .reg => regs fun s => { s with a := v }
  | .mem addr => write8 addr v
  | .flat addr => write8_phys addr v

def readQ : Operand → Exec ω (BitVec 32)
  | .reg => do return (← get).state.q
  | .mem addr => read32 addr
  | .flat addr => read32_phys addr

def writeQ (o : Operand) (v : BitVec 32) : Exec ω Unit :=
  match o with
  | .reg => regs fun s => s.setQ v
  | .mem addr => write32 addr v
  | .flat addr => write32_phys addr v

def getAbs : Exec ω (BitVec 16) := do
  let l ← fetch
  let h ← fetch
  addCycles 2
  return h ++ l

/-- A base-page operand with an index added; the base page is not left. -/
def getZp (index : CPU45GS02State → BitVec 8) : Exec ω (BitVec 16) := do
  let z ← fetch
  addCycles 1
  let s := (← get).state
  return s.b ++ (z + index s)

def getIndX : Exec ω (BitVec 16) := do
  let z ← fetch
  let s := (← get).state
  let ptr ← read16 (s.b ++ (z + s.x))
  addCycles 4
  return ptr

def getIndY : Exec ω (BitVec 16) := do
  let z ← fetch
  let ptr ← read16 ((← get).state.b ++ z)
  addCycles 3
  return ptr + (← get).state.y.setWidth 16

def getStackRelIndY : Exec ω (BitVec 16) := do
  let offset ← fetch
  let ptr ← read16 ((← get).state.sp + offset.setWidth 16)
  addCycles 4
  return ptr + (← get).state.y.setWidth 16

/-- The pointer is in the base page as the CPU sees it; 32 bits of it after $EA. -/
def getIndPhys (is32BitInd : Bool) : Exec ω (BitVec 32) := do
  let zpAddr ← getZp fun _ => 0
  if is32BitInd then
    let ptr ← read32 zpAddr
    addCycles 4
    return ptr &&& 0x0FFFFFFF
  else
    let ptr ← read16 zpAddr
    addCycles 2
    return ptr.setWidth 32

/-- A base-page pointer with Z added, or not. -/
def indirect (is32BitInd addZ : Bool) : Exec ω Operand := do
  let base ← getIndPhys is32BitInd
  let z := (← get).state.z
  let addr := base + if addZ then z.setWidth 32 else 0
  return if is32BitInd then .flat addr else .mem (addr.setWidth 16)

/-- Fetch what is behind the opcode. Of the 32-bit operations only LDQ adds Z. -/
def operand (mode : Mode) (isQuad is32BitInd : Bool) : Exec ω Operand := do
  match mode with
  | .imp => return .reg
  | .imm =>
    let pc := (← get).state.pc
    regs fun s => { s with pc := s.pc + 1 }
    return .mem pc
  | .zp => return .mem (← getZp fun _ => 0)
  | .zpx => return .mem (← getZp (·.x))
  | .zpy => return .mem (← getZp (·.y))
  | .abs => return .mem (← getAbs)
  | .absx =>
    let base ← getAbs
    return .mem (base + (← get).state.x.setWidth 16)
  | .absy =>
    let base ← getAbs
    return .mem (base + (← get).state.y.setWidth 16)
  | .indx => return .mem (← getIndX)
  | .indy => return .mem (← getIndY)
  | .stackRel => return .mem (← getStackRelIndY)
  | .indz => indirect is32BitInd !isQuad
  | .indzq => indirect is32BitInd true

/-! ## Kinds of instructions -/

/-- An instruction on the registers alone. -/
def implied (f : CPU45GS02State → CPU45GS02State) : Exec ω Unit := regs f

def loaded (f : CPU45GS02State → BitVec 8 → CPU45GS02State) (o : Operand) : Exec ω Unit := do
  let v ← readAt o
  regs fun s => f s v

def stored (val : CPU45GS02State → BitVec 8) (o : Operand) : Exec ω Unit := do
  writeAt o (val (← get).state)

def popped (f : CPU45GS02State → BitVec 8 → CPU45GS02State) : Exec ω Unit := do
  let v ← pull8
  regs fun s => f s v

/-- INC and DEC. -/
def stepByte (by_ : BitVec 8) (o : Operand) : Exec ω Unit := do
  let v ← readAt o
  writeAt o (v + by_)
  regs fun s => s.updateNZ (v + by_)

/-- A shift or rotation; `f` gives the carry out and the result. -/
def shifted (f : BitVec 8 → BitVec 8 → Bool × BitVec 8) (o : Operand) : Exec ω Unit := do
  let v ← readAt o
  let (carry, r) := f (← get).state.p v
  regs fun s => { s with p := carryTo s.p carry }
  writeAt o r
  regs fun s => s.updateNZ r

/-- TSB and TRB. -/
def testAndWrite (f : BitVec 8 → BitVec 8 → BitVec 8) (o : Operand) : Exec ω Unit := do
  let v ← readAt o
  regs fun s => { s with p := if flag v s.a then s.p &&& ~~~FLAG_Z else s.p ||| FLAG_Z }
  writeAt o (f v (← get).state.a)

/-- The 16-bit operations; `f` gives the new status and the result. -/
def wordOp (f : BitVec 8 → BitVec 16 → BitVec 8 × BitVec 16) (o : Operand) : Exec ω Unit := do
  let v ← read16 o.addr
  let (p, r) := f (← get).state.p v
  regs fun s => { s with p := p }
  write8 o.addr (r.setWidth 8)
  write8 (o.addr + 1) (r.extractLsb' 8 8)
  regs fun s => s.updateNZ16 r

def loadedQ (f : CPU45GS02State → BitVec 32 → CPU45GS02State) (o : Operand) : Exec ω Unit := do
  let v ← readQ o
  regs fun s => f s v

def stepQ (by_ : BitVec 32) (o : Operand) : Exec ω Unit := do
  let q ← readQ o
  writeQ o (q + by_)
  regs fun s => s.updateNZ32 (q + by_)

def shiftedQ (f : BitVec 8 → BitVec 32 → Bool × BitVec 32) (o : Operand) : Exec ω Unit := do
  let q ← readQ o
  let (carry, r) := f (← get).state.p q
  regs fun s => { s with p := carryTo s.p carry }
  writeQ o r
  regs fun s => s.updateNZ32 r

/-! ## Flow control -/

/-- When a relative branch is taken. -/
inductive Condition where
  | always | cc | cs | eq | ne | mi | pl | vc | vs
  deriving DecidableEq, Repr

def Condition.holds (k : Condition) (p : BitVec 8) : Bool :=
  match k with
  | .always => true
  | .cc => !flag p FLAG_C
  | .cs => flag p FLAG_C
  | .eq => flag p FLAG_Z
  | .ne => !flag p FLAG_Z
  | .mi => flag p FLAG_N
  | .pl => !flag p FLAG_N
  | .vc => !flag p FLAG_V
  | .vs => flag p FLAG_V

def jump (pc : BitVec 16) : Exec ω Unit := regs fun s => { s with pc := pc }

def branch (k : Condition) (o : Operand) : Exec ω Unit := do
  let r ← readAt o
  if k.holds (← get).state.p then
    regs fun s => { s with pc := s.pc + r.signExtend 16 }
    addCycles 1

/-- The 16-bit offset counts from the byte behind the first offset byte. -/
def longBranch (k : Condition) : Exec ω Unit := do
  let r ← read16 (← get).state.pc
  regs fun s => { s with pc := s.pc + 1 }
  if k.holds (← get).state.p then
    regs fun s => { s with pc := s.pc + r }
    addCycles 1
  else regs fun s => { s with pc := s.pc + 1 }
  addCycles 2

/-- BBR and BBS: branch when the bit is as asked. -/
def branchOnBit (on : Bool) (bit : ℕ) (o : Operand) : Exec ω Unit := do
  let v ← readAt o
  let r ← fetch
  if v.getLsbD bit == on then regs fun s => { s with pc := s.pc + r.signExtend 16 }

def opBSR : Exec ω Unit := do
  let pc := (← get).state.pc
  let r ← read16 pc
  push16 (pc + 1)
  regs fun s => { s with pc := s.pc + (1 + r) }

def opJSR (o : Operand) : Exec ω Unit := do
  push16 ((← get).state.pc - 1)
  jump o.addr

def opJSRIND (o : Operand) : Exec ω Unit := do
  let t ← read16 o.addr
  push16 ((← get).state.pc - 1)
  jump t

def opJMPIND (o : Operand) : Exec ω Unit := do
  let target ← read16 o.addr
  jump target

/-- PLP and RTI keep B and E. -/
def pulledStatus (s : CPU45GS02State) (pulled : BitVec 8) : CPU45GS02State :=
  { s with p := pulled &&& ~~~(FLAG_B ||| FLAG_E) ||| s.p &&& (FLAG_B ||| FLAG_E) }

def opRTI : Exec ω Unit := do
  popped pulledStatus
  let pc ← pull16
  jump pc

def opRTS : Exec ω Unit := do
  let pc ← pull16
  jump (pc + 1)

def opRTN : Exec ω Unit := do
  let ret ← pull16
  let imm ← fetch
  jump (ret + 1)
  regs fun s => { s with sp := s.sp + imm.setWidth 16 }

/-- Push PC and a status byte, mask interrupts and take a vector. -/
def enter (status mask : BitVec 8 → BitVec 8) (vector : BitVec 16) : Exec ω Unit := do
  push16 (← get).state.pc
  push8 (status (← get).state.p)
  regs fun s => { s with p := mask s.p }
  let pc ← read16 vector
  jump pc

def opBRK : Exec ω Unit := do
  regs fun s => { s with pc := s.pc + 1 }
  enter (fun p => p ||| FLAG_B) (fun p => (p ||| FLAG_I) &&& ~~~FLAG_D) 0xFFFE

def opPHW (o : Operand) : Exec ω Unit := do
  let lo ← read8 o.addr
  let hi ← read8 (o.addr + 1)
  push8 lo
  push8 hi

/-- The operand is the word itself. -/
def opPHWI (o : Operand) : Exec ω Unit := do
  push8 (o.addr.setWidth 8)
  push8 (o.addr.extractLsb' 8 8)

/-- The MAP state that MAP makes of the registers. -/
def CPU45GS02State.mapped (s : CPU45GS02State) (ms : MapState) : MapState :=
  let offset (bank page : BitVec 8) : BitVec 32 :=
    (bank &&& 0x0F).setWidth 32 <<< 16 ||| page.setWidth 32 <<< 8
  let ms :=
    if s.x = 0x0F then { ms with megabyteLow := s.a.setWidth 32 <<< 20 }
    else
      { ms with
        offsets := fun i => if i < 4 then offset s.x s.a else ms.offsets i
        enables := ms.enables &&& 0xF0 ||| s.x >>> 4 &&& 0x0F }
  if s.z = 0x0F then { ms with megabyteHigh := s.y.setWidth 32 <<< 20 }
  else if !s.hypervisor then
    { ms with
      offsets := fun i => if 4 ≤ i then offset s.z s.y else ms.offsets i
      enables := ms.enables &&& 0x0F ||| s.z &&& 0xF0 }
  else ms

/-- MAP defers interrupts until EOM. -/
def opMAP : Exec ω Unit := do
  modify fun c =>
    if c.mapMmu then
      let mapped := c.state.mapped (MachineBus.getMapState c.bus)
      { c with bus := MachineBus.setMapState c.bus mapped }
    else c
  regs fun s => { s with mapInterruptInhibit := true }

def opEOM : Exec ω Unit := regs fun s => { s with mapInterruptInhibit := false }

end Instructions

/-! ## Opcode table -/

inductive Fn where
  | ADC | AND | ASL | ASR | ASW | BIT | BRK | BSR | CLC | CLD | CLE | CLI | CLV | CMP | CPX | CPY
  | CPZ | DEC | DEW | DEX | DEY | DEZ | EOM | EOR | INC | INW | INX | INY | INZ | JMP | JMPIND
  | JSR | JSRIND | LDA | LDX | LDY | LDZ | LSR | MAP | NEG | ORA | PHA | PHP | PHW | PHWI | PHX
  | PHY | PHZ | PLA | PLP | PLX | PLY | PLZ | RMB | ROL | ROR | ROW | RTI | RTN | RTS | SBC | SEC
  | SED | SEE | SEI | SMB | STA | STX | STY | STZ | TAB | TAX | TAY | TAZ | TBA | TRB | TSB | TSX
  | TSY | TXA | TXS | TYA | TYS | TZA
  | branch (k : Condition)
  | longBranch (k : Condition)
  | branchOnBit (on : Bool)
  deriving DecidableEq, Repr

namespace Fn

def BRA : Fn := .branch .always
def BCC : Fn := .branch .cc
def BCS : Fn := .branch .cs
def BEQ : Fn := .branch .eq
def BNE : Fn := .branch .ne
def BMI : Fn := .branch .mi
def BPL : Fn := .branch .pl
def BVC : Fn := .branch .vc
def BVS : Fn := .branch .vs
def LBRA : Fn := .longBranch .always
def LBCC : Fn := .longBranch .cc
def LBCS : Fn := .longBranch .cs
def LBEQ : Fn := .longBranch .eq
def LBNE : Fn := .longBranch .ne
def LBMI : Fn := .longBranch .mi
def LBPL : Fn := .longBranch .pl
def LBVC : Fn := .longBranch .vc
def LBVS : Fn := .longBranch .vs
def BBR : Fn := .branchOnBit false
def BBS : Fn := .branchOnBit true

end Fn

/-- The 32-bit operations. -/
inductive QuadFn where
  | LDQ | STQ | ADCQ | SBCQ | CMPQ | ANDQ | ORAQ | EORQ | ASLQ | LSRQ | ROLQ | RORQ | BITQ | INQ
  | DEQ | ASRQ | NEGQ
  deriving DecidableEq, Repr

structure Opcode where
  fn : Fn
  mode : Mode
  cycles : ℕ
  quad : Option (QuadFn × ℕ)
  deriving DecidableEq, Repr

def opcodes : List Opcode := [
  ⟨.BRK, .imp, 7, none⟩, ⟨.ORA, .indx, 0, none⟩, ⟨.CLE, .imp, 0, none⟩, ⟨.SEE, .imp, 0, none⟩,
  ⟨.TSB, .zp, 1, none⟩, ⟨.ORA, .zp, 1, some (.ORAQ, 4)⟩, ⟨.ASL, .zp, 1, some (.ASLQ, 1)⟩,
  ⟨.RMB, .zp, 0, none⟩, ⟨.PHP, .imp, 0, none⟩, ⟨.ORA, .imm, 1, none⟩,
  ⟨.ASL, .imp, 0, some (.ASLQ, 1)⟩, ⟨.TSY, .imp, 0, none⟩, ⟨.TSB, .abs, 1, none⟩,
  ⟨.ORA, .abs, 1, some (.ORAQ, 4)⟩, ⟨.ASL, .abs, 1, some (.ASLQ, 1)⟩, ⟨.BBR, .zp, 0, none⟩,
  ⟨.BPL, .imm, 0, none⟩, ⟨.ORA, .indy, 0, none⟩, ⟨.ORA, .indz, 1, some (.ORAQ, 4)⟩,
  ⟨.LBPL, .imp, 0, none⟩, ⟨.TRB, .zp, 1, none⟩, ⟨.ORA, .zpx, 1, some (.ORAQ, 4)⟩,
  ⟨.ASL, .zpx, 1, some (.ASLQ, 1)⟩, ⟨.RMB, .zp, 0, none⟩, ⟨.CLC, .imp, 0, none⟩,
  ⟨.ORA, .absy, 1, some (.ORAQ, 4)⟩, ⟨.INC, .imp, 0, some (.INQ, 0)⟩, ⟨.INZ, .imp, 0, none⟩,
  ⟨.TRB, .abs, 1, none⟩, ⟨.ORA, .absx, 1, some (.ORAQ, 4)⟩, ⟨.ASL, .absx, 1, some (.ASLQ, 1)⟩,
  ⟨.BBR, .zp, 0, none⟩, ⟨.JSR, .abs, 1, none⟩, ⟨.AND, .indx, 0, none⟩, ⟨.JSRIND, .abs, 2, none⟩,
  ⟨.JSRIND, .absx, 2, none⟩, ⟨.BIT, .zp, 0, some (.BITQ, 0)⟩, ⟨.AND, .zp, 1, some (.ANDQ, 4)⟩,
  ⟨.ROL, .zp, 1, some (.ROLQ, 1)⟩, ⟨.RMB, .zp, 0, none⟩, ⟨.PLP, .imp, 0, none⟩,
  ⟨.AND, .imm, 1, none⟩, ⟨.ROL, .imp, 0, some (.ROLQ, 1)⟩, ⟨.TYS, .imp, 0, none⟩,
  ⟨.BIT, .abs, 0, some (.BITQ, 0)⟩, ⟨.AND, .abs, 1, some (.ANDQ, 4)⟩,
  ⟨.ROL, .abs, 1, some (.ROLQ, 1)⟩, ⟨.BBR, .zp, 0, none⟩, ⟨.BMI, .imm, 0, none⟩,
  ⟨.AND, .indy, 0, none⟩, ⟨.AND, .indz, 1, some (.ANDQ, 4)⟩, ⟨.LBMI, .imp, 0, none⟩,
  ⟨.BIT, .zpx, 0, none⟩, ⟨.AND, .zpx, 1, some (.ANDQ, 4)⟩, ⟨.ROL, .zpx, 1, some (.ROLQ, 1)⟩,
  ⟨.RMB, .zp, 0, none⟩, ⟨.SEC, .imp, 0, none⟩, ⟨.AND, .absy, 1, some (.ANDQ, 4)⟩,
  ⟨.DEC, .imp, 0, some (.DEQ, 0)⟩, ⟨.DEZ, .imp, 0, none⟩, ⟨.BIT, .absx, 0, none⟩,
  ⟨.AND, .absx, 1, some (.ANDQ, 4)⟩, ⟨.ROL, .absx, 1, some (.ROLQ, 1)⟩, ⟨.BBR, .zp, 0, none⟩,
  ⟨.RTI, .imp, 3, none⟩, ⟨.EOR, .indx, 0, none⟩, ⟨.NEG, .imp, 1, some (.NEGQ, 1)⟩,
  ⟨.ASR, .imp, 0, some (.ASRQ, 0)⟩, ⟨.ASR, .zp, 0, some (.ASRQ, 0)⟩,
  ⟨.EOR, .zp, 1, some (.EORQ, 4)⟩, ⟨.LSR, .zp, 1, some (.LSRQ, 1)⟩, ⟨.RMB, .zp, 0, none⟩,
  ⟨.PHA, .imp, 0, none⟩, ⟨.EOR, .imm, 1, none⟩, ⟨.LSR, .imp, 0, some (.LSRQ, 1)⟩,
  ⟨.TAZ, .imp, 0, none⟩, ⟨.JMP, .abs, 0, none⟩, ⟨.EOR, .abs, 1, some (.EORQ, 4)⟩,
  ⟨.LSR, .abs, 1, some (.LSRQ, 1)⟩, ⟨.BBR, .zp, 0, none⟩, ⟨.BVC, .imm, 0, none⟩,
  ⟨.EOR, .indy, 0, none⟩, ⟨.EOR, .indz, 1, some (.EORQ, 4)⟩, ⟨.LBVC, .imp, 0, none⟩,
  ⟨.ASR, .zpx, 0, some (.ASRQ, 0)⟩, ⟨.EOR, .zpx, 1, some (.EORQ, 4)⟩,
  ⟨.LSR, .zpx, 1, some (.LSRQ, 1)⟩, ⟨.RMB, .zp, 0, none⟩, ⟨.CLI, .imp, 0, none⟩,
  ⟨.EOR, .absy, 1, some (.EORQ, 4)⟩, ⟨.PHY, .imp, 0, none⟩, ⟨.TAB, .imp, 0, none⟩,
  ⟨.MAP, .imp, 1, none⟩, ⟨.EOR, .absx, 1, some (.EORQ, 4)⟩, ⟨.LSR, .absx, 1, some (.LSRQ, 1)⟩,
  ⟨.BBR, .zp, 0, none⟩, ⟨.RTS, .imp, 3, none⟩, ⟨.ADC, .indx, 0, none⟩, ⟨.RTN, .imp, 4, none⟩,
  ⟨.BSR, .imp, 4, none⟩, ⟨.STZ, .zp, 1, none⟩, ⟨.ADC, .zp, 1, some (.ADCQ, 4)⟩,
  ⟨.ROR, .zp, 1, some (.RORQ, 1)⟩, ⟨.RMB, .zp, 0, none⟩, ⟨.PLA, .imp, 0, none⟩,
  ⟨.ADC, .imm, 1, none⟩, ⟨.ROR, .imp, 0, some (.RORQ, 1)⟩, ⟨.TZA, .imp, 0, none⟩,
  ⟨.JMPIND, .abs, 2, none⟩, ⟨.ADC, .abs, 1, some (.ADCQ, 4)⟩, ⟨.ROR, .abs, 1, some (.RORQ, 1)⟩,
  ⟨.BBR, .zp, 0, none⟩, ⟨.BVS, .imm, 0, none⟩, ⟨.ADC, .indy, 0, none⟩,
  ⟨.ADC, .indz, 1, some (.ADCQ, 4)⟩, ⟨.LBVS, .imp, 0, none⟩, ⟨.STZ, .zpx, 1, none⟩,
  ⟨.ADC, .zpx, 1, some (.ADCQ, 4)⟩, ⟨.ROR, .zpx, 1, some (.RORQ, 1)⟩, ⟨.RMB, .zp, 0, none⟩,
  ⟨.SEI, .imp, 0, none⟩, ⟨.ADC, .absy, 1, some (.ADCQ, 4)⟩, ⟨.PLY, .imp, 0, none⟩,
  ⟨.TBA, .imp, 0, none⟩, ⟨.JMPIND, .absx, 2, none⟩, ⟨.ADC, .absx, 1, some (.ADCQ, 4)⟩,
  ⟨.ROR, .absx, 1, some (.RORQ, 1)⟩, ⟨.BBR, .zp, 0, none⟩, ⟨.BRA, .imm, 0, none⟩,
  ⟨.STA, .indx, 0, none⟩, ⟨.STA, .stackRel, 0, none⟩, ⟨.LBRA, .imp, 0, none⟩,
  ⟨.STY, .zp, 1, none⟩, ⟨.STA, .zp, 1, some (.STQ, 4)⟩, ⟨.STX, .zp, 1, none⟩,
  ⟨.SMB, .zp, 0, none⟩, ⟨.DEY, .imp, 0, none⟩, ⟨.BIT, .imm, 1, none⟩, ⟨.TXA, .imp, 0, none⟩,
  ⟨.STY, .absx, 1, none⟩, ⟨.STY, .abs, 1, none⟩, ⟨.STA, .abs, 1, some (.STQ, 4)⟩,
  ⟨.STX, .abs, 1, none⟩, ⟨.BBS, .zp, 0, none⟩, ⟨.BCC, .imm, 0, none⟩, ⟨.STA, .indy, 0, none⟩,
  ⟨.STA, .indz, 1, some (.STQ, 4)⟩, ⟨.LBCC, .imp, 0, none⟩, ⟨.STY, .zpx, 1, none⟩,
  ⟨.STA, .zpx, 1, some (.STQ, 4)⟩, ⟨.STX, .zpy, 1, none⟩, ⟨.SMB, .zp, 0, none⟩,
  ⟨.TYA, .imp, 0, none⟩, ⟨.STA, .absy, 1, none⟩, ⟨.TXS, .imp, 0, none⟩, ⟨.STX, .absy, 1, none⟩,
  ⟨.STZ, .abs, 1, none⟩, ⟨.STA, .absx, 1, none⟩, ⟨.STZ, .absx, 1, none⟩, ⟨.BBS, .zp, 0, none⟩,
  ⟨.LDY, .imm, 1, none⟩, ⟨.LDA, .indx, 0, none⟩, ⟨.LDX, .imm, 1, none⟩, ⟨.LDZ, .imm, 1, none⟩,
  ⟨.LDY, .zp, 1, none⟩, ⟨.LDA, .zp, 1, some (.LDQ, 4)⟩, ⟨.LDX, .zp, 1, none⟩,
  ⟨.SMB, .zp, 0, none⟩, ⟨.TAY, .imp, 0, none⟩, ⟨.LDA, .imm, 1, none⟩, ⟨.TAX, .imp, 0, none⟩,
  ⟨.LDZ, .abs, 1, none⟩, ⟨.LDY, .abs, 1, none⟩, ⟨.LDA, .abs, 1, some (.LDQ, 4)⟩,
  ⟨.LDX, .abs, 1, none⟩, ⟨.BBS, .zp, 0, none⟩, ⟨.BCS, .imm, 0, none⟩, ⟨.LDA, .indy, 0, none⟩,
  ⟨.LDA, .indzq, 1, some (.LDQ, 4)⟩, ⟨.LBCS, .imp, 0, none⟩, ⟨.LDY, .zpx, 1, none⟩,
  ⟨.LDA, .zpx, 1, some (.LDQ, 4)⟩, ⟨.LDX, .zpy, 1, none⟩, ⟨.SMB, .zp, 0, none⟩,
  ⟨.CLV, .imp, 0, none⟩, ⟨.LDA, .absy, 1, none⟩, ⟨.TSX, .imp, 0, none⟩, ⟨.LDZ, .absx, 1, none⟩,
  ⟨.LDY, .absx, 1, none⟩, ⟨.LDA, .absx, 1, none⟩, ⟨.LDX, .absy, 1, none⟩, ⟨.BBS, .zp, 0, none⟩,
  ⟨.CPY, .imm, 1, none⟩, ⟨.CMP, .indx, 0, none⟩, ⟨.CPZ, .imm, 1, none⟩, ⟨.DEW, .zp, 0, none⟩,
  ⟨.CPY, .zp, 1, none⟩, ⟨.CMP, .zp, 1, some (.CMPQ, 4)⟩, ⟨.DEC, .zp, 1, some (.DEQ, 1)⟩,
  ⟨.SMB, .zp, 0, none⟩, ⟨.INY, .imp, 0, none⟩, ⟨.CMP, .imm, 1, none⟩, ⟨.DEX, .imp, 0, none⟩,
  ⟨.ASW, .abs, 0, none⟩, ⟨.CPY, .abs, 1, none⟩, ⟨.CMP, .abs, 1, some (.CMPQ, 4)⟩,
  ⟨.DEC, .abs, 1, some (.DEQ, 1)⟩, ⟨.BBS, .zp, 0, none⟩, ⟨.BNE, .imm, 0, none⟩,
  ⟨.CMP, .indy, 0, none⟩, ⟨.CMP, .indz, 1, some (.CMPQ, 4)⟩, ⟨.LBNE, .imp, 0, none⟩,
  ⟨.CPZ, .zp, 1, none⟩, ⟨.CMP, .zpx, 1, some (.CMPQ, 4)⟩, ⟨.DEC, .zpx, 1, some (.DEQ, 1)⟩,
  ⟨.SMB, .zp, 0, none⟩, ⟨.CLD, .imp, 0, none⟩, ⟨.CMP, .absy, 1, some (.CMPQ, 4)⟩,
  ⟨.PHX, .imp, 0, none⟩, ⟨.PHZ, .imp, 0, none⟩, ⟨.CPZ, .abs, 1, none⟩,
  ⟨.CMP, .absx, 1, some (.CMPQ, 4)⟩, ⟨.DEC, .absx, 1, some (.DEQ, 1)⟩, ⟨.BBS, .zp, 0, none⟩,
  ⟨.CPX, .imm, 1, none⟩, ⟨.SBC, .indx, 0, none⟩, ⟨.LDA, .stackRel, 0, none⟩,
  ⟨.INW, .zp, 0, none⟩, ⟨.CPX, .zp, 1, none⟩, ⟨.SBC, .zp, 1, some (.SBCQ, 4)⟩,
  ⟨.INC, .zp, 1, some (.INQ, 1)⟩, ⟨.SMB, .zp, 0, none⟩, ⟨.INX, .imp, 0, none⟩,
  ⟨.SBC, .imm, 1, none⟩, ⟨.EOM, .imp, 0, none⟩, ⟨.ROW, .abs, 0, none⟩, ⟨.CPX, .abs, 1, none⟩,
  ⟨.SBC, .abs, 1, some (.SBCQ, 4)⟩, ⟨.INC, .abs, 1, some (.INQ, 1)⟩, ⟨.BBS, .zp, 0, none⟩,
  ⟨.BEQ, .imm, 0, none⟩, ⟨.SBC, .indy, 0, none⟩, ⟨.SBC, .indz, 1, some (.SBCQ, 4)⟩,
  ⟨.LBEQ, .imp, 0, none⟩, ⟨.PHWI, .abs, 0, none⟩, ⟨.SBC, .zpx, 1, some (.SBCQ, 4)⟩,
  ⟨.INC, .zpx, 1, some (.INQ, 1)⟩, ⟨.SMB, .zp, 0, none⟩, ⟨.SED, .imp, 0, none⟩,
  ⟨.SBC, .absy, 1, some (.SBCQ, 4)⟩, ⟨.PLX, .imp, 0, none⟩, ⟨.PLZ, .imp, 0, none⟩,
  ⟨.PHW, .abs, 2, none⟩, ⟨.SBC, .absx, 1, some (.SBCQ, 4)⟩, ⟨.INC, .absx, 1, some (.INQ, 1)⟩,
  ⟨.BBS, .zp, 0, none⟩]

def opcode (op : BitVec 8) : Opcode := opcodes.getD op.toNat ⟨.EOM, .imp, 0, none⟩

/-! ## The instructions -/

/-- Put a value in a register and set N and Z from it. -/
def toA (s : CPU45GS02State) (val : BitVec 8) : CPU45GS02State := { s with a := val }.updateNZ val
def toX (s : CPU45GS02State) (val : BitVec 8) : CPU45GS02State := { s with x := val }.updateNZ val
def toY (s : CPU45GS02State) (val : BitVec 8) : CPU45GS02State := { s with y := val }.updateNZ val
def toZ (s : CPU45GS02State) (val : BitVec 8) : CPU45GS02State := { s with z := val }.updateNZ val

section Step
variable {ω : Type} [MachineBus ω]

/-- Run a case of the switch; `op` names the bit of RMB, SMB, BBR and BBS. -/
def call (op : BitVec 8) (fn : Fn) (o : Operand) : Exec ω Unit :=
  match fn with
  | .ADC => loaded (·.doAdc8 ·) o
  | .SBC => loaded (·.doSbc8 ·) o
  | .AND => loaded (fun s v => toA s (s.a &&& v)) o
  | .ORA => loaded (fun s v => toA s (s.a ||| v)) o
  | .EOR => loaded (fun s v => toA s (s.a ^^^ v)) o
  | .CMP => loaded (CPU45GS02State.compare (·.a)) o
  | .CPX => loaded (CPU45GS02State.compare (·.x)) o
  | .CPY => loaded (CPU45GS02State.compare (·.y)) o
  | .CPZ => loaded (CPU45GS02State.compare (·.z)) o
  | .BIT => loaded (fun s v => { s with p := CPU45GS02State.bit s.p s.a v }) o
  | .LDA => loaded toA o
  | .LDX => loaded toX o
  | .LDY => loaded toY o
  | .LDZ => loaded toZ o
  | .STA => stored (·.a) o
  | .STX => stored (·.x) o
  | .STY => stored (·.y) o
  | .STZ => stored (·.z) o
  | .TSB => testAndWrite (fun v a => v ||| a) o
  | .TRB => testAndWrite (fun v a => v &&& ~~~a) o
  | .INC => stepByte 1 o
  | .DEC => stepByte 0xFF o
  | .ASL => shifted (fun _ v => (v.msb, v <<< 1)) o
  | .LSR => shifted (fun _ v => (v.getLsbD 0, v >>> 1)) o
  | .ASR => shifted (fun _ v => (v.getLsbD 0, v &&& 0x80 ||| v >>> 1)) o
  | .ROL => shifted (fun p v => (v.msb, v <<< 1 ||| if flag p FLAG_C then 1 else 0)) o
  | .ROR => shifted (fun p v => (v.getLsbD 0, v >>> 1 ||| if flag p FLAG_C then 0x80 else 0)) o
  | .NEG => implied fun s => toA s (-s.a)
  | .INW => wordOp (fun p v => (p, v + 1)) o
  | .DEW => wordOp (fun p v => (p, v - 1)) o
  | .ASW => wordOp (fun p v => (carryTo p v.msb, v <<< 1)) o
  | .ROW => wordOp (fun p v => (carryTo p v.msb, v <<< 1 ||| if flag p FLAG_C then 1 else 0)) o
  | .RMB => do
    let v ← readAt o
    writeAt o (v &&& ~~~(1#8 <<< (op >>> 4).toNat))
  | .SMB => do
    let v ← readAt o
    writeAt o (v ||| 1#8 <<< ((op - 0x87) >>> 4).toNat)
  | .CLC => implied fun s => { s with p := s.p &&& ~~~FLAG_C }
  | .CLD => implied fun s => { s with p := s.p &&& ~~~FLAG_D }
  | .CLE => implied fun s => { s with p := s.p &&& ~~~FLAG_E }
  | .CLI => implied fun s => { s with p := s.p &&& ~~~FLAG_I }
  | .CLV => implied fun s => { s with p := s.p &&& ~~~FLAG_V }
  | .SEC => implied fun s => { s with p := s.p ||| FLAG_C }
  | .SED => implied fun s => { s with p := s.p ||| FLAG_D }
  | .SEE => implied fun s => { s with p := s.p ||| FLAG_E }
  | .SEI => implied fun s => { s with p := s.p ||| FLAG_I }
  | .INX => implied fun s => toX s (s.x + 1)
  | .INY => implied fun s => toY s (s.y + 1)
  | .INZ => implied fun s => toZ s (s.z + 1)
  | .DEX => implied fun s => toX s (s.x - 1)
  | .DEY => implied fun s => toY s (s.y - 1)
  | .DEZ => implied fun s => toZ s (s.z - 1)
  | .TAX => implied fun s => toX s s.a
  | .TAY => implied fun s => toY s s.a
  | .TAZ => implied fun s => toZ s s.a
  | .TAB => implied fun s => { s with b := s.a }
  | .TXA => implied fun s => toA s s.x
  | .TYA => implied fun s => toA s s.y
  | .TZA => implied fun s => toA s s.z
  | .TBA => implied fun s => toA s s.b
  | .TSX => implied fun s => toX s (s.sp.setWidth 8)
  | .TSY => implied fun s => toY s (s.sp.extractLsb' 8 8)
  | .TXS => implied fun s => { s with sp := s.sp &&& 0xFF00 ||| s.x.setWidth 16 }
  | .TYS => implied fun s => { s with sp := s.sp &&& 0x00FF ||| s.y.setWidth 16 <<< 8 }
  | .PHA => do push8 (← get).state.a
  | .PHX => do push8 (← get).state.x
  | .PHY => do push8 (← get).state.y
  | .PHZ => do push8 (← get).state.z
  | .PHP => do push8 ((← get).state.p ||| (FLAG_B ||| FLAG_E))
  | .PLA => popped toA
  | .PLX => popped toX
  | .PLY => popped toY
  | .PLZ => popped toZ
  | .PLP => popped pulledStatus
  | .PHW => opPHW o
  | .PHWI => opPHWI o
  | .JMP => jump o.addr
  | .JMPIND => opJMPIND o
  | .JSR => opJSR o
  | .JSRIND => opJSRIND o
  | .BSR => opBSR
  | .RTS => opRTS
  | .RTI => opRTI
  | .RTN => opRTN
  | .BRK => opBRK
  | .branch k => branch k o
  | .longBranch k => longBranch k
  | .branchOnBit on => branchOnBit on ((op - if on then 0x8F else 0) >>> 4).toNat o
  | .MAP => opMAP
  | .EOM => opEOM

def callQ (fn : QuadFn) (o : Operand) : Exec ω Unit :=
  match fn with
  | .LDQ => loadedQ (·.toQ ·) o
  | .STQ => do writeQ o (← get).state.q
  | .ADCQ => loadedQ (·.doAdc32 ·) o
  | .SBCQ => loadedQ (·.doSbc32 ·) o
  | .CMPQ => loadedQ (·.doCmp32 ·) o
  | .ANDQ => loadedQ (·.doAnd32 ·) o
  | .ORAQ => loadedQ (·.doOra32 ·) o
  | .EORQ => loadedQ (·.doEor32 ·) o
  | .BITQ => loadedQ (fun s v => { s with p := CPU45GS02State.bit s.p s.q v }) o
  | .INQ => stepQ 1 o
  | .DEQ => stepQ 0xFFFFFFFF o
  | .ASLQ => shiftedQ (fun _ v => (v.msb, v <<< 1)) o
  | .LSRQ => shiftedQ (fun _ v => (v.getLsbD 0, v >>> 1)) o
  | .ASRQ => shiftedQ (fun _ v => (v.getLsbD 0, v &&& 0x80000000 ||| v >>> 1)) o
  | .ROLQ => shiftedQ (fun p v => (v.msb, v <<< 1 ||| if flag p FLAG_C then 1 else 0)) o
  | .RORQ =>
    shiftedQ (fun p v => (v.getLsbD 0, v >>> 1 ||| if flag p FLAG_C then 0x80000000 else 0)) o
  | .NEGQ => implied fun s => s.toQ (-s.q)

/-! ## The prefixes and the instruction -/

/-- The opcode that the prefix loop stops at, and what the prefixes ask for. -/
structure Fetched where
  op : BitVec 8
  isQuad : Bool
  is32BitInd : Bool
  deriving DecidableEq, Repr

/-- Opcodes before which the experimental mode takes $42 $42 as a prefix. -/
def supportsQuad (op : BitVec 8) : Bool :=
  op ∈ [0x85, 0xA9, 0xA5, 0xB5, 0xAD, 0xBD, 0xB9, 0xA1, 0xB1, 0xB2, 0xA2, 0xB6, 0xAE, 0xBE, 0x69,
    0x65, 0x75, 0x6D, 0x7D, 0x79, 0x61, 0x71, 0xE9, 0xE5, 0xF5, 0xED, 0xFD, 0xF9, 0xE1, 0xF1, 0xC9,
    0xC5, 0xD5, 0xCD, 0xDD, 0xD9, 0xC1, 0xD1]

/-- Whether the second $42, at `pc`, completes a prefix. -/
def shouldConsume : Exec ω Bool := do
  let c ← get
  let afterNegNeg := c.state.pc + 1
  let consume ←
    if c.experimentalPrefixMode then do
      let op ← read8 afterNegNeg
      pure (supportsQuad op)
    else pure true
  let op ← read8 afterNegNeg
  return consume && !isQuadImmediateOpcode op

/-- The prefix loop, with the rounds it has left. Where they run out, the last prefix byte is
the opcode. -/
def fetchOpcode : ℕ → Fetched → Exec ω Fetched
  | 0, f => return f
  | rounds + 1, f => do
    let op ← fetch
    addCycles 1
    let f := { f with op := op }
    if op = 0x42 then
      let next ← read8 (← get).state.pc
      if next = 0x42 then
        let consume ← shouldConsume
        if consume then
          -- both NEGs leave A as it was, and set N and Z from it
          regs fun s => { s with pc := s.pc + 1 }.updateNZ s.a
          addCycles 1
          fetchOpcode rounds { f with isQuad := true }
        else return f
      else return f
    else if op = 0xEA then
      let next ← read8 (← get).state.pc
      if is32BitIndOpcode next then fetchOpcode rounds { f with is32BitInd := true }
      else return f
    else return f

/-- The 32-bit operation of a fetched opcode. -/
def Fetched.quad (f : Fetched) : Option (QuadFn × ℕ) :=
  if f.isQuad then (opcode f.op).quad else none

def perform (f : Fetched) (o : Operand) : Exec ω Unit :=
  match f.quad with
  | some (fn, cycles) => do
    callQ fn o
    addCycles cycles
  | none => do
    call f.op (opcode f.op).fn o
    addCycles (opcode f.op).cycles

/-- Fetch, decode and execute the instruction at PC. -/
def execute : Exec ω Unit := do
  let f ← fetchOpcode MAX_PREFIXES ⟨0, false, false⟩
  let o ← operand (opcode f.op).mode f.isQuad f.is32BitInd
  perform f o

/-! ## The step -/

/-- The callbacks of an execution observer; they see the core and change the world only. -/
structure ExecutionObserver (ω : Type) where
  needsDisasm : Bool
  onStep : CPU45GS02State → DisasmEntry → ω → Bool × ω
  onStepLite : CPU45GS02State → BitVec 32 → ω → ω

/-- What decides whether the core takes an NMI. -/
structure NmiState where
  line : Bool
  prev : Bool
  inhibit : Bool
  deriving DecidableEq, Repr

def CPU45GS02State.nmi (s : CPU45GS02State) : NmiState :=
  ⟨s.nmiLine, s.nmiPrev, s.mapInterruptInhibit⟩

/-- Configured intercepts, which run instead of the instruction at an address. They set the
registers as a routine would. -/
structure PcInterceptHook (ω : Type) where
  armed : BitVec 16 → Bool
  fire : MOS45GS02 ω → Bool × MOS45GS02 ω
  nmi_fire : ∀ c, (fire c).2.state.nmi = c.state.nmi

/-- What is attached to a core besides its bus. -/
structure Wiring (ω : Type) where
  observer : Option (ExecutionObserver ω)
  pcHook : Option (PcInterceptHook ω)
  hooks : HypervisorHooks ω

/-- Show the instruction at PC to the observer; false stops it before it is fetched. -/
def observe (w : Wiring ω) : Exec ω Bool := fun c =>
  match w.observer with
  | none => (true, c)
  | some obs =>
    if obs.needsDisasm then
      let (cont, bus) := obs.onStep c.state (decodeEntry c.bus (c.state.pc.setWidth 32)) c.bus
      (cont, { c with bus := bus })
    else (true, { c with bus := obs.onStepLite c.state (c.state.pc.setWidth 32) c.bus })

/-- An armed intercept that serves the routine at PC. -/
def intercept (w : Wiring ω) : Exec ω Bool := fun c =>
  match w.pcHook with
  | some hook => if hook.armed c.state.pc then hook.fire c else (false, c)
  | none => (false, c)

/-- The status byte of an interrupt. -/
def interruptStatus (p : BitVec 8) : BitVec 8 := p &&& ~~~FLAG_B ||| FLAG_E

def interrupt (vector : BitVec 16) : Exec ω ℕ := do
  enter interruptStatus (fun p => p ||| FLAG_I) vector
  addCycles 7
  return 7

/-- An NMI edge that the core takes now. -/
def CPU45GS02State.nmiTaken (s : CPU45GS02State) : Bool :=
  s.nmiLine && !s.nmiPrev && !s.mapInterruptInhibit

def CPU45GS02State.irqTaken (s : CPU45GS02State) : Bool :=
  s.irqLine && !flag s.p FLAG_I && !s.mapInterruptInhibit

def step (w : Wiring ω) : Exec ω ℕ := do
  if MachineBus.isHaltRequested (← get).bus then
    regs fun s => { s with haltLine := true }
    return 1
  else
    regs fun s => { s with haltLine := false }
    if (← get).state.nmiTaken then
      regs fun s => { s with nmiPrev := true }
      interrupt 0xFFFA
    else
      regs fun s => { s with nmiPrev := s.nmiLine }
      if (← get).state.irqTaken then interrupt 0xFFFE
      else
        let served ← intercept w
        if served then
          addCycles 6
          return 6
        else
          let before := (← get).state.cycles
          let cont ← observe w
          if cont then
            execute
            return ((← get).state.cycles - before).toNat
          else return 1

/-- What a machine does with its core. -/
inductive Event where
  | step
  | reset
  | triggerIrq
  | triggerNmi
  | setIrqLine (asserted : Bool)
  | setNmiLine (asserted : Bool)
  | setHaltLine (asserted : Bool)
  | enterHypervisor (trapAddr : BitVec 16)
  | exitHypervisor
  deriving DecidableEq, Repr

def apply (w : Wiring ω) (c : MOS45GS02 ω) : Event → MOS45GS02 ω
  | .step => (step w c).2
  | .reset => (reset w.hooks c).2
  | .triggerIrq => (triggerIrq c).2
  | .triggerNmi => (triggerNmi c).2
  | .setIrqLine asserted => (setIrqLine asserted c).2
  | .setNmiLine asserted => (setNmiLine asserted c).2
  | .setHaltLine asserted => (setHaltLine asserted c).2
  | .enterHypervisor trapAddr => (enterHypervisor w.hooks trapAddr c).2
  | .exitHypervisor => (exitHypervisor w.hooks c).2

end Step
end Mmemu.Source.Cpu45gs02
