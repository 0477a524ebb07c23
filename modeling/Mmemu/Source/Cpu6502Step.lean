import Mmemu.Source.Cpu6502

/-!
# MOS 6502 and WDC 65C02: opcodes and the step

Source: src/plugins/6502/main/cpu6502.cpp, cpu6502_cmos.cpp and
src/libdebug/main/execution_observer.h. The two opcode tables are the source's; a function
pointer in them is a constructor of `OpcodeFn`.
-/
namespace Mmemu.Source.Cpu6502
open Mmemu.Source.MemoryBus

section Instructions
variable {ω : Type} [IBus ω]

def opADC (addr : BitVec 16) : Exec ω ℕ := do
  let m ← read addr
  let c ← get
  if c.cmos && flag c.state.p FLAG_D then
    regs fun s => adcDecimalCmos s m
    return 1
  else
    regs fun s => if flag s.p FLAG_D then addDecimal s m else addBinary s m
    return 0

def opSBC (addr : BitVec 16) : Exec ω ℕ := do
  let m ← read addr
  let c ← get
  if c.cmos && flag c.state.p FLAG_D then
    regs fun s => sbcDecimalCmos s m
    return 1
  else
    regs fun s => subtract s m
    return 0

/-- Put a value in A and set N and Z from it. -/
def toA (s : CPU6502State) (val : BitVec 8) : CPU6502State := { s with a := val }.updateNZ val

def toX (s : CPU6502State) (val : BitVec 8) : CPU6502State := { s with x := val }.updateNZ val

def toY (s : CPU6502State) (val : BitVec 8) : CPU6502State := { s with y := val }.updateNZ val

def opAND : BitVec 16 → Exec ω ℕ := loaded fun s m => toA s (s.a &&& m)
def opEOR : BitVec 16 → Exec ω ℕ := loaded fun s m => toA s (s.a ^^^ m)
def opORA : BitVec 16 → Exec ω ℕ := loaded fun s m => toA s (s.a ||| m)
def opLDA : BitVec 16 → Exec ω ℕ := loaded toA
def opLDX : BitVec 16 → Exec ω ℕ := loaded toX
def opLDY : BitVec 16 → Exec ω ℕ := loaded toY
def opCMP : BitVec 16 → Exec ω ℕ := loaded (compare (·.a))
def opCPX : BitVec 16 → Exec ω ℕ := loaded (compare (·.x))
def opCPY : BitVec 16 → Exec ω ℕ := loaded (compare (·.y))

def opBIT : BitVec 16 → Exec ω ℕ := loaded fun s m =>
  let p := s.p &&& ~~~(FLAG_Z ||| FLAG_V ||| FLAG_N)
  let p := orIf p FLAG_Z (s.a &&& m == 0)
  let p := orIf p FLAG_V (flag m 0x40)
  { s with p := orIf p FLAG_N (flag m 0x80) }

def opBITI : BitVec 16 → Exec ω ℕ := loaded fun s m =>
  { s with p := if flag s.a m then s.p &&& ~~~FLAG_Z else s.p ||| FLAG_Z }

def opASL : BitVec 16 → Exec ω ℕ := shifted fun _ m => (flag m 0x80, m <<< 1)
def opLSR : BitVec 16 → Exec ω ℕ := shifted fun _ m => (flag m 0x01, m >>> 1)
def opROL : BitVec 16 → Exec ω ℕ := shifted fun p m =>
  (flag m 0x80, m <<< 1 ||| if flag p FLAG_C then 1 else 0)
def opROR : BitVec 16 → Exec ω ℕ := shifted fun p m =>
  (flag m 0x01, m >>> 1 ||| if flag p FLAG_C then 0x80 else 0)
def opINC : BitVec 16 → Exec ω ℕ := stepByte 1
def opDEC : BitVec 16 → Exec ω ℕ := stepByte 0xFF

def opBCC : BitVec 16 → Exec ω ℕ := branch fun s => !flag s.p FLAG_C
def opBCS : BitVec 16 → Exec ω ℕ := branch fun s => flag s.p FLAG_C
def opBNE : BitVec 16 → Exec ω ℕ := branch fun s => !flag s.p FLAG_Z
def opBEQ : BitVec 16 → Exec ω ℕ := branch fun s => flag s.p FLAG_Z
def opBPL : BitVec 16 → Exec ω ℕ := branch fun s => !flag s.p FLAG_N
def opBMI : BitVec 16 → Exec ω ℕ := branch fun s => flag s.p FLAG_N
def opBVC : BitVec 16 → Exec ω ℕ := branch fun s => !flag s.p FLAG_V
def opBVS : BitVec 16 → Exec ω ℕ := branch fun s => flag s.p FLAG_V

def opCLC : BitVec 16 → Exec ω ℕ := implied fun s => { s with p := s.p &&& ~~~FLAG_C }
def opCLD : BitVec 16 → Exec ω ℕ := implied fun s => { s with p := s.p &&& ~~~FLAG_D }
def opCLI : BitVec 16 → Exec ω ℕ := implied fun s => { s with p := s.p &&& ~~~FLAG_I }
def opCLV : BitVec 16 → Exec ω ℕ := implied fun s => { s with p := s.p &&& ~~~FLAG_V }
def opSEC : BitVec 16 → Exec ω ℕ := implied fun s => { s with p := s.p ||| FLAG_C }
def opSED : BitVec 16 → Exec ω ℕ := implied fun s => { s with p := s.p ||| FLAG_D }
def opSEI : BitVec 16 → Exec ω ℕ := implied fun s => { s with p := s.p ||| FLAG_I }
def opDEX : BitVec 16 → Exec ω ℕ := implied fun s => toX s (s.x - 1)
def opDEY : BitVec 16 → Exec ω ℕ := implied fun s => toY s (s.y - 1)
def opINX : BitVec 16 → Exec ω ℕ := implied fun s => toX s (s.x + 1)
def opINY : BitVec 16 → Exec ω ℕ := implied fun s => toY s (s.y + 1)
def opTAX : BitVec 16 → Exec ω ℕ := implied fun s => toX s s.a
def opTAY : BitVec 16 → Exec ω ℕ := implied fun s => toY s s.a
def opTSX : BitVec 16 → Exec ω ℕ := implied fun s => toX s s.sp
def opTXA : BitVec 16 → Exec ω ℕ := implied fun s => toA s s.x
def opTXS : BitVec 16 → Exec ω ℕ := implied fun s => { s with sp := s.x }
def opTYA : BitVec 16 → Exec ω ℕ := implied fun s => toA s s.y
def opNOP : BitVec 16 → Exec ω ℕ := implied id
def opKIL : BitVec 16 → Exec ω ℕ := implied id
def opINCA : BitVec 16 → Exec ω ℕ := implied fun s => toA s (s.a + 1)
def opDECA : BitVec 16 → Exec ω ℕ := implied fun s => toA s (s.a - 1)
def opWAI : BitVec 16 → Exec ω ℕ := implied fun s => { s with waiting := true }
def opSTP : BitVec 16 → Exec ω ℕ := implied fun s => { s with stopped := true }

def opJMP (addr : BitVec 16) : Exec ω ℕ := implied (fun s => { s with pc := addr }) addr

def opJSR (addr : BitVec 16) : Exec ω ℕ := do
  let ret := (← get).state.pc - 1
  push (ret.extractLsb' 8 8)
  push (ret.setWidth 8)
  regs fun s => { s with pc := addr }
  return 0

/-- A taken BRA counts its cycle in the table; only a page crossing is extra. -/
def opBRA (addr : BitVec 16) : Exec ω ℕ := do
  let old := (← get).state.pc
  regs fun s => { s with pc := addr }
  return if old &&& 0xFF00 != addr &&& 0xFF00 then 1 else 0

/-- The zero-page bit that BBR, BBS, RMB and SMB name. -/
def opBit (op : BitVec 8) : BitVec 8 := 1#8 <<< ((op >>> 4) &&& 7)

/-- BBR and BBS: branch when the bit is as asked. -/
def branchOnBit (on : Bool) (addr : BitVec 16) : Exec ω ℕ := do
  let m ← read addr
  let c ← get
  if flag m (opBit c.curOp) == on then
    regs fun s => { s with pc := c.branchTarget }
    return if c.state.pc &&& 0xFF00 != c.branchTarget &&& 0xFF00 then 2 else 1
  else return 0

def opBBR : BitVec 16 → Exec ω ℕ := branchOnBit false
def opBBS : BitVec 16 → Exec ω ℕ := branchOnBit true

def opRMB (addr : BitVec 16) : Exec ω ℕ := do
  let m ← read addr
  write addr (m &&& ~~~opBit (← get).curOp)
  return 0

def opSMB (addr : BitVec 16) : Exec ω ℕ := do
  let m ← read addr
  write addr (m ||| opBit (← get).curOp)
  return 0

/-- TSB and TRB: Z from the bits A and the byte share. -/
def testAndWrite (f : BitVec 8 → BitVec 8 → BitVec 8) (addr : BitVec 16) : Exec ω ℕ := do
  let m ← read addr
  regs fun s => { s with p := if flag m s.a then s.p &&& ~~~FLAG_Z else s.p ||| FLAG_Z }
  write addr (f m (← get).state.a)
  return 0

def opTSB : BitVec 16 → Exec ω ℕ := testAndWrite fun m a => m ||| a
def opTRB : BitVec 16 → Exec ω ℕ := testAndWrite fun m a => m &&& ~~~a

def opPHA : BitVec 16 → Exec ω ℕ := pushed (·.a)
def opPHX : BitVec 16 → Exec ω ℕ := pushed (·.x)
def opPHY : BitVec 16 → Exec ω ℕ := pushed (·.y)
def opPHP : BitVec 16 → Exec ω ℕ := pushed fun s => s.p ||| FLAG_B
def opPLA : BitVec 16 → Exec ω ℕ := popped toA
def opPLX : BitVec 16 → Exec ω ℕ := popped toX
def opPLY : BitVec 16 → Exec ω ℕ := popped toY
def opPLP : BitVec 16 → Exec ω ℕ := popped fun s val => { s with p := val &&& ~~~FLAG_B ||| FLAG_U }

def opRTI (_addr : BitVec 16) : Exec ω ℕ := do
  let p ← pop
  regs fun s => { s with p := p &&& ~~~FLAG_B ||| FLAG_U }
  let lo ← pop
  let hi ← pop
  regs fun s => { s with pc := hi ++ lo }
  return 0

def opRTS (_addr : BitVec 16) : Exec ω ℕ := do
  let lo ← pop
  let hi ← pop
  regs fun s => { s with pc := hi ++ lo + 1 }
  return 0

def opSTA : BitVec 16 → Exec ω ℕ := stored (·.a)
def opSTX : BitVec 16 → Exec ω ℕ := stored (·.x)
def opSTY : BitVec 16 → Exec ω ℕ := stored (·.y)
def opSTZ : BitVec 16 → Exec ω ℕ := stored fun _ => 0
def opSAX : BitVec 16 → Exec ω ℕ := stored fun s => s.a &&& s.x

/-- The undocumented combinations run one instruction after the other. -/
def both (first second : BitVec 16 → Exec ω ℕ) (addr : BitVec 16) : Exec ω ℕ := do
  let _ ← first addr
  second addr

def opSLO : BitVec 16 → Exec ω ℕ := both opASL opORA
def opRLA : BitVec 16 → Exec ω ℕ := both opROL opAND
def opSRE : BitVec 16 → Exec ω ℕ := both opLSR opEOR
def opRRA : BitVec 16 → Exec ω ℕ := both opROR opADC

/-- DCP and ISC: step the byte without its flags, then use it. -/
def stepThen (by_ : BitVec 8) (next : BitVec 16 → Exec ω ℕ) (addr : BitVec 16) : Exec ω ℕ := do
  let m ← read addr
  write addr (m + by_)
  next addr

def opDCP : BitVec 16 → Exec ω ℕ := stepThen 0xFF opCMP
def opISC : BitVec 16 → Exec ω ℕ := stepThen 1 opSBC

def opLAX : BitVec 16 → Exec ω ℕ := loaded fun s m => { toA s m with x := m }

def opANC : BitVec 16 → Exec ω ℕ := loaded fun s m =>
  let s := toA s (s.a &&& m)
  { s with p := if flag s.p FLAG_N then s.p ||| FLAG_C else s.p &&& ~~~FLAG_C }

def opALR (addr : BitVec 16) : Exec ω ℕ := do
  let m ← read addr
  regs fun s => { s with a := s.a &&& m }
  opLSR 0xFFFF

def opARR : BitVec 16 → Exec ω ℕ := loaded andRotate

def opXAA : BitVec 16 → Exec ω ℕ := loaded fun s m => toA s ((s.a ||| 0xEE) &&& s.x &&& m)

def opLXA : BitVec 16 → Exec ω ℕ := loaded fun s m =>
  let val := (s.a ||| 0xEE) &&& m
  { toA s val with x := val }

def opAXS : BitVec 16 → Exec ω ℕ := loaded fun s m =>
  { compare (fun s => s.a &&& s.x) s m with x := (s.a &&& s.x) - m }

def opLAS : BitVec 16 → Exec ω ℕ := loaded fun s m =>
  let val := s.sp &&& m
  { toA s val with x := val, sp := val }

/-- Store a value ANDed with the high byte of the base address plus one, which also becomes
the high byte of the address when the index crosses a page. -/
def storeAndHigh (addr : BitVec 16) (index value : BitVec 8) : Exec ω ℕ := do
  let base := addr - index.setWidth 16
  let v := value &&& (base.extractLsb' 8 8 + 1)
  let addr := if (base ^^^ addr) &&& 0xFF00 != 0 then v ++ addr.setWidth 8 else addr
  write addr v
  return 0

def opAHX (addr : BitVec 16) : Exec ω ℕ := do
  let s := (← get).state
  storeAndHigh addr s.y (s.a &&& s.x)

def opTAS (addr : BitVec 16) : Exec ω ℕ := do
  regs fun s => { s with sp := s.a &&& s.x }
  let s := (← get).state
  storeAndHigh addr s.y s.sp

def opSHY (addr : BitVec 16) : Exec ω ℕ := do
  let s := (← get).state
  storeAndHigh addr s.x s.y

def opSHX (addr : BitVec 16) : Exec ω ℕ := do
  let s := (← get).state
  storeAndHigh addr s.y s.x

/-- The 65C02's VPB pin, where a machine listens to it. -/
def vectorPull (hook : Option (ω → ω)) : Exec ω Unit :=
  modify fun c => match hook with
    | some pull => { c with bus := pull c.bus }
    | none => c

/-- Push PC and a status byte, mask interrupts and take the vector: the part that BRK, IRQ
and NMI share. -/
def enter (hook : Option (ω → ω)) (status : BitVec 8 → BitVec 8) (vector : BitVec 16) :
    Exec ω Unit := do
  let pc := (← get).state.pc
  push (pc.extractLsb' 8 8)
  push (pc.setWidth 8)
  push (status (← get).state.p)
  let c ← get
  regs fun s =>
    { s with p := if c.cmos then (s.p ||| FLAG_I) &&& ~~~FLAG_D else s.p ||| FLAG_I }
  vectorPull hook
  let lo ← read vector
  let hi ← read (vector + 1)
  regs fun s => { s with pc := hi ++ lo }

def opBRK (hook : Option (ω → ω)) (_addr : BitVec 16) : Exec ω ℕ := do
  regs fun s => { s with pc := s.pc + 1 }
  enter hook (fun p => p ||| FLAG_B ||| FLAG_U) 0xFFFE
  return 0

end Instructions

/-! ## Opcode tables -/

inductive Mode where
  | imp | acc | imm | bp | bpx | bpy | abs | absx | absy | ind | bpxind | indbpy | rel
  | bpind | absxind | bprel
  deriving DecidableEq, Repr

inductive OpcodeFn where
  | ADC | AHX | ALR | ANC | AND | ARR | ASL | AXS | BBR | BBS | BCC | BCS | BEQ | BIT | BITI
  | BMI | BNE | BPL | BRA | BRK | BVC | BVS | CLC | CLD | CLI | CLV | CMP | CPX | CPY | DCP | DEC
  | DECA | DEX | DEY | EOR | INC | INCA | INX | INY | ISC | JMP | JSR | KIL | LAS | LAX | LDA
  | LDX | LDY | LSR | LXA | NOP | ORA | PHA | PHP | PHX | PHY | PLA | PLP | PLX | PLY | RLA | RMB
  | ROL | ROR | RRA | RTI | RTS | SAX | SBC | SEC | SED | SEI | SHX | SHY | SLO | SMB | SRE | STA
  | STP | STX | STY | STZ | TAS | TAX | TAY | TRB | TSB | TSX | TXA | TXS | TYA | WAI | XAA
  deriving DecidableEq, Repr

structure Opcode where
  mnemonic : String
  fn : OpcodeFn
  mode : Mode
  cycles : ℕ
  penalty : Bool
  deriving DecidableEq, Repr

def s_opcodes : List Opcode := [
  ⟨"BRK", .BRK, .imp, 7, false⟩, ⟨"ORA", .ORA, .bpxind, 6, false⟩, ⟨"KIL", .KIL, .imp, 2, false⟩,
  ⟨"SLO", .SLO, .bpxind, 8, false⟩, ⟨"NOP", .NOP, .bp, 3, false⟩, ⟨"ORA", .ORA, .bp, 3, false⟩,
  ⟨"ASL", .ASL, .bp, 5, false⟩, ⟨"SLO", .SLO, .bp, 5, false⟩, ⟨"PHP", .PHP, .imp, 3, false⟩,
  ⟨"ORA", .ORA, .imm, 2, false⟩, ⟨"ASL", .ASL, .acc, 2, false⟩, ⟨"ANC", .ANC, .imm, 2, false⟩,
  ⟨"NOP", .NOP, .abs, 4, false⟩, ⟨"ORA", .ORA, .abs, 4, false⟩, ⟨"ASL", .ASL, .abs, 6, false⟩,
  ⟨"SLO", .SLO, .abs, 6, false⟩, ⟨"BPL", .BPL, .rel, 2, false⟩, ⟨"ORA", .ORA, .indbpy, 5, false⟩,
  ⟨"KIL", .KIL, .imp, 2, false⟩, ⟨"SLO", .SLO, .indbpy, 8, false⟩, ⟨"NOP", .NOP, .bpx, 4, false⟩,
  ⟨"ORA", .ORA, .bpx, 4, false⟩, ⟨"ASL", .ASL, .bpx, 6, false⟩, ⟨"SLO", .SLO, .bpx, 6, false⟩,
  ⟨"CLC", .CLC, .imp, 2, false⟩, ⟨"ORA", .ORA, .absy, 4, false⟩, ⟨"NOP", .NOP, .imp, 2, false⟩,
  ⟨"SLO", .SLO, .absy, 7, false⟩, ⟨"NOP", .NOP, .absx, 4, false⟩, ⟨"ORA", .ORA, .absx, 4, false⟩,
  ⟨"ASL", .ASL, .absx, 7, false⟩, ⟨"SLO", .SLO, .absx, 7, false⟩, ⟨"JSR", .JSR, .abs, 6, false⟩,
  ⟨"AND", .AND, .bpxind, 6, false⟩, ⟨"KIL", .KIL, .imp, 2, false⟩,
  ⟨"RLA", .RLA, .bpxind, 8, false⟩, ⟨"BIT", .BIT, .bp, 3, false⟩, ⟨"AND", .AND, .bp, 3, false⟩,
  ⟨"ROL", .ROL, .bp, 5, false⟩, ⟨"RLA", .RLA, .bp, 5, false⟩, ⟨"PLP", .PLP, .imp, 4, false⟩,
  ⟨"AND", .AND, .imm, 2, false⟩, ⟨"ROL", .ROL, .acc, 2, false⟩, ⟨"ANC", .ANC, .imm, 2, false⟩,
  ⟨"BIT", .BIT, .abs, 4, false⟩, ⟨"AND", .AND, .abs, 4, false⟩, ⟨"ROL", .ROL, .abs, 6, false⟩,
  ⟨"RLA", .RLA, .abs, 6, false⟩, ⟨"BMI", .BMI, .rel, 2, false⟩, ⟨"AND", .AND, .indbpy, 5, false⟩,
  ⟨"KIL", .KIL, .imp, 2, false⟩, ⟨"RLA", .RLA, .indbpy, 8, false⟩, ⟨"NOP", .NOP, .bpx, 4, false⟩,
  ⟨"AND", .AND, .bpx, 4, false⟩, ⟨"ROL", .ROL, .bpx, 6, false⟩, ⟨"RLA", .RLA, .bpx, 6, false⟩,
  ⟨"SEC", .SEC, .imp, 2, false⟩, ⟨"AND", .AND, .absy, 4, false⟩, ⟨"NOP", .NOP, .imp, 2, false⟩,
  ⟨"RLA", .RLA, .absy, 7, false⟩, ⟨"NOP", .NOP, .absx, 4, false⟩, ⟨"AND", .AND, .absx, 4, false⟩,
  ⟨"ROL", .ROL, .absx, 7, false⟩, ⟨"RLA", .RLA, .absx, 7, false⟩, ⟨"RTI", .RTI, .imp, 6, false⟩,
  ⟨"EOR", .EOR, .bpxind, 6, false⟩, ⟨"KIL", .KIL, .imp, 2, false⟩,
  ⟨"SRE", .SRE, .bpxind, 8, false⟩, ⟨"NOP", .NOP, .bp, 3, false⟩, ⟨"EOR", .EOR, .bp, 3, false⟩,
  ⟨"LSR", .LSR, .bp, 5, false⟩, ⟨"SRE", .SRE, .bp, 5, false⟩, ⟨"PHA", .PHA, .imp, 3, false⟩,
  ⟨"EOR", .EOR, .imm, 2, false⟩, ⟨"LSR", .LSR, .acc, 2, false⟩, ⟨"ALR", .ALR, .imm, 2, false⟩,
  ⟨"JMP", .JMP, .abs, 3, false⟩, ⟨"EOR", .EOR, .abs, 4, false⟩, ⟨"LSR", .LSR, .abs, 6, false⟩,
  ⟨"SRE", .SRE, .abs, 6, false⟩, ⟨"BVC", .BVC, .rel, 2, false⟩, ⟨"EOR", .EOR, .indbpy, 5, false⟩,
  ⟨"KIL", .KIL, .imp, 2, false⟩, ⟨"SRE", .SRE, .indbpy, 8, false⟩, ⟨"NOP", .NOP, .bpx, 4, false⟩,
  ⟨"EOR", .EOR, .bpx, 4, false⟩, ⟨"LSR", .LSR, .bpx, 6, false⟩, ⟨"SRE", .SRE, .bpx, 6, false⟩,
  ⟨"CLI", .CLI, .imp, 2, false⟩, ⟨"EOR", .EOR, .absy, 4, false⟩, ⟨"NOP", .NOP, .imp, 2, false⟩,
  ⟨"SRE", .SRE, .absy, 7, false⟩, ⟨"NOP", .NOP, .absx, 4, false⟩, ⟨"EOR", .EOR, .absx, 4, false⟩,
  ⟨"LSR", .LSR, .absx, 7, false⟩, ⟨"SRE", .SRE, .absx, 7, false⟩, ⟨"RTS", .RTS, .imp, 6, false⟩,
  ⟨"ADC", .ADC, .bpxind, 6, false⟩, ⟨"KIL", .KIL, .imp, 2, false⟩,
  ⟨"RRA", .RRA, .bpxind, 8, false⟩, ⟨"NOP", .NOP, .bp, 3, false⟩, ⟨"ADC", .ADC, .bp, 3, false⟩,
  ⟨"ROR", .ROR, .bp, 5, false⟩, ⟨"RRA", .RRA, .bp, 5, false⟩, ⟨"PLA", .PLA, .imp, 4, false⟩,
  ⟨"ADC", .ADC, .imm, 2, false⟩, ⟨"ROR", .ROR, .acc, 2, false⟩, ⟨"ARR", .ARR, .imm, 2, false⟩,
  ⟨"JMP", .JMP, .ind, 5, false⟩, ⟨"ADC", .ADC, .abs, 4, false⟩, ⟨"ROR", .ROR, .abs, 6, false⟩,
  ⟨"RRA", .RRA, .abs, 6, false⟩, ⟨"BVS", .BVS, .rel, 2, false⟩, ⟨"ADC", .ADC, .indbpy, 5, false⟩,
  ⟨"KIL", .KIL, .imp, 2, false⟩, ⟨"RRA", .RRA, .indbpy, 8, false⟩, ⟨"NOP", .NOP, .bpx, 4, false⟩,
  ⟨"ADC", .ADC, .bpx, 4, false⟩, ⟨"ROR", .ROR, .bpx, 6, false⟩, ⟨"RRA", .RRA, .bpx, 6, false⟩,
  ⟨"SEI", .SEI, .imp, 2, false⟩, ⟨"ADC", .ADC, .absy, 4, false⟩, ⟨"NOP", .NOP, .imp, 2, false⟩,
  ⟨"RRA", .RRA, .absy, 7, false⟩, ⟨"NOP", .NOP, .absx, 4, false⟩, ⟨"ADC", .ADC, .absx, 4, false⟩,
  ⟨"ROR", .ROR, .absx, 7, false⟩, ⟨"RRA", .RRA, .absx, 7, false⟩, ⟨"NOP", .NOP, .imm, 2, false⟩,
  ⟨"STA", .STA, .bpxind, 6, false⟩, ⟨"NOP", .NOP, .imm, 2, false⟩,
  ⟨"SAX", .SAX, .bpxind, 6, false⟩, ⟨"STY", .STY, .bp, 3, false⟩, ⟨"STA", .STA, .bp, 3, false⟩,
  ⟨"STX", .STX, .bp, 3, false⟩, ⟨"SAX", .SAX, .bp, 3, false⟩, ⟨"DEY", .DEY, .imp, 2, false⟩,
  ⟨"NOP", .NOP, .imm, 2, false⟩, ⟨"TXA", .TXA, .imp, 2, false⟩, ⟨"XAA", .XAA, .imm, 2, false⟩,
  ⟨"STY", .STY, .abs, 4, false⟩, ⟨"STA", .STA, .abs, 4, false⟩, ⟨"STX", .STX, .abs, 4, false⟩,
  ⟨"SAX", .SAX, .abs, 4, false⟩, ⟨"BCC", .BCC, .rel, 2, false⟩, ⟨"STA", .STA, .indbpy, 6, false⟩,
  ⟨"KIL", .KIL, .imp, 2, false⟩, ⟨"AHX", .AHX, .indbpy, 6, false⟩, ⟨"STY", .STY, .bpx, 4, false⟩,
  ⟨"STA", .STA, .bpx, 4, false⟩, ⟨"STX", .STX, .bpy, 4, false⟩, ⟨"SAX", .SAX, .bpy, 4, false⟩,
  ⟨"TYA", .TYA, .imp, 2, false⟩, ⟨"STA", .STA, .absy, 5, false⟩, ⟨"TXS", .TXS, .imp, 2, false⟩,
  ⟨"TAS", .TAS, .absy, 5, false⟩, ⟨"SHY", .SHY, .absx, 5, false⟩, ⟨"STA", .STA, .absx, 5, false⟩,
  ⟨"SHX", .SHX, .absy, 5, false⟩, ⟨"AHX", .AHX, .absy, 5, false⟩, ⟨"LDY", .LDY, .imm, 2, false⟩,
  ⟨"LDA", .LDA, .bpxind, 6, false⟩, ⟨"LDX", .LDX, .imm, 2, false⟩,
  ⟨"LAX", .LAX, .bpxind, 6, false⟩, ⟨"LDY", .LDY, .bp, 3, false⟩, ⟨"LDA", .LDA, .bp, 3, false⟩,
  ⟨"LDX", .LDX, .bp, 3, false⟩, ⟨"LAX", .LAX, .bp, 3, false⟩, ⟨"TAY", .TAY, .imp, 2, false⟩,
  ⟨"LDA", .LDA, .imm, 2, false⟩, ⟨"TAX", .TAX, .imp, 2, false⟩, ⟨"LXA", .LXA, .imm, 2, false⟩,
  ⟨"LDY", .LDY, .abs, 4, false⟩, ⟨"LDA", .LDA, .abs, 4, false⟩, ⟨"LDX", .LDX, .abs, 4, false⟩,
  ⟨"LAX", .LAX, .abs, 4, false⟩, ⟨"BCS", .BCS, .rel, 2, false⟩, ⟨"LDA", .LDA, .indbpy, 5, false⟩,
  ⟨"KIL", .KIL, .imp, 2, false⟩, ⟨"LAX", .LAX, .indbpy, 5, false⟩, ⟨"LDY", .LDY, .bpx, 4, false⟩,
  ⟨"LDA", .LDA, .bpx, 4, false⟩, ⟨"LDX", .LDX, .bpy, 4, false⟩, ⟨"LAX", .LAX, .bpy, 4, false⟩,
  ⟨"CLV", .CLV, .imp, 2, false⟩, ⟨"LDA", .LDA, .absy, 4, false⟩, ⟨"TSX", .TSX, .imp, 2, false⟩,
  ⟨"LAS", .LAS, .absy, 4, false⟩, ⟨"LDY", .LDY, .absx, 4, false⟩, ⟨"LDA", .LDA, .absx, 4, false⟩,
  ⟨"LDX", .LDX, .absy, 4, false⟩, ⟨"LAX", .LAX, .absy, 4, false⟩, ⟨"CPY", .CPY, .imm, 2, false⟩,
  ⟨"CMP", .CMP, .bpxind, 6, false⟩, ⟨"NOP", .NOP, .imm, 2, false⟩,
  ⟨"DCP", .DCP, .bpxind, 8, false⟩, ⟨"CPY", .CPY, .bp, 3, false⟩, ⟨"CMP", .CMP, .bp, 3, false⟩,
  ⟨"DEC", .DEC, .bp, 5, false⟩, ⟨"DCP", .DCP, .bp, 5, false⟩, ⟨"INY", .INY, .imp, 2, false⟩,
  ⟨"CMP", .CMP, .imm, 2, false⟩, ⟨"DEX", .DEX, .imp, 2, false⟩, ⟨"AXS", .AXS, .imm, 2, false⟩,
  ⟨"CPY", .CPY, .abs, 4, false⟩, ⟨"CMP", .CMP, .abs, 4, false⟩, ⟨"DEC", .DEC, .abs, 6, false⟩,
  ⟨"DCP", .DCP, .abs, 6, false⟩, ⟨"BNE", .BNE, .rel, 2, false⟩, ⟨"CMP", .CMP, .indbpy, 5, false⟩,
  ⟨"KIL", .KIL, .imp, 2, false⟩, ⟨"DCP", .DCP, .indbpy, 8, false⟩, ⟨"NOP", .NOP, .bpx, 4, false⟩,
  ⟨"CMP", .CMP, .bpx, 4, false⟩, ⟨"DEC", .DEC, .bpx, 6, false⟩, ⟨"DCP", .DCP, .bpx, 6, false⟩,
  ⟨"CLD", .CLD, .imp, 2, false⟩, ⟨"CMP", .CMP, .absy, 4, false⟩, ⟨"NOP", .NOP, .imp, 2, false⟩,
  ⟨"DCP", .DCP, .absy, 7, false⟩, ⟨"NOP", .NOP, .absx, 4, false⟩, ⟨"CMP", .CMP, .absx, 4, false⟩,
  ⟨"DEC", .DEC, .absx, 7, false⟩, ⟨"DCP", .DCP, .absx, 7, false⟩, ⟨"CPX", .CPX, .imm, 2, false⟩,
  ⟨"SBC", .SBC, .bpxind, 6, false⟩, ⟨"NOP", .NOP, .imm, 2, false⟩,
  ⟨"ISC", .ISC, .bpxind, 8, false⟩, ⟨"CPX", .CPX, .bp, 3, false⟩, ⟨"SBC", .SBC, .bp, 3, false⟩,
  ⟨"INC", .INC, .bp, 5, false⟩, ⟨"ISC", .ISC, .bp, 5, false⟩, ⟨"INX", .INX, .imp, 2, false⟩,
  ⟨"SBC", .SBC, .imm, 2, false⟩, ⟨"NOP", .NOP, .imp, 2, false⟩, ⟨"SBC", .SBC, .imm, 2, false⟩,
  ⟨"CPX", .CPX, .abs, 4, false⟩, ⟨"SBC", .SBC, .abs, 4, false⟩, ⟨"INC", .INC, .abs, 6, false⟩,
  ⟨"ISC", .ISC, .abs, 6, false⟩, ⟨"BEQ", .BEQ, .rel, 2, false⟩, ⟨"SBC", .SBC, .indbpy, 5, false⟩,
  ⟨"KIL", .KIL, .imp, 2, false⟩, ⟨"ISC", .ISC, .indbpy, 8, false⟩, ⟨"NOP", .NOP, .bpx, 4, false⟩,
  ⟨"SBC", .SBC, .bpx, 4, false⟩, ⟨"INC", .INC, .bpx, 6, false⟩, ⟨"ISC", .ISC, .bpx, 6, false⟩,
  ⟨"SED", .SED, .imp, 2, false⟩, ⟨"SBC", .SBC, .absy, 4, false⟩, ⟨"NOP", .NOP, .imp, 2, false⟩,
  ⟨"ISC", .ISC, .absy, 7, false⟩, ⟨"NOP", .NOP, .absx, 4, false⟩, ⟨"SBC", .SBC, .absx, 4, false⟩,
  ⟨"INC", .INC, .absx, 7, false⟩, ⟨"ISC", .ISC, .absx, 7, false⟩]

def s_opcodes65c02 : List Opcode := [
  ⟨"BRK", .BRK, .imp, 7, false⟩, ⟨"ORA", .ORA, .bpxind, 6, false⟩, ⟨"NOP", .NOP, .imm, 2, false⟩,
  ⟨"NOP", .NOP, .imp, 1, false⟩, ⟨"TSB", .TSB, .bp, 5, false⟩, ⟨"ORA", .ORA, .bp, 3, false⟩,
  ⟨"ASL", .ASL, .bp, 5, false⟩, ⟨"RMB0", .RMB, .bp, 5, false⟩, ⟨"PHP", .PHP, .imp, 3, false⟩,
  ⟨"ORA", .ORA, .imm, 2, false⟩, ⟨"ASL", .ASL, .acc, 2, false⟩, ⟨"NOP", .NOP, .imp, 1, false⟩,
  ⟨"TSB", .TSB, .abs, 6, false⟩, ⟨"ORA", .ORA, .abs, 4, false⟩, ⟨"ASL", .ASL, .abs, 6, false⟩,
  ⟨"BBR0", .BBR, .bprel, 5, false⟩, ⟨"BPL", .BPL, .rel, 2, false⟩,
  ⟨"ORA", .ORA, .indbpy, 5, true⟩, ⟨"ORA", .ORA, .bpind, 5, false⟩, ⟨"NOP", .NOP, .imp, 1, false⟩,
  ⟨"TRB", .TRB, .bp, 5, false⟩, ⟨"ORA", .ORA, .bpx, 4, false⟩, ⟨"ASL", .ASL, .bpx, 6, false⟩,
  ⟨"RMB1", .RMB, .bp, 5, false⟩, ⟨"CLC", .CLC, .imp, 2, false⟩, ⟨"ORA", .ORA, .absy, 4, true⟩,
  ⟨"INC", .INCA, .acc, 2, false⟩, ⟨"NOP", .NOP, .imp, 1, false⟩, ⟨"TRB", .TRB, .abs, 6, false⟩,
  ⟨"ORA", .ORA, .absx, 4, true⟩, ⟨"ASL", .ASL, .absx, 6, true⟩, ⟨"BBR1", .BBR, .bprel, 5, false⟩,
  ⟨"JSR", .JSR, .abs, 6, false⟩, ⟨"AND", .AND, .bpxind, 6, false⟩, ⟨"NOP", .NOP, .imm, 2, false⟩,
  ⟨"NOP", .NOP, .imp, 1, false⟩, ⟨"BIT", .BIT, .bp, 3, false⟩, ⟨"AND", .AND, .bp, 3, false⟩,
  ⟨"ROL", .ROL, .bp, 5, false⟩, ⟨"RMB2", .RMB, .bp, 5, false⟩, ⟨"PLP", .PLP, .imp, 4, false⟩,
  ⟨"AND", .AND, .imm, 2, false⟩, ⟨"ROL", .ROL, .acc, 2, false⟩, ⟨"NOP", .NOP, .imp, 1, false⟩,
  ⟨"BIT", .BIT, .abs, 4, false⟩, ⟨"AND", .AND, .abs, 4, false⟩, ⟨"ROL", .ROL, .abs, 6, false⟩,
  ⟨"BBR2", .BBR, .bprel, 5, false⟩, ⟨"BMI", .BMI, .rel, 2, false⟩,
  ⟨"AND", .AND, .indbpy, 5, true⟩, ⟨"AND", .AND, .bpind, 5, false⟩, ⟨"NOP", .NOP, .imp, 1, false⟩,
  ⟨"BIT", .BIT, .bpx, 4, false⟩, ⟨"AND", .AND, .bpx, 4, false⟩, ⟨"ROL", .ROL, .bpx, 6, false⟩,
  ⟨"RMB3", .RMB, .bp, 5, false⟩, ⟨"SEC", .SEC, .imp, 2, false⟩, ⟨"AND", .AND, .absy, 4, true⟩,
  ⟨"DEC", .DECA, .acc, 2, false⟩, ⟨"NOP", .NOP, .imp, 1, false⟩, ⟨"BIT", .BIT, .absx, 4, true⟩,
  ⟨"AND", .AND, .absx, 4, true⟩, ⟨"ROL", .ROL, .absx, 6, true⟩, ⟨"BBR3", .BBR, .bprel, 5, false⟩,
  ⟨"RTI", .RTI, .imp, 6, false⟩, ⟨"EOR", .EOR, .bpxind, 6, false⟩, ⟨"NOP", .NOP, .imm, 2, false⟩,
  ⟨"NOP", .NOP, .imp, 1, false⟩, ⟨"NOP", .NOP, .imm, 3, false⟩, ⟨"EOR", .EOR, .bp, 3, false⟩,
  ⟨"LSR", .LSR, .bp, 5, false⟩, ⟨"RMB4", .RMB, .bp, 5, false⟩, ⟨"PHA", .PHA, .imp, 3, false⟩,
  ⟨"EOR", .EOR, .imm, 2, false⟩, ⟨"LSR", .LSR, .acc, 2, false⟩, ⟨"NOP", .NOP, .imp, 1, false⟩,
  ⟨"JMP", .JMP, .abs, 3, false⟩, ⟨"EOR", .EOR, .abs, 4, false⟩, ⟨"LSR", .LSR, .abs, 6, false⟩,
  ⟨"BBR4", .BBR, .bprel, 5, false⟩, ⟨"BVC", .BVC, .rel, 2, false⟩,
  ⟨"EOR", .EOR, .indbpy, 5, true⟩, ⟨"EOR", .EOR, .bpind, 5, false⟩, ⟨"NOP", .NOP, .imp, 1, false⟩,
  ⟨"NOP", .NOP, .imm, 4, false⟩, ⟨"EOR", .EOR, .bpx, 4, false⟩, ⟨"LSR", .LSR, .bpx, 6, false⟩,
  ⟨"RMB5", .RMB, .bp, 5, false⟩, ⟨"CLI", .CLI, .imp, 2, false⟩, ⟨"EOR", .EOR, .absy, 4, true⟩,
  ⟨"PHY", .PHY, .imp, 3, false⟩, ⟨"NOP", .NOP, .imp, 1, false⟩, ⟨"NOP", .NOP, .abs, 4, false⟩,
  ⟨"EOR", .EOR, .absx, 4, true⟩, ⟨"LSR", .LSR, .absx, 6, true⟩, ⟨"BBR5", .BBR, .bprel, 5, false⟩,
  ⟨"RTS", .RTS, .imp, 6, false⟩, ⟨"ADC", .ADC, .bpxind, 6, false⟩, ⟨"NOP", .NOP, .imm, 2, false⟩,
  ⟨"NOP", .NOP, .imp, 1, false⟩, ⟨"STZ", .STZ, .bp, 3, false⟩, ⟨"ADC", .ADC, .bp, 3, false⟩,
  ⟨"ROR", .ROR, .bp, 5, false⟩, ⟨"RMB6", .RMB, .bp, 5, false⟩, ⟨"PLA", .PLA, .imp, 4, false⟩,
  ⟨"ADC", .ADC, .imm, 2, false⟩, ⟨"ROR", .ROR, .acc, 2, false⟩, ⟨"NOP", .NOP, .imp, 1, false⟩,
  ⟨"JMP", .JMP, .ind, 6, false⟩, ⟨"ADC", .ADC, .abs, 4, false⟩, ⟨"ROR", .ROR, .abs, 6, false⟩,
  ⟨"BBR6", .BBR, .bprel, 5, false⟩, ⟨"BVS", .BVS, .rel, 2, false⟩,
  ⟨"ADC", .ADC, .indbpy, 5, true⟩, ⟨"ADC", .ADC, .bpind, 5, false⟩, ⟨"NOP", .NOP, .imp, 1, false⟩,
  ⟨"STZ", .STZ, .bpx, 4, false⟩, ⟨"ADC", .ADC, .bpx, 4, false⟩, ⟨"ROR", .ROR, .bpx, 6, false⟩,
  ⟨"RMB7", .RMB, .bp, 5, false⟩, ⟨"SEI", .SEI, .imp, 2, false⟩, ⟨"ADC", .ADC, .absy, 4, true⟩,
  ⟨"PLY", .PLY, .imp, 4, false⟩, ⟨"NOP", .NOP, .imp, 1, false⟩, ⟨"JMP", .JMP, .absxind, 6, false⟩,
  ⟨"ADC", .ADC, .absx, 4, true⟩, ⟨"ROR", .ROR, .absx, 6, true⟩, ⟨"BBR7", .BBR, .bprel, 5, false⟩,
  ⟨"BRA", .BRA, .rel, 3, false⟩, ⟨"STA", .STA, .bpxind, 6, false⟩, ⟨"NOP", .NOP, .imm, 2, false⟩,
  ⟨"NOP", .NOP, .imp, 1, false⟩, ⟨"STY", .STY, .bp, 3, false⟩, ⟨"STA", .STA, .bp, 3, false⟩,
  ⟨"STX", .STX, .bp, 3, false⟩, ⟨"SMB0", .SMB, .bp, 5, false⟩, ⟨"DEY", .DEY, .imp, 2, false⟩,
  ⟨"BIT", .BITI, .imm, 2, false⟩, ⟨"TXA", .TXA, .imp, 2, false⟩, ⟨"NOP", .NOP, .imp, 1, false⟩,
  ⟨"STY", .STY, .abs, 4, false⟩, ⟨"STA", .STA, .abs, 4, false⟩, ⟨"STX", .STX, .abs, 4, false⟩,
  ⟨"BBS0", .BBS, .bprel, 5, false⟩, ⟨"BCC", .BCC, .rel, 2, false⟩,
  ⟨"STA", .STA, .indbpy, 6, false⟩, ⟨"STA", .STA, .bpind, 5, false⟩,
  ⟨"NOP", .NOP, .imp, 1, false⟩, ⟨"STY", .STY, .bpx, 4, false⟩, ⟨"STA", .STA, .bpx, 4, false⟩,
  ⟨"STX", .STX, .bpy, 4, false⟩, ⟨"SMB1", .SMB, .bp, 5, false⟩, ⟨"TYA", .TYA, .imp, 2, false⟩,
  ⟨"STA", .STA, .absy, 5, false⟩, ⟨"TXS", .TXS, .imp, 2, false⟩, ⟨"NOP", .NOP, .imp, 1, false⟩,
  ⟨"STZ", .STZ, .abs, 4, false⟩, ⟨"STA", .STA, .absx, 5, false⟩, ⟨"STZ", .STZ, .absx, 5, false⟩,
  ⟨"BBS1", .BBS, .bprel, 5, false⟩, ⟨"LDY", .LDY, .imm, 2, false⟩,
  ⟨"LDA", .LDA, .bpxind, 6, false⟩, ⟨"LDX", .LDX, .imm, 2, false⟩, ⟨"NOP", .NOP, .imp, 1, false⟩,
  ⟨"LDY", .LDY, .bp, 3, false⟩, ⟨"LDA", .LDA, .bp, 3, false⟩, ⟨"LDX", .LDX, .bp, 3, false⟩,
  ⟨"SMB2", .SMB, .bp, 5, false⟩, ⟨"TAY", .TAY, .imp, 2, false⟩, ⟨"LDA", .LDA, .imm, 2, false⟩,
  ⟨"TAX", .TAX, .imp, 2, false⟩, ⟨"NOP", .NOP, .imp, 1, false⟩, ⟨"LDY", .LDY, .abs, 4, false⟩,
  ⟨"LDA", .LDA, .abs, 4, false⟩, ⟨"LDX", .LDX, .abs, 4, false⟩, ⟨"BBS2", .BBS, .bprel, 5, false⟩,
  ⟨"BCS", .BCS, .rel, 2, false⟩, ⟨"LDA", .LDA, .indbpy, 5, true⟩, ⟨"LDA", .LDA, .bpind, 5, false⟩,
  ⟨"NOP", .NOP, .imp, 1, false⟩, ⟨"LDY", .LDY, .bpx, 4, false⟩, ⟨"LDA", .LDA, .bpx, 4, false⟩,
  ⟨"LDX", .LDX, .bpy, 4, false⟩, ⟨"SMB3", .SMB, .bp, 5, false⟩, ⟨"CLV", .CLV, .imp, 2, false⟩,
  ⟨"LDA", .LDA, .absy, 4, true⟩, ⟨"TSX", .TSX, .imp, 2, false⟩, ⟨"NOP", .NOP, .imp, 1, false⟩,
  ⟨"LDY", .LDY, .absx, 4, true⟩, ⟨"LDA", .LDA, .absx, 4, true⟩, ⟨"LDX", .LDX, .absy, 4, true⟩,
  ⟨"BBS3", .BBS, .bprel, 5, false⟩, ⟨"CPY", .CPY, .imm, 2, false⟩,
  ⟨"CMP", .CMP, .bpxind, 6, false⟩, ⟨"NOP", .NOP, .imm, 2, false⟩, ⟨"NOP", .NOP, .imp, 1, false⟩,
  ⟨"CPY", .CPY, .bp, 3, false⟩, ⟨"CMP", .CMP, .bp, 3, false⟩, ⟨"DEC", .DEC, .bp, 5, false⟩,
  ⟨"SMB4", .SMB, .bp, 5, false⟩, ⟨"INY", .INY, .imp, 2, false⟩, ⟨"CMP", .CMP, .imm, 2, false⟩,
  ⟨"DEX", .DEX, .imp, 2, false⟩, ⟨"WAI", .WAI, .imp, 3, false⟩, ⟨"CPY", .CPY, .abs, 4, false⟩,
  ⟨"CMP", .CMP, .abs, 4, false⟩, ⟨"DEC", .DEC, .abs, 6, false⟩, ⟨"BBS4", .BBS, .bprel, 5, false⟩,
  ⟨"BNE", .BNE, .rel, 2, false⟩, ⟨"CMP", .CMP, .indbpy, 5, true⟩, ⟨"CMP", .CMP, .bpind, 5, false⟩,
  ⟨"NOP", .NOP, .imp, 1, false⟩, ⟨"NOP", .NOP, .imm, 4, false⟩, ⟨"CMP", .CMP, .bpx, 4, false⟩,
  ⟨"DEC", .DEC, .bpx, 6, false⟩, ⟨"SMB5", .SMB, .bp, 5, false⟩, ⟨"CLD", .CLD, .imp, 2, false⟩,
  ⟨"CMP", .CMP, .absy, 4, true⟩, ⟨"PHX", .PHX, .imp, 3, false⟩, ⟨"STP", .STP, .imp, 3, false⟩,
  ⟨"NOP", .NOP, .abs, 4, false⟩, ⟨"CMP", .CMP, .absx, 4, true⟩, ⟨"DEC", .DEC, .absx, 7, false⟩,
  ⟨"BBS5", .BBS, .bprel, 5, false⟩, ⟨"CPX", .CPX, .imm, 2, false⟩,
  ⟨"SBC", .SBC, .bpxind, 6, false⟩, ⟨"NOP", .NOP, .imm, 2, false⟩, ⟨"NOP", .NOP, .imp, 1, false⟩,
  ⟨"CPX", .CPX, .bp, 3, false⟩, ⟨"SBC", .SBC, .bp, 3, false⟩, ⟨"INC", .INC, .bp, 5, false⟩,
  ⟨"SMB6", .SMB, .bp, 5, false⟩, ⟨"INX", .INX, .imp, 2, false⟩, ⟨"SBC", .SBC, .imm, 2, false⟩,
  ⟨"NOP", .NOP, .imp, 2, false⟩, ⟨"NOP", .NOP, .imp, 1, false⟩, ⟨"CPX", .CPX, .abs, 4, false⟩,
  ⟨"SBC", .SBC, .abs, 4, false⟩, ⟨"INC", .INC, .abs, 6, false⟩, ⟨"BBS6", .BBS, .bprel, 5, false⟩,
  ⟨"BEQ", .BEQ, .rel, 2, false⟩, ⟨"SBC", .SBC, .indbpy, 5, true⟩, ⟨"SBC", .SBC, .bpind, 5, false⟩,
  ⟨"NOP", .NOP, .imp, 1, false⟩, ⟨"NOP", .NOP, .imm, 4, false⟩, ⟨"SBC", .SBC, .bpx, 4, false⟩,
  ⟨"INC", .INC, .bpx, 6, false⟩, ⟨"SMB7", .SMB, .bp, 5, false⟩, ⟨"SED", .SED, .imp, 2, false⟩,
  ⟨"SBC", .SBC, .absy, 4, true⟩, ⟨"PLX", .PLX, .imp, 4, false⟩, ⟨"NOP", .NOP, .imp, 1, false⟩,
  ⟨"NOP", .NOP, .abs, 4, false⟩, ⟨"SBC", .SBC, .absx, 4, true⟩, ⟨"INC", .INC, .absx, 7, false⟩,
  ⟨"BBS7", .BBS, .bprel, 5, false⟩]

/-- The variant's entry for an opcode; both tables have all 256. -/
def opcode (cmos : Bool) (op : BitVec 8) : Opcode :=
  (if cmos then s_opcodes65c02 else s_opcodes).getD op.toNat ⟨"BRK", .BRK, .imp, 7, false⟩

/-- An indexed page crossing costs a cycle only for instructions that just read. -/
def pagePenalty (cmos : Bool) (op : BitVec 8) : Bool :=
  if cmos then (opcode true op).penalty
  else match (opcode false op).fn with
    | .ADC | .AND | .CMP | .EOR | .LDA | .LDX | .LDY | .ORA | .SBC | .LAX | .LAS | .NOP => true
    | _ => false

/-! ## The debugger's view of an instruction -/

inductive StackOp where
  | none | pushA | pushX | pushY | pushZ | pushP | pull | brk
  deriving DecidableEq, Repr

/-- The fields of a decoded entry that its users read. -/
structure DisasmEntry where
  addr : BitVec 32
  raw : List (BitVec 8)
  isCall : Bool
  isReturn : Bool
  targetAddr : BitVec 32
  stackOp : StackOp

def stackOpFor (mn : String) : StackOp :=
  match mn with
  | "BRK" => .brk
  | "PHA" => .pushA
  | "PHX" => .pushX
  | "PHY" => .pushY
  | "PHZ" => .pushZ
  | "PHP" => .pushP
  | "PLA" | "PLX" | "PLY" | "PLZ" | "PLP" => .pull
  | _ => .none

def instructionBytes : Mode → ℕ
  | .imp | .acc => 1
  | .abs | .absx | .absy | .ind | .absxind | .bprel => 3
  | _ => 2

def decodeEntry {ω : Type} [IBus ω] (cmos : Bool) (bus : ω) (addr : BitVec 32) : DisasmEntry :=
  let op := IBus.peek8 bus addr
  let info := opcode cmos op
  let isCall := op == 0x20
  let relative (at_ : BitVec 32) (next : BitVec 32) : BitVec 32 :=
    (next + (IBus.peek8 bus at_).signExtend 32).setWidth 16 |>.setWidth 32
  { addr := addr
    raw := op :: (List.range (instructionBytes info.mode - 1)).map fun i =>
      IBus.peek8 bus (addr + 1 + BitVec.ofNat 32 i)
    isCall := isCall
    isReturn := op == 0x60 || op == 0x40
    stackOp := stackOpFor info.mnemonic
    targetAddr :=
      if isCall || info.mode = .rel || info.mode = .bprel || op == 0x4C || op == 0x6C then
        match info.mode with
        | .rel => relative (addr + 1) (addr + 2)
        | .bprel => relative (addr + 2) (addr + 3)
        | .abs | .ind => (IBus.peek8 bus (addr + 2) ++ IBus.peek8 bus (addr + 1)).setWidth 32
        | _ => 0
      else 0 }

/-! ## The step -/

/-- The callbacks of an execution observer; they see the core and change the world only. -/
structure ExecutionObserver (ω : Type) where
  needsDisasm : Bool
  onStep : CPU6502State → DisasmEntry → ω → Bool × ω
  onStepLite : CPU6502State → BitVec 32 → ω → ω

/-- Configured intercepts, which run instead of the instruction at an address. -/
structure PcInterceptHook (ω : Type) where
  armed : BitVec 16 → Bool
  fire : MOS6502 ω → Bool × MOS6502 ω

/-- What is attached to a core besides its bus. -/
structure Wiring (ω : Type) where
  observer : Option (ExecutionObserver ω)
  pcHook : Option (PcInterceptHook ω)
  onVectorPull : Option (ω → ω)

section Step
variable {ω : Type} [IBus ω]

/-- Run an opcode's function. -/
def call (w : Wiring ω) : OpcodeFn → BitVec 16 → Exec ω ℕ
  | .ADC => opADC | .AHX => opAHX | .ALR => opALR | .ANC => opANC | .AND => opAND | .ARR => opARR
  | .ASL => opASL | .AXS => opAXS | .BBR => opBBR | .BBS => opBBS | .BCC => opBCC | .BCS => opBCS
  | .BEQ => opBEQ | .BIT => opBIT | .BITI => opBITI | .BMI => opBMI | .BNE => opBNE
  | .BPL => opBPL | .BRA => opBRA | .BRK => opBRK w.onVectorPull | .BVC => opBVC | .BVS => opBVS
  | .CLC => opCLC | .CLD => opCLD | .CLI => opCLI | .CLV => opCLV | .CMP => opCMP | .CPX => opCPX
  | .CPY => opCPY | .DCP => opDCP | .DEC => opDEC | .DECA => opDECA | .DEX => opDEX
  | .DEY => opDEY | .EOR => opEOR | .INC => opINC | .INCA => opINCA | .INX => opINX
  | .INY => opINY | .ISC => opISC | .JMP => opJMP | .JSR => opJSR | .KIL => opKIL | .LAS => opLAS
  | .LAX => opLAX | .LDA => opLDA | .LDX => opLDX | .LDY => opLDY | .LSR => opLSR | .LXA => opLXA
  | .NOP => opNOP | .ORA => opORA | .PHA => opPHA | .PHP => opPHP | .PHX => opPHX | .PHY => opPHY
  | .PLA => opPLA | .PLP => opPLP | .PLX => opPLX | .PLY => opPLY | .RLA => opRLA | .RMB => opRMB
  | .ROL => opROL | .ROR => opROR | .RRA => opRRA | .RTI => opRTI | .RTS => opRTS | .SAX => opSAX
  | .SBC => opSBC | .SEC => opSEC | .SED => opSED | .SEI => opSEI | .SHX => opSHX | .SHY => opSHY
  | .SLO => opSLO | .SMB => opSMB | .SRE => opSRE | .STA => opSTA | .STP => opSTP | .STX => opSTX
  | .STY => opSTY | .STZ => opSTZ | .TAS => opTAS | .TAX => opTAX | .TAY => opTAY | .TRB => opTRB
  | .TSB => opTSB | .TSX => opTSX | .TXA => opTXA | .TXS => opTXS | .TYA => opTYA | .WAI => opWAI
  | .XAA => opXAA

/-- The operand address of an instruction and the cycle an indexed page crossing costs. -/
def operand (mode : Mode) (penalty : Bool) : Exec ω (BitVec 16 × ℕ) := do
  let crossing (at_ : BitVec 16 × Bool) : BitVec 16 × ℕ :=
    (at_.1, if at_.2 && penalty then 1 else 0)
  match mode with
  | .imp => return (0, 0)
  | .acc => return (0xFFFF, 0)
  | .imm =>
    let pc := (← get).state.pc
    regs fun s => { s with pc := s.pc + 1 }
    return (pc, 0)
  | .bp => return (← addrBP, 0)
  | .bpx => return (← addrBPX, 0)
  | .bpy => return (← addrBPY, 0)
  | .abs => return (← addrABS, 0)
  | .absx => return crossing (← addrABSX)
  | .absy => return crossing (← addrABSY)
  | .ind => return (← addrIND, 0)
  | .bpxind => return (← addrBPXIND, 0)
  | .indbpy => return crossing (← addrINDBPY)
  | .rel =>
    let rel ← fetch
    return ((← get).state.pc + rel.signExtend 16, 0)
  | .bpind => return (← addrBPIND, 0)
  | .absxind => return (← addrABSXIND, 0)
  | .bprel =>
    let addr ← fetch
    let rel ← fetch
    modify fun c => { c with branchTarget := c.state.pc + rel.signExtend 16 }
    return (addr.setWidth 16, 0)

/-- Show the instruction at `pc` to the observer; false stops it before it executes. -/
def observe (w : Wiring ω) (pc : BitVec 16) : Exec ω Bool := do
  match w.observer with
  | none => return true
  | some obs =>
    if obs.needsDisasm then
      let c ← get
      let entry := decodeEntry c.cmos c.bus (pc.setWidth 32)
      -- the observer sees the PC of the instruction, as after a stop
      let (cont, bus) := obs.onStep { c.state with pc := pc } entry c.bus
      set { c with bus := bus, state := { c.state with pc := if cont then c.state.pc else pc } }
      return cont
    else
      modify fun c => { c with bus := obs.onStepLite c.state (pc.setWidth 32) c.bus }
      return true

def addCycles (n : ℕ) : Exec ω ℕ := do
  regs fun s => { s with cycles := s.cycles + BitVec.ofNat 64 n }
  return n

/-- Fetch, decode and execute the instruction at PC. -/
def execute (w : Wiring ω) : Exec ω ℕ := do
  let c ← get
  let pc := c.state.pc
  let op ← fetch
  let info := opcode c.cmos op
  modify fun c => { c with curOp := op }
  let (addr, extra) ← operand info.mode (pagePenalty c.cmos op)
  if ← observe w pc then
    let more ← call w info.fn addr
    addCycles (info.cycles + (extra + more))
  else return 1

def interrupt (w : Wiring ω) (vector : BitVec 16) : Exec ω ℕ := do
  enter w.onVectorPull (fun p => p &&& ~~~FLAG_B ||| FLAG_U) vector
  addCycles 7

/-- An NMI edge that the core has not yet taken. -/
def CPU6502State.nmiEdge (s : CPU6502State) : Bool := s.nmiLine && !s.nmiPrev

/-- The core does not step: halted, stopped, or waiting for an interrupt line. -/
def CPU6502State.asleep (s : CPU6502State) : Bool :=
  s.haltLine || s.stopped || (s.waiting && !(s.irqLine || s.nmiEdge))

def step (w : Wiring ω) : Exec ω ℕ := do
  let s := (← get).state
  if s.asleep then addCycles 1
  else
    regs fun s => { s with waiting := false }
    if s.nmiEdge then
      regs fun s => { s with nmiPrev := true }
      interrupt w 0xFFFA
    else
      regs fun s => { s with nmiPrev := s.nmiLine }
      if s.irqLine && !flag s.p FLAG_I then interrupt w 0xFFFE
      else
        match w.pcHook with
        | some hook =>
          if hook.armed s.pc then
            let served ← modifyGet hook.fire
            if served then addCycles 6 else execute w
          else execute w
        | none => execute w

/-! ## Reset and the lines -/

def reset : Exec ω Unit := do
  regs fun s =>
    { s with
      a := 0, x := 0, y := 0, sp := 0xFD, p := FLAG_U ||| FLAG_I, cycles := 0
      irqLine := false, nmiLine := false, nmiPrev := false, haltLine := false
      waiting := false, stopped := false }
  let lo ← read 0xFFFC
  let hi ← read 0xFFFD
  regs fun s => { s with pc := hi ++ lo }

/-- What a machine does with its core. -/
inductive Event where
  | step
  | reset
  | triggerIrq
  | triggerNmi
  | setIrqLine (asserted : Bool)
  | setNmiLine (asserted : Bool)
  | setHaltLine (asserted : Bool)
  deriving DecidableEq, Repr

def apply (w : Wiring ω) (c : MOS6502 ω) : Event → MOS6502 ω
  | .step => (step w c).2
  | .reset => (reset c).2
  | .triggerIrq => { c with state := { c.state with irqLine := true } }
  | .triggerNmi => { c with state := { c.state with nmiLine := true, nmiPrev := false } }
  | .setIrqLine asserted => { c with state := { c.state with irqLine := asserted } }
  | .setNmiLine asserted => { c with state := { c.state with nmiLine := asserted } }
  | .setHaltLine asserted => { c with state := { c.state with haltLine := asserted } }

end Step
end Mmemu.Source.Cpu6502
