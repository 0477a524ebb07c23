import Mmemu.Source.MemoryBus

/-!
# MOS 6502 and WDC 65C02: registers and instructions

Source: src/plugins/6502/main/cpu6502.cpp, cpu6502.h and cpu6502_cmos.cpp. An instruction
is a state computation on the core and the world `ω` behind its bus; it returns its extra
cycles. Functions that differ in a condition or a register only share one definition.
-/
namespace Mmemu.Source.Cpu6502
open Mmemu.Source.MemoryBus

def FLAG_C : BitVec 8 := 0x01
def FLAG_Z : BitVec 8 := 0x02
def FLAG_I : BitVec 8 := 0x04
def FLAG_D : BitVec 8 := 0x08
def FLAG_B : BitVec 8 := 0x10
def FLAG_U : BitVec 8 := 0x20
def FLAG_V : BitVec 8 := 0x40
def FLAG_N : BitVec 8 := 0x80

structure CPU6502State where
  a : BitVec 8
  x : BitVec 8
  y : BitVec 8
  sp : BitVec 8
  pc : BitVec 16
  p : BitVec 8
  cycles : BitVec 64
  irqLine : Bool
  nmiLine : Bool
  nmiPrev : Bool
  haltLine : Bool
  waiting : Bool
  stopped : Bool
  deriving DecidableEq, Repr, Inhabited

/-- The register descriptor table. -/
inductive Reg where
  | A | X | Y | SP | PC | P | cyclesLo | cyclesHi
  deriving DecidableEq, Repr

def regRead (s : CPU6502State) : Reg → BitVec 32
  | .A => s.a.setWidth 32
  | .X => s.x.setWidth 32
  | .Y => s.y.setWidth 32
  | .SP => s.sp.setWidth 32
  | .PC => s.pc.setWidth 32
  | .P => s.p.setWidth 32
  | .cyclesLo => s.cycles.setWidth 32
  | .cyclesHi => s.cycles.extractLsb' 32 32

def regWrite (s : CPU6502State) (r : Reg) (val : BitVec 32) : CPU6502State :=
  match r with
  | .A => { s with a := val.setWidth 8 }
  | .X => { s with x := val.setWidth 8 }
  | .Y => { s with y := val.setWidth 8 }
  | .SP => { s with sp := val.setWidth 8 }
  | .PC => { s with pc := val.setWidth 16 }
  | .P => { s with p := val.setWidth 8 }
  | .cyclesLo => { s with cycles := s.cycles.extractLsb' 32 32 ++ val }
  | .cyclesHi => { s with cycles := val ++ s.cycles.setWidth 32 }

/-- A core and the world its bus pointer leads to. -/
structure MOS6502 (ω : Type) where
  state : CPU6502State
  bus : ω
  cmos : Bool
  curOp : BitVec 8
  branchTarget : BitVec 16

abbrev Exec (ω : Type) := StateM (MOS6502 ω)

/-- `p |= mask` under a condition. -/
def orIf (p mask : BitVec 8) (on : Bool) : BitVec 8 := if on then p ||| mask else p

def flag (p mask : BitVec 8) : Bool := p &&& mask != 0#8

def nz (p val : BitVec 8) : BitVec 8 :=
  let p := p &&& ~~~(FLAG_N ||| FLAG_Z)
  let p := orIf p FLAG_Z (val == 0#8)
  orIf p FLAG_N (flag val 0x80)

def CPU6502State.updateNZ (s : CPU6502State) (val : BitVec 8) : CPU6502State :=
  { s with p := nz s.p val }

/-- Clear the carry and set it again under a condition. -/
def carryTo (p : BitVec 8) (on : Bool) : BitVec 8 := orIf (p &&& ~~~FLAG_C) FLAG_C on

theorem flag_orIf {p m : BitVec 8} (some_ : m ≠ 0) (on : Bool) :
    flag (orIf p m on) m = (flag p m || on) := by
  cases on with
  | false => simp [orIf]
  | true =>
    have same : (p ||| m) &&& m = m := by
      ext i
      simp only [BitVec.getElem_and, BitVec.getElem_or]
      cases p[i] <;> cases m[i] <;> rfl
    unfold orIf flag
    rw [if_pos rfl, same, Bool.or_true]
    exact bne_iff_ne.mpr some_

theorem flag_orIf_other {p m mask' : BitVec 8} (apart : m &&& mask' = 0#8) (on : Bool) :
    flag (orIf p m on) mask' = flag p mask' := by
  cases on with
  | false => rfl
  | true =>
    unfold flag orIf
    rw [if_pos rfl, BitVec.and_or_distrib_right, apart, BitVec.or_zero]

section Access
variable {ω : Type} [IBus ω]

/-- Change the registers only. -/
def regs (f : CPU6502State → CPU6502State) : Exec ω Unit :=
  modify fun c => { c with state := f c.state }

def read (addr : BitVec 16) : Exec ω (BitVec 8) := fun c =>
  let (val, bus) := IBus.read8 c.bus (addr.setWidth 32)
  (val, { c with bus := bus })

def write (addr : BitVec 16) (val : BitVec 8) : Exec ω Unit :=
  modify fun c => { c with bus := IBus.write8 c.bus (addr.setWidth 32) val }

/-- `read(m_state.pc++)` -/
def fetch : Exec ω (BitVec 8) := do
  let pc := (← get).state.pc
  regs fun s => { s with pc := s.pc + 1 }
  read pc

def push (val : BitVec 8) : Exec ω Unit := do
  let sp := (← get).state.sp
  regs fun s => { s with sp := s.sp - 1 }
  write (0x0100 ||| sp.setWidth 16) val

def pop : Exec ω (BitVec 8) := do
  regs fun s => { s with sp := s.sp + 1 }
  read (0x0100 ||| (← get).state.sp.setWidth 16)

/-! ## Addressing modes -/

def addrBP : Exec ω (BitVec 16) := do
  let ptr ← fetch
  return ptr.setWidth 16

def addrBPX : Exec ω (BitVec 16) := do
  let ptr ← fetch
  return (ptr + (← get).state.x).setWidth 16

def addrBPY : Exec ω (BitVec 16) := do
  let ptr ← fetch
  return (ptr + (← get).state.y).setWidth 16

def addrABS : Exec ω (BitVec 16) := do
  let lo ← fetch
  let hi ← fetch
  return hi ++ lo

/-- An index added to a base address, and whether that crossed a page. -/
def indexed (base : BitVec 16) (index : BitVec 8) : BitVec 16 × Bool :=
  let addr := base + index.setWidth 16
  (addr, base &&& 0xFF00 != addr &&& 0xFF00)

def addrABSX : Exec ω (BitVec 16 × Bool) := do
  let base ← addrABS
  return indexed base (← get).state.x

def addrABSY : Exec ω (BitVec 16 × Bool) := do
  let base ← addrABS
  return indexed base (← get).state.y

def addrIND : Exec ω (BitVec 16) := do
  let ptr ← addrABS
  let lo ← read ptr
  let next := if (← get).cmos then ptr + 1 else ptr &&& 0xFF00 ||| (ptr + 1) &&& 0x00FF
  let hi ← read next
  return hi ++ lo

/-- The address a zero-page pointer holds. -/
def pointer (ptr : BitVec 8) : Exec ω (BitVec 16) := do
  let lo ← read (ptr.setWidth 16)
  let hi ← read ((ptr + 1).setWidth 16)
  return hi ++ lo

def addrBPIND : Exec ω (BitVec 16) := do
  let ptr ← fetch
  pointer ptr

def addrABSXIND : Exec ω (BitVec 16) := do
  let base ← addrABS
  let ptr := base + (← get).state.x.setWidth 16
  let lo ← read ptr
  let hi ← read (ptr + 1)
  return hi ++ lo

def addrBPXIND : Exec ω (BitVec 16) := do
  let ptr ← fetch
  pointer (ptr + (← get).state.x)

def addrINDBPY : Exec ω (BitVec 16 × Bool) := do
  let ptr ← fetch
  let base ← pointer ptr
  return indexed base (← get).state.y

/-! ## The kinds of instructions -/

/-- An instruction on the registers alone. -/
def implied (f : CPU6502State → CPU6502State) (_addr : BitVec 16) : Exec ω ℕ := do
  regs f
  return 0

/-- An instruction that reads its operand into the registers. -/
def loaded (f : CPU6502State → BitVec 8 → CPU6502State) (addr : BitVec 16) : Exec ω ℕ := do
  let m ← read addr
  regs fun s => f s m
  return 0

/-- An instruction that stores a value of the registers. -/
def stored (val : CPU6502State → BitVec 8) (addr : BitVec 16) : Exec ω ℕ := do
  write addr (val (← get).state)
  return 0

def pushed (val : CPU6502State → BitVec 8) (_addr : BitVec 16) : Exec ω ℕ := do
  push (val (← get).state)
  return 0

def popped (f : CPU6502State → BitVec 8 → CPU6502State) (_addr : BitVec 16) : Exec ω ℕ := do
  let val ← pop
  regs fun s => f s val
  return 0

/-- A relative branch: one cycle more when taken, another one to a different page. -/
def branch (taken : CPU6502State → Bool) (addr : BitVec 16) : Exec ω ℕ := do
  let s := (← get).state
  if taken s then
    regs fun s => { s with pc := addr }
    return if s.pc &&& 0xFF00 != addr &&& 0xFF00 then 2 else 1
  else return 0

/-- A shift or rotation; `f` gives the carry out and the result. Address $FFFF stands for
the accumulator. -/
def shifted (f : BitVec 8 → BitVec 8 → Bool × BitVec 8) (addr : BitVec 16) : Exec ω ℕ := do
  let s := (← get).state
  if addr = 0xFFFF then
    let (carry, r) := f s.p s.a
    regs fun s => { s with p := nz (carryTo s.p carry) r, a := r }
    return 0
  else
    let m ← read addr
    let (carry, r) := f s.p m
    regs fun s => { s with p := carryTo s.p carry }
    write addr r
    regs fun s => s.updateNZ r
    return 0

/-- INC and DEC. -/
def stepByte (by_ : BitVec 8) (addr : BitVec 16) : Exec ω ℕ := do
  let m ← read addr
  write addr (m + by_)
  regs fun s => s.updateNZ (m + by_)
  return 0

/-- CMP, CPX and CPY. -/
def compare (reg : CPU6502State → BitVec 8) (s : CPU6502State) (m : BitVec 8) : CPU6502State :=
  { s with p := nz (carryTo s.p (m ≤ reg s)) (reg s - m) }

end Access

/-! ## Arithmetic -/

/-- A byte promoted to `int`. -/
def int (v : BitVec 8) : BitVec 32 := v.setWidth 32

def CVZN : BitVec 8 := FLAG_C ||| FLAG_V ||| FLAG_Z ||| FLAG_N

/-- The sum of A, a byte and the carry, with its flags. -/
def addBinary (s : CPU6502State) (m : BitVec 8) : CPU6502State :=
  let sum : BitVec 16 := s.a.setWidth 16 + m.setWidth 16 + (s.p &&& FLAG_C).setWidth 16
  let p := s.p &&& ~~~CVZN
  let p := orIf p FLAG_C (0xFF < sum)
  let v := ~~~(s.a.setWidth 16 ^^^ m.setWidth 16) &&& (s.a.setWidth 16 ^^^ sum) &&& 0x0080
  let p := orIf p FLAG_V (v != 0)
  let a := sum.setWidth 8
  { s with a := a, p := nz p a }

/-- NMOS decimal mode: Z from the binary sum, N and V from the sum before the high nibble
is adjusted, C after it. -/
def addDecimal (s : CPU6502State) (m : BitVec 8) : CPU6502State :=
  let c := int (s.p &&& FLAG_C)
  let a := int s.a
  let bin := (a + int m + c).setWidth 8
  let lo := (a &&& 0x0F) + (int m &&& 0x0F) + c
  let lo := if 0x0A ≤ lo then ((lo + 0x06) &&& 0x0F) + 0x10 else lo
  let sum := (a &&& 0xF0) + (int m &&& 0xF0) + lo
  let p := s.p &&& ~~~CVZN
  let p := orIf p FLAG_N (sum &&& 0x80 != 0)
  let p := orIf p FLAG_V (~~~(a ^^^ int m) &&& (a ^^^ sum) &&& 0x80 != 0)
  let sum := if 0xA0 ≤ sum then sum + 0x60 else sum
  let p := orIf p FLAG_C (0x100 ≤ sum)
  let p := orIf p FLAG_Z (bin == 0)
  { s with a := sum.setWidth 8, p := p }

def adcDecimalCmos (s : CPU6502State) (m : BitVec 8) : CPU6502State :=
  let a : BitVec 16 := s.a.setWidth 16
  let m : BitVec 16 := m.setWidth 16
  let lo := (a &&& 0x0F) + (m &&& 0x0F) + (s.p &&& FLAG_C).setWidth 16
  let hi := (a &&& 0xF0) + (m &&& 0xF0)
  let (hi, lo) := if 0x09 < lo then (hi + 0x10, lo + 0x06) else (hi, lo)
  let hiOv := hi
  let hi := if 0x90 < hi then hi + 0x60 else hi
  let p := s.p &&& ~~~CVZN
  let p := orIf p FLAG_C (hi &&& 0xFF00 != 0)
  let result := (lo &&& 0x0F ||| hi &&& 0xF0).setWidth 8
  let ov := (lo &&& 0x0F ||| hiOv &&& 0xF0)
  let p := orIf p FLAG_V ((ov ^^^ a) &&& (ov ^^^ m) &&& 0x80 != 0)
  { s with a := result, p := nz p result }

/-- NMOS decimal mode: the flags as in binary, the result adjusted nibble by nibble. -/
def subtract (s : CPU6502State) (raw : BitVec 8) : CPU6502State :=
  let carryIn := int (s.p &&& FLAG_C)
  let binary := addBinary s (raw ^^^ 0xFF)
  if flag binary.p FLAG_D then
    let lo := (int s.a &&& 0x0F) - (int raw &&& 0x0F) + carryIn - 1
    let lo := if lo.slt 0 then ((lo - 0x06) &&& 0x0F) - 0x10 else lo
    let r := (int s.a &&& 0xF0) - (int raw &&& 0xF0) + lo
    let r := if r.slt 0 then r - 0x60 else r
    { binary with a := r.setWidth 8 }
  else binary

def sbcDecimalCmos (s : CPU6502State) (m : BitVec 8) : CPU6502State :=
  let a := int s.a
  let c : BitVec 32 := if flag s.p FLAG_C then 1 else 0
  let lo := (a &&& 0x0F) - (int m &&& 0x0F) + c - 1
  let r := a - int m + c - 1
  let bin : BitVec 16 := (a + int (m ^^^ 0xFF) + c).setWidth 16
  let p := s.p &&& ~~~CVZN
  let p := orIf p FLAG_C (bin &&& 0x100 != 0)
  let v := (bin ^^^ s.a.setWidth 16) &&& (bin ^^^ (m ^^^ 0xFF).setWidth 16) &&& 0x80
  let p := orIf p FLAG_V (v != 0)
  let r := if r.slt 0 then r - 0x60 else r
  let r := if lo.slt 0 then r - 0x06 else r
  let a := r.setWidth 8
  { s with a := a, p := nz p a }

/-- ARR: AND, then rotate A right, with its own flags. -/
def andRotate (s : CPU6502State) (m : BitVec 8) : CPU6502State :=
  let t := s.a &&& m
  let cin : BitVec 8 := if flag s.p FLAG_C then 0x80 else 0
  let r := t >>> 1 ||| cin
  let p := s.p &&& ~~~(FLAG_N ||| FLAG_Z ||| FLAG_C ||| FLAG_V)
  if !flag p FLAG_D then
    let p := orIf p FLAG_N (flag r 0x80)
    let p := orIf p FLAG_Z (r == 0)
    let p := orIf p FLAG_C (flag r 0x40)
    let p := orIf p FLAG_V (flag (r >>> 6 ^^^ r >>> 5) 1)
    { s with a := r, p := p }
  else
    let p := orIf p FLAG_N (cin != 0)
    let p := orIf p FLAG_Z (r == 0)
    let p := orIf p FLAG_V (flag (t ^^^ r) 0x40)
    let r := if 0x05 < (int t &&& 0x0F) + (int t &&& 0x01)
      then r &&& 0xF0 ||| (r + 0x06) &&& 0x0F else r
    let (r, p) := if 0x50 < (int t &&& 0xF0) + (int t &&& 0x10)
      then (r + 0x60, p ||| FLAG_C) else (r, p)
    { s with a := r, p := p }

end Mmemu.Source.Cpu6502
