import Mmemu.Source.MemoryBus

/-!
# Zilog Z80: registers, memory and the ALU

Source: src/plugins/z80/main/cpu_z80.cpp and cpu_z80.h. An instruction is a state computation
on the registers and the world `ω` behind the memory and I/O buses; it returns its T-states.
The lines and the cycle counter, which no instruction touches, are outside.
-/
namespace Mmemu.Source.CpuZ80
open Mmemu.Source.MemoryBus

def FC : BitVec 8 := 0x01
def FN : BitVec 8 := 0x02
def FP : BitVec 8 := 0x04
def FX : BitVec 8 := 0x08
def FH : BitVec 8 := 0x10
def FY : BitVec 8 := 0x20
def FZ : BitVec 8 := 0x40
def FS : BitVec 8 := 0x80

/-- The memory bus and the I/O bus. -/
class PortBus (ω : Type) extends IBus ω where
  portRead8 : ω → BitVec 16 → BitVec 8 × ω
  portWrite8 : ω → BitVec 16 → BitVec 8 → ω

/-- A plain memory bus without an I/O bus: ports read as $FF. -/
instance : PortBus FlatMemoryBus where
  portRead8 b _ := (0xFF, b)
  portWrite8 b _ _ := b

structure Z80State where
  a : BitVec 8
  f : BitVec 8
  b : BitVec 8
  c : BitVec 8
  d : BitVec 8
  e : BitVec 8
  h : BitVec 8
  l : BitVec 8
  af2 : BitVec 16
  bc2 : BitVec 16
  de2 : BitVec 16
  hl2 : BitVec 16
  ix : BitVec 16
  iy : BitVec 16
  sp : BitVec 16
  pc : BitVec 16
  wz : BitVec 16
  i : BitVec 8
  r : BitVec 8
  im : BitVec 8
  iff1 : Bool
  iff2 : Bool
  halted : Bool
  eiDelay : Bool
  q : BitVec 8
  qNext : BitVec 8
  deriving DecidableEq, Repr, Inhabited

/-- The DD or FD prefix in force. -/
inductive Prefix where
  | none | ix | iy
  deriving DecidableEq, Repr, Inhabited

/-- What an instruction works on: registers, buses, and what its prefix has fetched. -/
structure Context (ω : Type) where
  regs : Z80State
  bus : ω
  prefix_ : Prefix
  dispAddr : BitVec 16
  dispFetched : Bool

abbrev Exec (ω : Type) := StateM (Context ω)

def flag (f mask : BitVec 8) : Bool := f &&& mask != 0#8

/-- A flag under a condition. -/
def bitIf (mask : BitVec 8) (on : Bool) : BitVec 8 := if on then mask else 0

def parity (v : BitVec 8) : BitVec 8 :=
  let v := v ^^^ v >>> 4
  let v := v ^^^ v >>> 2
  let v := v ^^^ v >>> 1
  if flag v 1 then 0 else FP

def sz53 (v : BitVec 8) : BitVec 8 := v &&& (FS ||| FY ||| FX) ||| bitIf FZ (v == 0)

def sz53p (v : BitVec 8) : BitVec 8 := sz53 v ||| parity v

namespace Z80State

def bc (s : Z80State) : BitVec 16 := s.b ++ s.c
def de (s : Z80State) : BitVec 16 := s.d ++ s.e
def hl (s : Z80State) : BitVec 16 := s.h ++ s.l
def af (s : Z80State) : BitVec 16 := s.a ++ s.f

def setBc (s : Z80State) (v : BitVec 16) : Z80State :=
  { s with b := v.extractLsb' 8 8, c := v.setWidth 8 }
def setDe (s : Z80State) (v : BitVec 16) : Z80State :=
  { s with d := v.extractLsb' 8 8, e := v.setWidth 8 }
def setHl (s : Z80State) (v : BitVec 16) : Z80State :=
  { s with h := v.extractLsb' 8 8, l := v.setWidth 8 }
def setAf (s : Z80State) (v : BitVec 16) : Z80State :=
  { s with a := v.extractLsb' 8 8, f := v.setWidth 8 }

def setF (s : Z80State) (f : BitVec 8) : Z80State := { s with f := f, qNext := f }

def incR (s : Z80State) : Z80State := { s with r := s.r &&& 0x80 ||| (s.r + 1) &&& 0x7F }

/-- A jump, which leaves its target in MEMPTR. -/
def jump (s : Z80State) (pc : BitVec 16) : Z80State := { s with pc := pc, wz := pc }

def cond (s : Z80State) : ℕ → Bool
  | 0 => !flag s.f FZ
  | 1 => flag s.f FZ
  | 2 => !flag s.f FC
  | 3 => flag s.f FC
  | 4 => !flag s.f FP
  | 5 => flag s.f FP
  | 6 => !flag s.f FS
  | _ => flag s.f FS

/-! ## ALU -/

def carry (s : Z80State) : ℕ := if flag s.f FC then 1 else 0

/-- ADD and ADC. -/
def add8 (s : Z80State) (v : BitVec 8) (c : ℕ) : Z80State :=
  let r := s.a.toNat + v.toNat + c
  let res := BitVec.ofNat 8 r
  let f := sz53 res ||| bitIf FC (0xFF < r) ||| (s.a ^^^ v ^^^ res) &&& FH
  let f := f ||| bitIf FP (flag ((s.a ^^^ ~~~v) &&& (s.a ^^^ res)) 0x80)
  { s with a := res }.setF f

/-- The result and flags of a subtraction, but for X and Y. -/
def difference (s : Z80State) (v : BitVec 8) (c : ℕ) : BitVec 8 × BitVec 8 :=
  let r : ℤ := s.a.toNat - v.toNat - c
  let res := BitVec.ofInt 8 r
  let f := res &&& FS ||| bitIf FZ (res == 0) ||| FN ||| bitIf FC (r < 0) |||
    (s.a ^^^ v ^^^ res) &&& FH
  (res, f ||| bitIf FP (flag ((s.a ^^^ v) &&& (s.a ^^^ res)) 0x80))

/-- SUB and SBC. -/
def sub8 (s : Z80State) (v : BitVec 8) (c : ℕ) : Z80State :=
  let (res, f) := s.difference v c
  { s with a := res }.setF (f ||| res &&& (FX ||| FY))

/-- CP takes X and Y from its operand. -/
def cp8 (s : Z80State) (v : BitVec 8) : Z80State :=
  let (_, f) := s.difference v 0
  s.setF (f &&& ~~~(FX ||| FY) ||| v &&& (FX ||| FY))

def alu (s : Z80State) (op : ℕ) (v : BitVec 8) : Z80State :=
  match op with
  | 0 => s.add8 v 0
  | 1 => s.add8 v s.carry
  | 2 => s.sub8 v 0
  | 3 => s.sub8 v s.carry
  | 4 => { s with a := s.a &&& v }.setF (sz53p (s.a &&& v) ||| FH)
  | 5 => { s with a := s.a ^^^ v }.setF (sz53p (s.a ^^^ v))
  | 6 => { s with a := s.a ||| v }.setF (sz53p (s.a ||| v))
  | _ => s.cp8 v

def inc8 (s : Z80State) (v : BitVec 8) : BitVec 8 × Z80State :=
  let r := v + 1
  (r, s.setF (s.f &&& FC ||| sz53 r ||| (v ^^^ r) &&& FH ||| bitIf FP (v == 0x7F)))

def dec8 (s : Z80State) (v : BitVec 8) : BitVec 8 × Z80State :=
  let r := v - 1
  (r, s.setF (s.f &&& FC ||| sz53 r ||| FN ||| (v ^^^ r) &&& FH ||| bitIf FP (v == 0x80)))

/-- The carry out and the result of a rotation or shift. -/
def rotated (s : Z80State) (y : ℕ) (v : BitVec 8) : BitVec 8 × BitVec 8 :=
  let high := v >>> 7
  let low := v &&& 1
  match y with
  | 0 => (high, v <<< 1 ||| high)
  | 1 => (low, v >>> 1 ||| low <<< 7)
  | 2 => (high, v <<< 1 ||| s.f &&& FC)
  | 3 => (low, v >>> 1 ||| (s.f &&& FC) <<< 7)
  | 4 => (high, v <<< 1)
  | 5 => (low, v >>> 1 ||| v &&& 0x80)
  | 6 => (high, v <<< 1 ||| 1)
  | _ => (low, v >>> 1)

def rot (s : Z80State) (y : ℕ) (v : BitVec 8) : BitVec 8 × Z80State :=
  let (c, r) := s.rotated y v
  (r, s.setF (sz53p r ||| c))

/-- RLCA, RRCA, RLA and RRA keep S, Z and P. -/
def rotA (s : Z80State) (y : ℕ) : Z80State :=
  let (c, r) := s.rotated y s.a
  { s with a := r }.setF (s.f &&& (FS ||| FZ ||| FP) ||| r &&& (FX ||| FY) ||| c)

def daa (s : Z80State) : Z80State :=
  let c := s.f &&& FC
  let low := flag s.f FH || 9 < (s.a &&& 0x0F).toNat
  let high := c != 0 || 0x99 < s.a.toNat
  let corr := bitIf 0x06 low ||| bitIf 0x60 high
  let r := if flag s.f FN then s.a - corr else s.a + corr
  let h := (s.a ^^^ r) &&& FH
  { s with a := r }.setF (sz53p r ||| s.f &&& FN ||| h ||| if high then FC else c)

/-- X and Y of SCF and CCF, from A and what the last instruction did to the flags. -/
def fromQ (s : Z80State) : BitVec 8 := (s.q ^^^ s.f ||| s.a) &&& (FX ||| FY)

def cpl (s : Z80State) : Z80State :=
  { s with a := ~~~s.a }.setF
    (s.f &&& (FS ||| FZ ||| FP ||| FC) ||| FH ||| FN ||| ~~~s.a &&& (FX ||| FY))

def scf (s : Z80State) : Z80State := s.setF (s.f &&& (FS ||| FZ ||| FP) ||| FC ||| s.fromQ)

def ccf (s : Z80State) : Z80State :=
  s.setF (s.f &&& (FS ||| FZ ||| FP) ||| (if flag s.f FC then FH else FC) ||| s.fromQ)

def add16 (s : Z80State) (r v : BitVec 16) : BitVec 16 × Z80State :=
  let sum := r.setWidth 32 + v.setWidth 32
  let f := s.f &&& (FS ||| FZ ||| FP) ||| bitIf FC (0xFFFF < sum.toNat) |||
    ((r.setWidth 32 ^^^ v.setWidth 32 ^^^ sum) >>> 8).setWidth 8 &&& FH |||
    (sum >>> 8).setWidth 8 &&& (FX ||| FY)
  (sum.setWidth 16, { s with wz := r + 1 }.setF f)

def adc16 (s : Z80State) (v : BitVec 16) : Z80State :=
  let h := s.hl
  let sum := h.toNat + v.toNat + s.carry
  let res := BitVec.ofNat 16 sum
  let high := res.extractLsb' 8 8
  let f := high &&& (FS ||| FX ||| FY) ||| bitIf FZ (res == 0) ||| bitIf FC (0xFFFF < sum) |||
    (h ^^^ v ^^^ res).extractLsb' 8 8 &&& FH
  let f := f ||| bitIf FP ((h ^^^ ~~~v) &&& (h ^^^ res)).msb
  ({ s with wz := h + 1 }.setHl res).setF f

def sbc16 (s : Z80State) (v : BitVec 16) : Z80State :=
  let h := s.hl
  let diff : ℤ := h.toNat - v.toNat - s.carry
  let res := BitVec.ofInt 16 diff
  let high := res.extractLsb' 8 8
  let f := high &&& (FS ||| FX ||| FY) ||| bitIf FZ (res == 0) ||| bitIf FC (diff < 0) ||| FN |||
    (h ^^^ v ^^^ res).extractLsb' 8 8 &&& FH
  let f := f ||| bitIf FP ((h ^^^ v) &&& (h ^^^ res)).msb
  ({ s with wz := h + 1 }.setHl res).setF f

/-- BIT n; `xy` is where X and Y come from. -/
def bit (s : Z80State) (n : ℕ) (v xy : BitVec 8) : Z80State :=
  let b := v &&& 1#8 <<< n
  let f := s.f &&& FC ||| FH ||| xy &&& (FX ||| FY)
  let f := f ||| bitIf (FZ ||| FP) (b == 0)
  s.setF (f ||| bitIf FS (n == 7 && b != 0))

end Z80State

/-! ## Memory and I/O -/

section Access
variable {ω : Type} [PortBus ω]

/-- Change the registers only. -/
def regs (f : Z80State → Z80State) : Exec ω Unit := modify fun c => { c with regs := f c.regs }

/-- Change the registers by what also gives a value. -/
def regsGet {α : Type} (f : Z80State → α × Z80State) : Exec ω α := fun c =>
  let (v, regs) := f c.regs
  (v, { c with regs := regs })

def rd (a : BitVec 16) : Exec ω (BitVec 8) := fun c =>
  let (v, bus) := IBus.read8 c.bus (a.setWidth 32)
  (v, { c with bus := bus })

def wr (a : BitVec 16) (v : BitVec 8) : Exec ω Unit :=
  modify fun c => { c with bus := IBus.write8 c.bus (a.setWidth 32) v }

def rd16 (a : BitVec 16) : Exec ω (BitVec 16) := do
  let lo ← rd a
  let hi ← rd (a + 1)
  return hi ++ lo

def wr16 (a v : BitVec 16) : Exec ω Unit := do
  wr a (v.setWidth 8)
  wr (a + 1) (v.extractLsb' 8 8)

def in_ (port : BitVec 16) : Exec ω (BitVec 8) := fun c =>
  let (v, bus) := PortBus.portRead8 c.bus port
  (v, { c with bus := bus })

def out (port : BitVec 16) (v : BitVec 8) : Exec ω Unit :=
  modify fun c => { c with bus := PortBus.portWrite8 c.bus port v }

def fetch : Exec ω (BitVec 8) := do
  let pc := (← get).regs.pc
  regs fun s => { s with pc := s.pc + 1 }
  rd pc

def fetch16 : Exec ω (BitVec 16) := do
  let v ← rd16 (← get).regs.pc
  regs fun s => { s with pc := s.pc + 2 }
  return v

def push (v : BitVec 16) : Exec ω Unit := do
  regs fun s => { s with sp := s.sp - 2 }
  wr16 (← get).regs.sp v

def pop : Exec ω (BitVec 16) := do
  let v ← rd16 (← get).regs.sp
  regs fun s => { s with sp := s.sp + 2 }
  return v

/-! ## Registers by the opcode's fields -/

/-- IX or IY for the prefix. -/
def Context.idx (c : Context ω) : BitVec 16 := if c.prefix_ = .ix then c.regs.ix else c.regs.iy

def setIdx (v : BitVec 16) : Exec ω Unit :=
  modify fun c => { c with
    regs := if c.prefix_ = .ix then { c.regs with ix := v } else { c.regs with iy := v } }

/-- Fetch d and form (IX+d). -/
def indexed : Exec ω (BitVec 16) := do
  let base := (← get).idx
  let d ← fetch
  let addr := base + d.signExtend 16
  regs fun s => { s with wz := addr }
  return addr

/-- (IX+d) of an instruction that fetches d only once. -/
def displaced : Exec ω (BitVec 16) := do
  if (← get).dispFetched then return (← get).dispAddr
  else
    let addr ← indexed
    modify fun c => { c with dispAddr := addr, dispFetched := true }
    return addr

def reg8 (r : ℕ) : Exec ω (BitVec 8) := do
  let c ← get
  match r with
  | 0 => return c.regs.b
  | 1 => return c.regs.c
  | 2 => return c.regs.d
  | 3 => return c.regs.e
  | 4 => return if c.prefix_ = .none then c.regs.h else c.idx.extractLsb' 8 8
  | 5 => return if c.prefix_ = .none then c.regs.l else c.idx.setWidth 8
  | 6 =>
    if c.prefix_ = .none then rd c.regs.hl
    else
      let addr ← displaced
      rd addr
  | _ => return c.regs.a

def setReg8 (r : ℕ) (v : BitVec 8) : Exec ω Unit := do
  let c ← get
  match r with
  | 0 => regs fun s => { s with b := v }
  | 1 => regs fun s => { s with c := v }
  | 2 => regs fun s => { s with d := v }
  | 3 => regs fun s => { s with e := v }
  | 4 =>
    if c.prefix_ = .none then regs fun s => { s with h := v }
    else setIdx (v ++ c.idx.setWidth 8)
  | 5 =>
    if c.prefix_ = .none then regs fun s => { s with l := v }
    else setIdx (c.idx.extractLsb' 8 8 ++ v)
  | 6 =>
    if c.prefix_ = .none then wr c.regs.hl v
    else
      let addr ← displaced
      wr addr v
  | _ => regs fun s => { s with a := v }

def Context.rp (c : Context ω) : ℕ → BitVec 16
  | 0 => c.regs.bc
  | 1 => c.regs.de
  | 2 => match c.prefix_ with
    | .none => c.regs.hl
    | .ix => c.regs.ix
    | .iy => c.regs.iy
  | _ => c.regs.sp

def setRp (p : ℕ) (v : BitVec 16) : Exec ω Unit :=
  match p with
  | 0 => regs (·.setBc v)
  | 1 => regs (·.setDe v)
  | 2 => modify fun c => { c with
      regs := match c.prefix_ with
        | .none => c.regs.setHl v
        | .ix => { c.regs with ix := v }
        | .iy => { c.regs with iy := v } }
  | _ => regs fun s => { s with sp := v }

def Context.rp2 (c : Context ω) (p : ℕ) : BitVec 16 := if p = 3 then c.regs.af else c.rp p

def setRp2 (p : ℕ) (v : BitVec 16) : Exec ω Unit := if p = 3 then regs (·.setAf v) else setRp p v

end Access
end Mmemu.Source.CpuZ80
