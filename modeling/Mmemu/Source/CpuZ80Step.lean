import Mmemu.Source.CpuZ80

/-!
# Zilog Z80: instructions and the step

Source: src/plugins/z80/main/cpu_z80.cpp. An opcode is its fields x (bits 7 and 6), y (5 to 3)
and z (2 to 0), and y is p and q. The switch on x has a definition for each case.
-/
namespace Mmemu.Source.CpuZ80
open Mmemu.Source.MemoryBus

def opX (op : BitVec 8) : ℕ := (op >>> 6).toNat
def opY (op : BitVec 8) : ℕ := (op >>> 3 &&& 7).toNat
def opZ (op : BitVec 8) : ℕ := (op &&& 7).toNat
def opP (op : BitVec 8) : ℕ := opY op / 2
def opQ (op : BitVec 8) : Bool := opY op % 2 == 1

section Instructions
variable {ω : Type} [PortBus ω]

/-- What a displacement costs. -/
def Context.ext (c : Context ω) : ℕ := if c.prefix_ = .none then 0 else 8

def setPrefix (p : Prefix) : Exec ω Unit := modify fun c => { c with prefix_ := p }

/-- Fetch d and jump by it under a condition; the T-states of both cases. -/
def jr (taken : Z80State → Bool) (yes no : ℕ) : Exec ω ℕ := do
  let d ← fetch
  if taken (← get).regs then
    regs fun s => s.jump (s.pc + d.signExtend 16)
    return yes
  else return no

def djnz : Exec ω ℕ := do
  let d ← fetch
  regs fun s => { s with b := s.b - 1 }
  if (← get).regs.b != 0 then
    regs fun s => s.jump (s.pc + d.signExtend 16)
    return 13
  else return 8

/-- ADD HL, IX or IY with a register pair. -/
def addPair (p : ℕ) : Exec ω ℕ := do
  let c ← get
  let sum ← regsGet (·.add16 (c.rp 2) (c.rp p))
  setRp 2 sum
  return 11

/-- MEMPTR after A went to memory or to a port. -/
def wzAfterA (a : BitVec 8) (addr : BitVec 16) : BitVec 16 := a ++ (addr + 1).setWidth 8

def storeA (addr : BitVec 16) : Exec ω Unit := do
  wr addr (← get).regs.a
  regs fun s => { s with wz := wzAfterA s.a addr }

def loadA (addr : BitVec 16) : Exec ω Unit := do
  let v ← rd addr
  regs fun s => { s with a := v, wz := addr + 1 }

def loadIndirect (y : ℕ) : Exec ω ℕ := do
  match y with
  | 0 =>
    storeA (← get).regs.bc
    return 7
  | 1 =>
    loadA (← get).regs.bc
    return 7
  | 2 =>
    storeA (← get).regs.de
    return 7
  | 3 =>
    loadA (← get).regs.de
    return 7
  | 4 =>
    let a ← fetch16
    wr16 a ((← get).rp 2)
    regs fun s => { s with wz := a + 1 }
    return 16
  | 5 =>
    let a ← fetch16
    let v ← rd16 a
    setRp 2 v
    regs fun s => { s with wz := a + 1 }
    return 16
  | 6 =>
    let a ← fetch16
    storeA a
    return 13
  | _ =>
    let a ← fetch16
    loadA a
    return 13

/-- INC r and DEC r. -/
def stepReg8 (f : Z80State → BitVec 8 → BitVec 8 × Z80State) (y : ℕ) : Exec ω ℕ := do
  let ext := (← get).ext
  let v ← reg8 y
  let r ← regsGet (f · v)
  setReg8 y r
  return if y = 6 then 11 + ext else 4

/-- LD r,n: the displacement comes before n. -/
def loadImmediate (y : ℕ) : Exec ω ℕ := do
  if y = 6 ∧ (← get).prefix_ ≠ .none then
    let addr ← indexed
    modify fun c => { c with dispAddr := addr, dispFetched := true }
    let n ← fetch
    wr addr n
    return 15
  else
    let n ← fetch
    setReg8 y n
    return if y = 6 then 10 else 7

/-- The operations on A and the flags. -/
def accumulator (y : ℕ) : Exec ω ℕ := do
  match y with
  | 0 | 1 | 2 | 3 => regs (·.rotA y)
  | 4 => regs (·.daa)
  | 5 => regs (·.cpl)
  | 6 => regs (·.scf)
  | _ => regs (·.ccf)
  return 4

def execX0 (op : BitVec 8) : Exec ω ℕ := do
  let y := opY op
  match opZ op with
  | 0 => match y with
    | 0 => return 4
    | 1 =>
      regs fun s => { s.setAf s.af2 with af2 := s.af }
      return 4
    | 2 => djnz
    | 3 => jr (fun _ => true) 12 12
    | y => jr (·.cond (y - 4)) 12 7
  | 1 =>
    if !opQ op then
      let nn ← fetch16
      setRp (opP op) nn
      return 10
    else addPair (opP op)
  | 2 => loadIndirect y
  | 3 =>
    let v := (← get).rp (opP op)
    setRp (opP op) (if opQ op then v - 1 else v + 1)
    return 6
  | 4 => stepReg8 Z80State.inc8 y
  | 5 => stepReg8 Z80State.dec8 y
  | 6 => loadImmediate y
  | _ => accumulator y

/-- LD r,r'. Beside (IX+d), H and L are the plain ones. -/
def execX1 (y z : ℕ) : Exec ω ℕ := do
  let save := (← get).prefix_
  let ext := (← get).ext
  if y = 6 ∧ z = 6 then
    regs fun s => { s with halted := true }
    return 4
  else if y = 6 then
    let addr ← if save = .none then pure (← get).regs.hl else indexed
    setPrefix .none
    let v ← reg8 z
    setPrefix save
    wr addr v
    return 7 + ext
  else if z = 6 then
    let v ← reg8 6
    setPrefix .none
    setReg8 y v
    setPrefix save
    return 7 + ext
  else
    let v ← reg8 z
    setReg8 y v
    return 4

def execX2 (y z : ℕ) : Exec ω ℕ := do
  let ext := (← get).ext
  let v ← reg8 z
  regs (·.alu y v)
  return if z = 6 then 7 + ext else 4

def ret : Exec ω Unit := do
  let pc ← pop
  regs (·.jump pc)

/-- CALL, under a condition. -/
def call (taken : Z80State → Bool) : Exec ω ℕ := do
  let a ← fetch16
  regs fun s => { s with wz := a }
  if taken (← get).regs then
    push (← get).regs.pc
    regs fun s => { s with pc := a }
    return 17
  else return 10

def exx (s : Z80State) : Z80State :=
  { ((s.setBc s.bc2).setDe s.de2).setHl s.hl2 with bc2 := s.bc, de2 := s.de, hl2 := s.hl }

/-- The opcodes with x = 3 and z = 3; CB is decoded by the step. -/
def miscellaneous (y : ℕ) : Exec ω ℕ := do
  match y with
  | 0 =>
    let a ← fetch16
    regs (·.jump a)
    return 10
  | 2 =>
    let n ← fetch
    let s := (← get).regs
    out (s.a ++ n) s.a
    regs fun s => { s with wz := wzAfterA s.a (n.setWidth 16) }
    return 11
  | 3 =>
    let n ← fetch
    let port := (← get).regs.a ++ n
    let v ← in_ port
    regs fun s => { s with a := v, wz := port + 1 }
    return 11
  | 4 =>
    let v ← rd16 (← get).regs.sp
    wr16 (← get).regs.sp ((← get).rp 2)
    setRp 2 v
    regs fun s => { s with wz := v }
    return 19
  | 5 =>
    regs fun s => (s.setDe s.hl).setHl s.de
    return 4
  | 6 =>
    regs fun s => { s with iff1 := false, iff2 := false }
    return 4
  | 7 =>
    regs fun s => { s with iff1 := true, iff2 := true, eiDelay := true }
    return 4
  | _ => return 4

def execX3 (op : BitVec 8) : Exec ω ℕ := do
  let y := opY op
  match opZ op with
  | 0 =>
    if (← get).regs.cond y then
      ret
      return 11
    else return 5
  | 1 =>
    if !opQ op then
      let v ← pop
      setRp2 (opP op) v
      return 10
    else match opP op with
      | 0 =>
        ret
        return 10
      | 1 =>
        regs exx
        return 4
      | 2 =>
        let pc := (← get).rp 2
        regs fun s => { s with pc := pc }
        return 4
      | _ =>
        let sp := (← get).rp 2
        regs fun s => { s with sp := sp }
        return 6
  | 2 =>
    let a ← fetch16
    regs fun s => { s with wz := a, pc := if s.cond y then a else s.pc }
    return 10
  | 3 => miscellaneous y
  | 4 => call (·.cond y)
  | 5 =>
    if !opQ op then
      push ((← get).rp2 (opP op))
      return 11
    else if opP op = 0 then call fun _ => true
    else return 4
  | 6 =>
    let n ← fetch
    regs (·.alu y n)
    return 7
  | _ =>
    push (← get).regs.pc
    regs (·.jump (BitVec.ofNat 16 (y * 8)))
    return 11

def execMain (op : BitVec 8) : Exec ω ℕ :=
  match opX op with
  | 0 => execX0 op
  | 1 => execX1 (opY op) (opZ op)
  | 2 => execX2 (opY op) (opZ op)
  | _ => execX3 op

/-! ## The CB and ED opcodes -/

def execCB : Exec ω ℕ := do
  let op ← fetch
  regs (·.incR)
  let y := opY op
  let z := opZ op
  let v ← reg8 z
  match opX op with
  | 0 =>
    let r ← regsGet (·.rot y v)
    setReg8 z r
    return if z = 6 then 15 else 8
  | 1 =>
    regs fun s => s.bit y v (if z = 6 then s.wz.extractLsb' 8 8 else v)
    return if z = 6 then 12 else 8
  | 2 =>
    setReg8 z (v &&& ~~~(1#8 <<< y))
    return if z = 6 then 15 else 8
  | _ =>
    setReg8 z (v ||| 1#8 <<< y)
    return if z = 6 then 15 else 8

/-- The opcode behind the displacement is no M1 cycle. Its result is also copied to the
register that z names. -/
def execIndexCB : Exec ω ℕ := do
  let addr ← indexed
  let op ← fetch
  let y := opY op
  let z := opZ op
  let v ← rd addr
  if opX op = 1 then
    regs (·.bit y v (addr.extractLsb' 8 8))
    return 16
  else
    let r ← match opX op with
      | 0 => regsGet (·.rot y v)
      | 2 => pure (v &&& ~~~(1#8 <<< y))
      | _ => pure (v ||| 1#8 <<< y)
    wr addr r
    if z ≠ 6 then
      setPrefix .none
      setReg8 z r
    return 19

/-- RRD and RLD: `f` gives the new byte at (HL) and the new A. -/
def digitRotate (f : BitVec 8 → BitVec 8 → BitVec 8 × BitVec 8) : Exec ω ℕ := do
  let h := (← get).regs.hl
  let v ← rd h
  let (m, a) := f (← get).regs.a v
  wr h m
  regs fun s => { s with a := a, wz := h + 1 }.setF (s.f &&& FC ||| sz53p a)
  return 18

/-- LD A,I and LD A,R show IFF2 in P. -/
def loadSpecial (f : Z80State → BitVec 8) : Exec ω ℕ := do
  regs fun s => { s with a := f s }.setF (s.f &&& FC ||| sz53 (f s) ||| bitIf FP s.iff2)
  return 9

def interruptMode (y : ℕ) : BitVec 8 :=
  match y with
  | 2 | 6 => 1
  | 3 | 7 => 2
  | _ => 0

def execEDX1 (op : BitVec 8) : Exec ω ℕ := do
  let y := opY op
  match opZ op with
  | 0 =>
    let v ← in_ (← get).regs.bc
    regs fun s => { s with wz := s.bc + 1 }
    if y ≠ 6 then setReg8 y v
    regs fun s => s.setF (s.f &&& FC ||| sz53p v)
    return 12
  | 1 =>
    let v ← if y = 6 then pure 0 else reg8 y
    out (← get).regs.bc v
    regs fun s => { s with wz := s.bc + 1 }
    return 12
  | 2 =>
    let v := (← get).rp (opP op)
    regs fun s => if opQ op then s.adc16 v else s.sbc16 v
    return 15
  | 3 =>
    let a ← fetch16
    if opQ op then
      let v ← rd16 a
      setRp (opP op) v
    else wr16 a ((← get).rp (opP op))
    regs fun s => { s with wz := a + 1 }
    return 20
  | 4 =>
    regs fun s => { s with a := 0 }.alu 2 s.a
    return 8
  | 5 =>
    regs fun s => { s with iff1 := s.iff2 }
    ret
    return 14
  | 6 =>
    regs fun s => { s with im := interruptMode y }
    return 8
  | _ => match y with
    | 0 =>
      regs fun s => { s with i := s.a }
      return 9
    | 1 =>
      regs fun s => { s with r := s.a }
      return 9
    | 2 => loadSpecial (·.i)
    | 3 => loadSpecial (·.r)
    | 4 => digitRotate fun a v => (a <<< 4 ||| v >>> 4, a &&& 0xF0 ||| v &&& 0x0F)
    | 5 => digitRotate fun a v => (v <<< 4 ||| a &&& 0x0F, a &&& 0xF0 ||| v >>> 4)
    | _ => return 8

/-- 1 or -1 for a pointer. -/
def direction (dec : Bool) : BitVec 16 := if dec then 0xFFFF else 1

/-- X and Y of LDI and CPI and the like. -/
def xyOf (n : BitVec 8) : BitVec 8 := n &&& FX ||| n <<< 4 &&& FY

/-- Repeat the instruction, or go on. -/
def again (rep : Bool) (wz : Bool) : Exec ω ℕ := do
  if rep then
    regs fun s => { s with pc := s.pc - 2, wz := if wz then s.pc - 1 else s.wz }
    return 21
  else return 16

/-- LDI, LDD, LDIR and LDDR. -/
def blockLoad (dec rep : Bool) : Exec ω ℕ := do
  let s := (← get).regs
  let v ← rd s.hl
  wr s.de v
  let count := s.bc - 1
  let n := v + s.a
  regs fun s =>
    (((s.setHl (s.hl + direction dec)).setDe (s.de + direction dec)).setBc count).setF
      (s.f &&& (FS ||| FZ ||| FC) ||| bitIf FP (count != 0) ||| xyOf n)
  again (rep && count != 0) true

/-- CPI, CPD, CPIR and CPDR. -/
def blockCompare (dec rep : Bool) : Exec ω ℕ := do
  let s := (← get).regs
  let v ← rd s.hl
  let r := s.a - v
  let count := s.bc - 1
  let hf := (s.a ^^^ v ^^^ r) &&& FH
  let n := r - if hf = 0 then 0 else 1
  regs fun s =>
    { (s.setHl (s.hl + direction dec)).setBc count with wz := s.wz + direction dec }.setF
      (s.f &&& FC ||| r &&& FS ||| bitIf FZ (r == 0) ||| hf ||| FN ||| bitIf FP (count != 0) |||
        xyOf n)
  again (rep && count != 0 && r != 0) true

/-- The flags of block I/O, from B, the byte and the sum it takes part in. -/
def blockIoFlags (b v : BitVec 8) (k : ℕ) : BitVec 8 :=
  sz53 b ||| bitIf FN v.msb ||| bitIf (FH ||| FC) (0xFF < k) |||
    parity (BitVec.ofNat 8 k &&& 7 ^^^ b)

/-- INI, IND, INIR and INDR. -/
def blockIn (dec rep : Bool) : Exec ω ℕ := do
  let s := (← get).regs
  let v ← in_ s.bc
  wr s.hl v
  let b := s.b - 1
  let k := v.toNat + (s.c + if dec then 0xFF else 1).toNat
  regs fun s =>
    { s.setHl (s.hl + direction dec) with wz := s.bc + direction dec, b := b }.setF
      (blockIoFlags b v k)
  again (rep && b != 0) false

/-- OUTI, OUTD, OTIR and OTDR: B counts before it is on the bus. -/
def blockOut (dec rep : Bool) : Exec ω ℕ := do
  let s := (← get).regs
  let v ← rd s.hl
  let b := s.b - 1
  out (b ++ s.c) v
  let hl := s.hl + direction dec
  let k := v.toNat + (hl.setWidth 8).toNat
  regs fun s =>
    { s.setHl hl with wz := (b ++ s.c) + direction dec, b := b }.setF (blockIoFlags b v k)
  again (rep && b != 0) false

def execED : Exec ω ℕ := do
  let op ← fetch
  regs (·.incR)
  let y := opY op
  if opX op = 1 then execEDX1 op
  else if opX op = 2 ∧ 4 ≤ y ∧ opZ op ≤ 3 then
    let dec := y % 2 == 1
    let rep := decide (6 ≤ y)
    match opZ op with
    | 0 => blockLoad dec rep
    | 1 => blockCompare dec rep
    | 2 => blockIn dec rep
    | _ => blockOut dec rep
  else return 8

end Instructions

/-! ## The step -/

/-- A core: what its instructions work on, its lines and the cycle counter. -/
structure Z80 (ω : Type) where
  context : Context ω
  irqLine : Bool
  nmiLine : Bool
  nmiPending : Bool
  cycles : BitVec 64

/-- The callbacks of an execution observer; they see the core and change the world only. The
entry that onStep is given is a function of memory and PC, which the observer sees. -/
structure ExecutionObserver (ω : Type) where
  needsDisasm : Bool
  onStep : Z80 ω → Bool × ω
  onStepLite : Z80 ω → ω

/-- Configured intercepts, which run instead of the instruction at an address. -/
structure PcInterceptHook (ω : Type) where
  armed : BitVec 16 → Bool
  fire : Z80 ω → Bool × Z80 ω

structure Wiring (ω : Type) where
  observer : Option (ExecutionObserver ω)
  pcHook : Option (PcInterceptHook ω)

section Step
variable {ω : Type} [PortBus ω]

/-- An armed intercept that serves the routine at PC. -/
def intercept (w : Wiring ω) (c : Z80 ω) : Bool × Z80 ω :=
  match w.pcHook with
  | some hook => if hook.armed c.context.regs.pc then hook.fire c else (false, c)
  | none => (false, c)

/-- Enter the NMI routine, or the maskable one of the interrupt mode. -/
def interrupt (nmi : Bool) : Exec ω ℕ := do
  regs fun s => { s with halted := false }
  if nmi then
    regs fun s => { s with iff1 := false }.incR
    push (← get).regs.pc
    regs (·.jump 0x0066)
    return 11
  else
    regs fun s => { s with iff1 := false, iff2 := false }.incR
    push (← get).regs.pc
    if (← get).regs.im = 2 then
      let vec := (← get).regs.i ++ 0xFF#8
      let pc ← rd16 vec
      regs (·.jump pc)
      return 19
    else
      regs (·.jump 0x0038)
      return 13

/-- Show the instruction at PC to the observer; false stops it. -/
def observe (w : Wiring ω) (c : Z80 ω) : Bool × Z80 ω :=
  match w.observer with
  | none => (true, c)
  | some obs =>
    if obs.needsDisasm then
      let (cont, bus) := obs.onStep c
      (cont, { c with context := { c.context with bus := bus } })
    else (true, { c with context := { c.context with bus := obs.onStepLite c } })

def isPrefix (op : BitVec 8) : Bool := op == 0xDD || op == 0xFD

/-- Fetch an opcode byte of an M1 cycle. -/
def fetchM1 : Exec ω (BitVec 8) := do
  let op ← fetch
  regs (·.incR)
  return op

/-- The prefix loop: each round takes a prefix and fetches the next byte, and the last prefix
wins. Nothing where the rounds run out. -/
def prefixLoop : ℕ → BitVec 8 → ℕ → Context ω → Option (BitVec 8 × ℕ × Context ω)
  | rounds, op, t, c =>
    if isPrefix op then
      match rounds with
      | 0 => none
      | rounds + 1 =>
        let (next, c') := fetchM1 { c with prefix_ := if op = 0xDD then .ix else .iy }
        prefixLoop rounds next (t + 4) c'
    else some (op, t, c)

/-- The instruction behind the prefixes. -/
def decoded (op : BitVec 8) : Exec ω ℕ := do
  if op = 0xCB then
    if (← get).prefix_ = .none then execCB else execIndexCB
  else if op = 0xED then
    setPrefix .none
    execED
  else execMain op

/-- The registers as an instruction starts. -/
def Context.started (c : Context ω) : Context ω :=
  { c with
    regs := { c.regs with q := c.regs.qNext, qNext := 0 }
    prefix_ := .none
    dispFetched := false }

/-- Execute what is behind the prefixes, which took `t` T-states. -/
def finish (op : BitVec 8) (t : ℕ) (c : Context ω) : ℕ × Context ω :=
  let (more, c) := decoded op c
  (t + more, { c with prefix_ := .none })

/-- Fetch, decode and execute the instruction at PC. -/
def execute (rounds : ℕ) (c : Context ω) : Option (ℕ × Context ω) :=
  let (first, c) := fetchM1 c.started
  (prefixLoop rounds first 0 c).map fun (op, t, c) => finish op t c

def Z80.addCycles (c : Z80 ω) (t : ℕ) : Z80 ω := { c with cycles := c.cycles + BitVec.ofNat 64 t }

/-- Change the registers only. -/
def Z80.withRegs (c : Z80 ω) (f : Z80State → Z80State) : Z80 ω :=
  { c with context := { c.context with regs := f c.context.regs } }

/-- /INT is sampled by level. -/
def Z80.setIrqLine (c : Z80 ω) (asserted : Bool) : Z80 ω := { c with irqLine := asserted }

/-- A rising edge of /NMI is pending until it is taken. -/
def Z80.setNmiLine (c : Z80 ω) (asserted : Bool) : Z80 ω :=
  { c with nmiPending := c.nmiPending || asserted && !c.nmiLine, nmiLine := asserted }

def Z80.triggerNmi (c : Z80 ω) : Z80 ω := { c with nmiPending := true }

/-- The maskable interrupt is let in between instructions, but not right after EI. -/
def Z80.irqTaken (c : Z80 ω) : Bool :=
  c.irqLine && c.context.regs.iff1 && !c.context.regs.eiDelay

/-- The core with what an instruction has left. -/
def Z80.after (c : Z80 ω) (out : ℕ × Context ω) : ℕ × Z80 ω :=
  (out.1, { c with context := out.2 }.addCycles out.1)

/-- A step, with the rounds its prefix loop may take. -/
def step (w : Wiring ω) (rounds : ℕ) (c : Z80 ω) : Option (ℕ × Z80 ω) :=
  let (served, c) := intercept w c
  if served then some (4, c.addCycles 4)
  else if c.nmiPending || c.irqTaken then
    let (t, context) := interrupt c.nmiPending c.context
    let c := { c with context := context, nmiPending := false }.withRegs fun s =>
      { s with q := 0, qNext := 0 }
    some (t, c.addCycles t)
  else
    let c := c.withRegs fun s => { s with eiDelay := false }
    if c.context.regs.halted then some (4, (c.withRegs (·.incR)).addCycles 4)
    else
      let (cont, c) := observe w c
      if cont then (execute rounds c.context).map c.after else some (1, c)

end Step
end Mmemu.Source.CpuZ80

/-!
# Zilog Z80: the parts of a step

A step serves an intercept, takes an interrupt, idles in HALT, or shows the instruction at PC to
the observer and executes it. More rounds of the prefix loop do not change what a step does.
-/
namespace Mmemu.Source.CpuZ80
open Mmemu.Source.MemoryBus

variable {ω : Type}

/-! ## The exits -/

/-- EI's delay is over. -/
def Z80State.sampled (s : Z80State) : Z80State := { s with eiDelay := false }

def Z80.sampled (c : Z80 ω) : Z80 ω := c.withRegs (·.sampled)

/-- An interrupt is taken in place of an instruction. -/
def Z80.interrupted (c : Z80 ω) : Bool := c.nmiPending || c.irqTaken

/-- The step executes an instruction: it takes no interrupt, and the core is not halted. -/
def Z80.executes (c : Z80 ω) : Bool := !c.interrupted && !c.context.regs.halted

variable [PortBus ω]

/-- The core that has entered an interrupt routine. -/
def Z80.enter (c : Z80 ω) : ℕ × Z80 ω :=
  let (t, context) := interrupt c.nmiPending c.context
  let c := { c with context := context, nmiPending := false }.withRegs fun s =>
    { s with q := 0, qNext := 0 }
  (t, c.addCycles t)

/-- A step that no intercept serves. -/
def proceed (w : Wiring ω) (rounds : ℕ) (c : Z80 ω) : Option (ℕ × Z80 ω) :=
  if c.interrupted then some c.enter
  else if c.context.regs.halted then some (4, (c.sampled.withRegs (·.incR)).addCycles 4)
  else
    let (cont, c) := observe w c.sampled
    if cont then (execute rounds c.context).map c.after else some (1, c)

theorem step_eq (w : Wiring ω) (rounds : ℕ) (c : Z80 ω) :
    step w rounds c =
      if (intercept w c).1 then some (4, (intercept w c).2.addCycles 4)
      else proceed w rounds (intercept w c).2 := rfl

theorem proceed_executes {w : Wiring ω} {rounds : ℕ} {c : Z80 ω} (h : c.executes = true) :
    proceed w rounds c =
      if (observe w c.sampled).1 then
        (execute rounds (observe w c.sampled).2.context).map (observe w c.sampled).2.after
      else some (1, (observe w c.sampled).2) := by
  simp only [Z80.executes, Bool.and_eq_true, Bool.not_eq_true'] at h
  unfold proceed
  rw [if_neg (by simp [h.1]), if_neg (by simp [h.2])]

/-! ## More rounds -/

theorem prefixLoop_mono {n m : ℕ} (le : n ≤ m) {op : BitVec 8} {t : ℕ} {c : Context ω}
    {out : BitVec 8 × ℕ × Context ω} (h : prefixLoop n op t c = some out) :
    prefixLoop m op t c = some out := by
  induction n generalizing op t c m with
  | zero =>
    unfold prefixLoop at h ⊢
    split at h
    · cases h
    next plain => rwa [if_neg plain]
  | succ n ih =>
    obtain ⟨m, rfl⟩ : ∃ m', m = m' + 1 := ⟨m - 1, by omega⟩
    unfold prefixLoop at h ⊢
    split at h
    next more =>
      rw [if_pos more]
      exact ih (by omega) h
    next plain => rwa [if_neg plain]

theorem execute_mono {n m : ℕ} (le : n ≤ m) {c : Context ω} {out : ℕ × Context ω}
    (h : execute n c = some out) : execute m c = some out := by
  obtain ⟨found, looped, rfl⟩ := Option.map_eq_some_iff.mp h
  exact Option.map_eq_some_iff.mpr ⟨found, prefixLoop_mono le looped, rfl⟩

theorem step_mono {w : Wiring ω} {n m : ℕ} (le : n ≤ m) {c : Z80 ω} {out : ℕ × Z80 ω}
    (h : step w n c = some out) : step w m c = some out := by
  rw [step_eq] at h ⊢
  split at h
  next served => rwa [if_pos served]
  next declined =>
    rw [if_neg declined]
    cases executes : (intercept w c).2.executes with
    | false =>
      have same (rounds : ℕ) : proceed w rounds (intercept w c).2 =
          proceed w n (intercept w c).2 := by
        simp only [Z80.executes, Bool.and_eq_false_iff, Bool.not_eq_false'] at executes
        unfold proceed
        rcases executes with taken | halted
        · rw [if_pos taken, if_pos taken]
        · rw [if_pos halted, if_pos halted]
      rwa [same m]
    | true =>
      rw [proceed_executes executes] at h ⊢
      split at h
      next cont =>
        rw [if_pos cont]
        obtain ⟨done, ran, rfl⟩ := Option.map_eq_some_iff.mp h
        rw [execute_mono le ran]
        rfl
      next refused => rwa [if_neg refused]

/-- A step that returns with any rounds returns the same with any others. -/
theorem step_unique {w : Wiring ω} {n m : ℕ} {c : Z80 ω} {out out' : ℕ × Z80 ω}
    (h : step w n c = some out) (h' : step w m c = some out') : out = out' := by
  rcases Nat.le_total n m with le | le
  · exact Option.some.inj ((step_mono le h).symm.trans h')
  · exact Option.some.inj (h.symm.trans (step_mono le h'))

/-! ## Time -/

/-- The T-states returned by a step that goes on are those counted. -/
theorem enter_cycles (c : Z80 ω) : c.enter.2.cycles = c.cycles + BitVec.ofNat 64 c.enter.1 := rfl

omit [PortBus ω] in
theorem after_cycles (c : Z80 ω) (out : ℕ × Context ω) :
    (c.after out).2.cycles = c.cycles + BitVec.ofNat 64 (c.after out).1 := rfl

end Mmemu.Source.CpuZ80
