import Mathlib.Data.BitVec

/-!
# MOS 6522 VIA: registers, timers, control lines and interrupts

Source: src/plugins/devices/via6522/main/via6522.cpp and via6522.h. A control
line is the chip's own conduit, a line attached from outside, or nothing. What
leaves the chip through port devices and callbacks is not kept; a port device's
pins are an input of a read, and of a peek. The `pbN` proxies only read ORB.
-/
namespace Mmemu.Source.Via6522

inductive Reg where
  | orb | ora | ddrb | ddra | t1cl | t1ch | t1ll | t1lh
  | t2cl | t2ch | sr | acr | pcr | ifr | ier | iora2
  deriving DecidableEq, Repr

/-- The register selected by the low four address bits. -/
def Reg.decode (addr : BitVec 32) : Reg :=
  match (addr &&& 0xF).toNat with
  | 0x0 => .orb | 0x1 => .ora | 0x2 => .ddrb | 0x3 => .ddra
  | 0x4 => .t1cl | 0x5 => .t1ch | 0x6 => .t1ll | 0x7 => .t1lh
  | 0x8 => .t2cl | 0x9 => .t2ch | 0xA => .sr | 0xB => .acr
  | 0xC => .pcr | 0xD => .ifr | 0xE => .ier | _ => .iora2

/-- What a control line pointer refers to. -/
inductive Attached where
  | none
  | conduit
  | external (level : Bool)
  deriving DecidableEq, Repr

/-- A control line: the level of the chip's own conduit, the line in use, and the
level last sampled from it. -/
structure Pin where
  conduit : Bool
  line : Attached
  prev : Bool
  deriving DecidableEq, Repr

/-- The level of the line in use. -/
def Pin.level (p : Pin) : Option Bool :=
  match p.line with
  | .none => Option.none
  | .conduit => some p.conduit
  | .external level => some level

/-- `driveCA2` and `driveCB2`: set the line in use, if there is one. -/
def Pin.drive (level : Bool) (p : Pin) : Pin :=
  match p.line with
  | .none => p
  | .conduit => { p with conduit := level }
  | .external _ => { p with line := .external level }

/-- The interrupt registers, and the line they drive, when one is attached. -/
structure Irq where
  ifr : BitVec 8
  ier : BitVec 8
  lastIrq : Bool
  irqLine : Option Bool
  deriving DecidableEq, Repr

/-- `m_t1Latch`, `m_t1Counter`, `m_t1Active`. -/
structure T1 where
  latch : BitVec 16
  counter : BitVec 16
  active : Bool
  deriving DecidableEq, Repr

structure T2 where
  counter : BitVec 16
  active : Bool
  deriving DecidableEq, Repr

structure Via where
  baseAddr : BitVec 32
  orb : BitVec 8
  ora : BitVec 8
  ddrb : BitVec 8
  ddra : BitVec 8
  t2cl : BitVec 8
  sr : BitVec 8
  acr : BitVec 8
  pcr : BitVec 8
  irq : Irq
  t1 : T1
  t2 : T2
  ca1 : Pin
  ca2 : Pin
  cb1 : Pin
  cb2 : Pin
  paInPins : BitVec 8
  paInUsed : Bool
  deriving DecidableEq, Repr

/-! ## Interrupts -/

/-- An enabled flag is set. -/
def irqAsserted (ifr ier : BitVec 8) : Bool := decide (ifr &&& ier &&& 0x7F ≠ 0#8)

def Irq.updateIrq (i : Irq) : Irq :=
  let irq := irqAsserted i.ifr i.ier
  let ifr := if irq then i.ifr ||| 0x80 else i.ifr &&& ~~~0x80
  if irq = i.lastIrq then { i with ifr := ifr }
  else { i with ifr := ifr, irqLine := i.irqLine.map fun _ => irq, lastIrq := irq }

/-- `m_regs[IFR] |= flag; updateIrq()`. -/
def Irq.raise (flag : BitVec 8) (i : Irq) : Irq := { i with ifr := i.ifr ||| flag }.updateIrq

/-- `m_regs[IFR] &= ~flags; updateIrq()`. -/
def Irq.clear (flags : BitVec 8) (i : Irq) : Irq :=
  { i with ifr := i.ifr &&& ~~~flags }.updateIrq

/-! ## Reset -/

def reset (s : Via) : Via :=
  { s with
    orb := 0, ora := 0, ddrb := 0, ddra := 0, t2cl := 0, sr := 0, acr := 0, pcr := 0
    irq := { ifr := 0, ier := 0, lastIrq := false, irqLine := s.irq.irqLine.map fun _ => false }
    t1 := { latch := 0xFFFF, counter := 0, active := false }
    t2 := { counter := 0, active := false }
    ca1 := { s.ca1 with prev := true }
    ca2 := { s.ca2 with prev := true }.drive true
    cb1 := { s.cb1 with prev := true }
    cb2 := { s.cb2 with prev := true }.drive true }

/-- The chip as constructed: with a name and an address its lines are the
conduits, by the default constructor they are left open. -/
def init (baseAddr : BitVec 32) (line : Attached) : Via :=
  let pin : Pin := { conduit := true, line := line, prev := true }
  reset
    { baseAddr := baseAddr, orb := 0, ora := 0, ddrb := 0, ddra := 0, t2cl := 0, sr := 0, acr := 0
      pcr := 0, irq := { ifr := 0, ier := 0, lastIrq := false, irqLine := none }
      t1 := { latch := 0, counter := 0, active := false }, t2 := { counter := 0, active := false }
      ca1 := pin, ca2 := pin, cb1 := pin, cb2 := pin, paInPins := 0xFF, paInUsed := false }

/-! ## Control lines -/

def driveCA2 (level : Bool) (s : Via) : Via := { s with ca2 := s.ca2.drive level }
def driveCB2 (level : Bool) (s : Via) : Via := { s with cb2 := s.cb2.drive level }

/-- CA2 or CB2 after an access to the port, by its control mode: a handshake
leaves it low, a pulse returns it high. -/
def handshake (mode : BitVec 8) (drive : Bool → Via → Via) (s : Via) : Via :=
  if mode = 0x04 then drive false s
  else if mode = 0x05 then drive true (drive false s)
  else s

/-- A manual output mode drives the line at once. -/
def manual (mode : BitVec 8) (drive : Bool → Via → Via) (s : Via) : Via :=
  if mode = 0x06 then drive false s
  else if mode = 0x07 then drive true s
  else s

/-- The edge a control bit selects: rising when it is set. -/
def activeEdge (rising prev level : Bool) : Bool := if rising then !prev && level else prev && !level

/-- An active CA1 edge; in CA2 handshake mode it releases CA2. -/
def ca1Edge (s : Via) : Via :=
  let s := if s.pcr &&& 0x0E = 0x08 then driveCA2 true s else s
  { s with irq := s.irq.raise 0x02 }

/-- An active CB1 edge; in CB2 handshake mode it releases CB2. -/
def cb1Edge (s : Via) : Via :=
  let s := if s.pcr &&& 0xE0 = 0x80 then driveCB2 true s else s
  { s with irq := s.irq.raise 0x10 }

/-- `CA1Conduit::set`: the edge is that of the conduit's own level. -/
def setCA1 (s : Via) (level : Bool) : Via :=
  let prev := s.ca1.conduit
  let s := { s with ca1.conduit := level }
  let s := if activeEdge (s.pcr &&& 0x01 ≠ 0#8) prev level then ca1Edge s else s
  { s with ca1.prev := level }

/-- `CB1Conduit::set`. -/
def setCB1 (s : Via) (level : Bool) : Via :=
  let prev := s.cb1.conduit
  let s := { s with cb1.conduit := level }
  let s := if activeEdge (s.pcr &&& 0x10 ≠ 0#8) prev level then cb1Edge s else s
  { s with cb1.prev := level }

/-! ## Register access -/

def lo (w : BitVec 16) : BitVec 8 := w.setWidth 8
def hi (w : BitVec 16) : BitVec 8 := (w >>> 8).setWidth 8
def setLo (w : BitVec 16) (val : BitVec 8) : BitVec 16 := (w &&& 0xFF00) ||| val.setWidth 16
def setHi (w : BitVec 16) (val : BitVec 8) : BitVec 16 := (w &&& 0x00FF) ||| (val.setWidth 16 <<< 8)

/-- Port A: with a device or a driven input pin, input bits come from the pins. -/
def portA (s : Via) (device : Option (BitVec 8)) : BitVec 8 :=
  if device.isSome || s.paInUsed then
    let pins := device.getD 0xFF &&& s.paInPins
    (s.ora &&& s.ddra) ||| (pins &&& ~~~s.ddra)
  else s.ora

/-- Port B: input bits come from a device. -/
def portB (s : Via) (device : Option (BitVec 8)) : BitVec 8 :=
  match device with
  | some pins => (s.orb &&& s.ddrb) ||| (pins &&& ~~~s.ddrb)
  | none => s.orb

/-- An access to ORA: the CA1 flag is cleared, the CA2 flag too when CA2 is a
dependent input, and an output CA2 answers. -/
def accessORA (s : Via) : Via :=
  let flags := if s.pcr &&& 0x08 = 0 ∧ s.pcr &&& 0x02 = 0 then 0x03 else 0x02
  handshake ((s.pcr >>> 1) &&& 0x07) driveCA2 { s with irq := s.irq.clear flags }

/-- An access to ORB. -/
def accessORB (s : Via) : Via :=
  let flags := if s.pcr &&& 0x80 = 0 ∧ s.pcr &&& 0x20 = 0 then 0x18 else 0x10
  handshake ((s.pcr >>> 5) &&& 0x07) driveCB2 { s with irq := s.irq.clear flags }

/-- A register read. `peek` returns the value without the read's side effects. -/
def readReg (s : Via) (addr : BitVec 32) (peek : Bool) (pinsA pinsB : Option (BitVec 8)) :
    Option (BitVec 8) × Via :=
  if addr &&& ~~~0x0F ≠ s.baseAddr then (none, s)
  else match Reg.decode addr with
    | .ora => (some (portA s pinsA), if peek then s else accessORA s)
    | .iora2 => (some (portA s pinsA), s)
    | .orb => (some (portB s pinsB), if peek then s else accessORB s)
    | .t1cl => (some (lo s.t1.counter), if peek then s else { s with irq := s.irq.clear 0x40 })
    | .t1ch => (some (hi s.t1.counter), s)
    | .t2cl => (some (lo s.t2.counter), if peek then s else { s with irq := s.irq.clear 0x20 })
    | .t2ch => (some (hi s.t2.counter), s)
    | .ifr => (some s.irq.ifr, s)
    -- no write stores into `m_regs[T1LL]` or `m_regs[T1LH]`: the latch is kept apart
    | .t1ll | .t1lh => (some 0, s)
    | .ddrb => (some s.ddrb, s)
    | .ddra => (some s.ddra, s)
    | .sr => (some s.sr, s)
    | .acr => (some s.acr, s)
    | .pcr => (some s.pcr, s)
    | .ier => (some s.irq.ier, s)

def ioRead (s : Via) (addr : BitVec 32) (pinsA pinsB : Option (BitVec 8)) :
    Option (BitVec 8) × Via := readReg s addr false pinsA pinsB

def ioPeek (s : Via) (addr : BitVec 32) (pinsA pinsB : Option (BitVec 8)) :
    Option (BitVec 8) := (readReg s addr true pinsA pinsB).1

/-- `VIA6522::ioWrite`; the flag says whether the chip owns the address. -/
def ioWrite (s : Via) (addr : BitVec 32) (val : BitVec 8) : Bool × Via :=
  if addr &&& ~~~0x0F ≠ s.baseAddr then (false, s)
  else (true, match Reg.decode addr with
    | .ora => accessORA { s with ora := val }
    | .iora2 => { s with ora := val }
    | .orb => accessORB { s with orb := val }
    | .ddra => { s with ddra := val }
    | .ddrb => { s with ddrb := val }
    | .t1cl | .t1ll => { s with t1.latch := setLo s.t1.latch val }
    | .t1ch =>
      let latch := setHi s.t1.latch val
      { s with t1 := { latch := latch, counter := latch, active := true }
               irq := s.irq.clear 0x40 }
    | .t1lh => { s with t1.latch := setHi s.t1.latch val, irq := s.irq.clear 0x40 }
    | .t2cl => { s with t2cl := val }
    | .t2ch =>
      { s with t2 := { counter := (val.setWidth 16 <<< 8) ||| s.t2cl.setWidth 16, active := true }
               irq := s.irq.clear 0x20 }
    | .ifr => { s with irq := s.irq.clear (val &&& 0x7F) }
    | .ier =>
      let ier := if val &&& 0x80 ≠ 0#8 then s.irq.ier ||| (val &&& 0x7F)
        else s.irq.ier &&& ~~~(val &&& 0x7F)
      { s with irq := { s.irq with ier := ier }.updateIrq }
    | .pcr =>
      manual ((val >>> 5) &&& 0x07) driveCB2 (manual ((val >>> 1) &&& 0x07) driveCA2
        { s with pcr := val })
    | .sr => { s with sr := val }
    | .acr => { s with acr := val })

/-! ## Tick -/

/-- CA1 in `tick`: its edge is that of the line in use against the last sample. -/
def sampleCA1 (s : Via) : Via :=
  match s.ca1.level with
  | none => s
  | some lvl =>
    let s := if activeEdge (s.pcr &&& 0x01 ≠ 0#8) s.ca1.prev lvl then ca1Edge s else s
    { s with ca1.prev := lvl }

/-- CA2 in `tick`, sampled only while it is an input. -/
def sampleCA2 (s : Via) : Via :=
  if s.pcr &&& 0x08 ≠ 0#8 then s
  else match s.ca2.level with
    | none => s
    | some lvl =>
      let edge := activeEdge (s.pcr &&& 0x04 ≠ 0#8) s.ca2.prev lvl
      { s with irq := if edge then s.irq.raise 0x01 else s.irq, ca2.prev := lvl }

def sampleCB1 (s : Via) : Via :=
  match s.cb1.level with
  | none => s
  | some lvl =>
    let s := if activeEdge (s.pcr &&& 0x10 ≠ 0#8) s.cb1.prev lvl then cb1Edge s else s
    { s with cb1.prev := lvl }

def sampleCB2 (s : Via) : Via :=
  if s.pcr &&& 0x80 ≠ 0#8 then s
  else match s.cb2.level with
    | none => s
    | some lvl =>
      let edge := activeEdge (s.pcr &&& 0x40 ≠ 0#8) s.cb2.prev lvl
      { s with irq := if edge then s.irq.raise 0x08 else s.irq, cb2.prev := lvl }

def sampleLines (s : Via) : Via := sampleCB2 (sampleCB1 (sampleCA2 (sampleCA1 s)))

/-- Timer 1 in `tick`; `cycles` is taken modulo 2^16. -/
def tickT1 (s : Via) (cycles : ℕ) : Via :=
  if !s.t1.active then s
  else
    let c := BitVec.ofNat 16 cycles
    let t1 := { s.t1 with counter := s.t1.counter - c }
    if s.t1.counter < c then
      if s.acr &&& 0x40 ≠ 0#8 then
        { s with t1 := { t1 with counter := t1.latch }, irq := s.irq.raise 0x40 }
      else { s with t1 := { t1 with active := false }, irq := s.irq.raise 0x40 }
    else { s with t1 := t1 }

/-- Timer 2 in `tick`: interval mode, one shot. -/
def tickT2 (s : Via) (cycles : ℕ) : Via :=
  if !s.t2.active then s
  else
    let c := BitVec.ofNat 16 cycles
    if s.t2.counter < c then
      { s with t2 := { counter := s.t2.counter - c, active := false }, irq := s.irq.raise 0x20 }
    else { s with t2 := { s.t2 with counter := s.t2.counter - c } }

def tick (s : Via) (cycles : ℕ) : Via := tickT2 (tickT1 (sampleLines s) cycles) cycles

/-! ## Lines from outside, and reachable states -/

/-- A level put on the line in use from outside. -/
def Pin.setExternal (level : Bool) (p : Pin) : Pin :=
  match p.line with
  | .external _ => { p with line := .external level }
  | _ => p

/-- What the outside can do to the chip. A conduit of CA1 or CB1 sees its edge at
once; every other line is looked at in `tick`. -/
inductive Op where
  | reset
  | read (addr : BitVec 32) (pinsA pinsB : Option (BitVec 8))
  | write (addr : BitVec 32) (val : BitVec 8)
  | tick (cycles : ℕ)
  | conduitCA1 (level : Bool)
  | conduitCA2 (level : Bool)
  | conduitCB1 (level : Bool)
  | conduitCB2 (level : Bool)
  | externalLines (ca1 ca2 cb1 cb2 : Bool)
  | setLines (ca1 ca2 cb1 cb2 : Attached)
  | setIrqLine (line : Option Bool)
  | portAPins (used : Bool) (pins : BitVec 8)
  | setBaseAddr (addr : BitVec 32)
  deriving Repr

def apply (s : Via) : Op → Via
  | .reset => reset s
  | .read addr pinsA pinsB => (ioRead s addr pinsA pinsB).2
  | .write addr val => (ioWrite s addr val).2
  | .tick cycles => tick s cycles
  | .conduitCA1 level => setCA1 s level
  | .conduitCA2 level => { s with ca2.conduit := level }
  | .conduitCB1 level => setCB1 s level
  | .conduitCB2 level => { s with cb2.conduit := level }
  | .externalLines ca1 ca2 cb1 cb2 =>
    { s with ca1 := s.ca1.setExternal ca1, ca2 := s.ca2.setExternal ca2
             cb1 := s.cb1.setExternal cb1, cb2 := s.cb2.setExternal cb2 }
  | .setLines ca1 ca2 cb1 cb2 =>
    { s with ca1.line := ca1, ca2.line := ca2, cb1.line := cb1, cb2.line := cb2 }
  | .setIrqLine line => { s with irq.irqLine := line }
  | .portAPins used pins => { s with paInUsed := used, paInPins := pins }
  | .setBaseAddr addr => { s with baseAddr := addr }

/-- A state some sequence of operations leads to from a new chip. -/
def Reachable (s : Via) : Prop :=
  ∃ (base : BitVec 32) (line : Attached) (ops : List Op), ops.foldl apply (init base line) = s

end Mmemu.Source.Via6522

/-!
# VIA 6522: the interrupt line follows the flags

`updateIrq` recomputes the summary bit and the line. Every operation that touches
the flags or the enables ends in it, so in every reachable state both are up to
date, and flags raised one by one count as flags raised together.
-/
namespace Mmemu.Source.Via6522

/-- The summary bit and the last level driven are those of the enabled flags. -/
structure Irq.Settled (i : Irq) : Prop where
  summary : i.ifr &&& 0x80 ≠ 0#8 ↔ irqAsserted i.ifr i.ier = true
  driven : i.lastIrq = irqAsserted i.ifr i.ier

/-! ## Flags and the summary bit -/

theorem irqAsserted_or (x y e : BitVec 8) :
    irqAsserted (x ||| y) e = (irqAsserted x e || irqAsserted y e) := by
  simp only [irqAsserted, BitVec.and_or_distrib_right, ne_eq, BitVec.or_eq_zero_iff, not_and_or,
    Bool.decide_or]

@[simp] theorem irqAsserted_summary (e : BitVec 8) : irqAsserted 0x80#8 e = false := by
  have masked : 0x80#8 &&& e &&& 0x7F#8 = 0#8 := by
    rw [BitVec.and_comm 0x80#8 e, BitVec.and_assoc]
    simp
  simp [irqAsserted, masked]

theorem irqAsserted_clearSummary (x e : BitVec 8) :
    irqAsserted (x &&& ~~~0x80) e = irqAsserted x e := by
  have same : x &&& ~~~0x80 &&& e &&& 0x7F = x &&& e &&& 0x7F := by
    have mask : (~~~0x80 : BitVec 8) = 0x7F := rfl
    rw [mask, BitVec.and_assoc x, BitVec.and_comm 0x7F e, ← BitVec.and_assoc x, BitVec.and_assoc,
      BitVec.and_self]
  simp only [irqAsserted, same]

/-- The flag register with its summary bit put to `irq`. -/
def setSummary (x : BitVec 8) (irq : Bool) : BitVec 8 := if irq then x ||| 0x80 else x &&& ~~~0x80

@[simp] theorem irqAsserted_setSummary (x e : BitVec 8) (irq : Bool) :
    irqAsserted (setSummary x irq) e = irqAsserted x e := by
  cases irq
  · exact irqAsserted_clearSummary x e
  · simp [setSummary, irqAsserted_or]

theorem setSummary_ne_zero (x : BitVec 8) (irq : Bool) :
    setSummary x irq &&& 0x80 ≠ 0#8 ↔ irq = true := by
  cases irq
  · simp [setSummary, BitVec.and_assoc]
  · simp [setSummary, BitVec.and_or_distrib_right (x := x)]

/-- Setting the summary bit last makes an earlier value of it irrelevant. -/
theorem setSummary_or_setSummary (x y : BitVec 8) (irq irq' : Bool) :
    setSummary (setSummary x irq ||| y) irq' = setSummary (x ||| y) irq' := by
  ext n hn
  cases irq <;> cases irq' <;> simp only [setSummary, Bool.false_eq_true, if_false, if_true,
    BitVec.getElem_or, BitVec.getElem_and, BitVec.getElem_not] <;>
    cases x[n] <;> cases y[n] <;> cases (0x80 : BitVec 8)[n] <;> rfl

theorem setSummary_of_summary {x : BitVec 8} {irq : Bool} (h : x &&& 0x80 ≠ 0#8 ↔ irq = true) :
    setSummary x irq = x := by
  have split : ∀ y : BitVec 8, y = (y &&& ~~~0x80) ||| (y &&& 0x80) := by decide
  have top : ∀ y : BitVec 8, y &&& 0x80 ≠ 0#8 → y ||| 0x80 = y := by decide
  cases irq with
  | true => exact top x (h.mpr rfl)
  | false =>
    have low : x &&& 0x80 = 0#8 := by simpa using h
    have whole := split x
    rw [low, BitVec.or_zero] at whole
    exact whole.symm

/-! ## Raising and clearing -/

theorem Irq.updateIrq_eq (i : Irq) :
    i.updateIrq =
      { ifr := setSummary i.ifr (irqAsserted i.ifr i.ier)
        ier := i.ier
        lastIrq := irqAsserted i.ifr i.ier
        irqLine := if irqAsserted i.ifr i.ier = i.lastIrq then i.irqLine
          else i.irqLine.map fun _ => irqAsserted i.ifr i.ier } := by
  unfold Irq.updateIrq
  dsimp only
  split
  case isTrue same => simp [setSummary, ← same]
  case isFalse => simp [setSummary]

theorem Irq.updateIrq_settled (i : Irq) : i.updateIrq.Settled := by
  rw [Irq.updateIrq_eq]
  constructor
  · simp only [irqAsserted_setSummary]
    exact setSummary_ne_zero _ _
  · simp

theorem Irq.raise_settled (flag : BitVec 8) (i : Irq) : (i.raise flag).Settled :=
  Irq.updateIrq_settled _

theorem Irq.raise_zero {i : Irq} (h : i.Settled) : i.raise 0 = i := by
  have zero : i.ifr ||| 0 = i.ifr := BitVec.or_zero
  simp only [Irq.raise, Irq.updateIrq_eq, zero, ← h.driven, if_true]
  rw [setSummary_of_summary (by rw [h.driven]; exact h.summary)]

/-- From an up-to-date state the line rises at most once, so only the set of flags
raised counts. -/
theorem Irq.raise_raise {i : Irq} (h : i.Settled) (f g : BitVec 8) :
    (i.raise f).raise g = i.raise (f ||| g) := by
  have last : i.lastIrq = irqAsserted i.ifr i.ier := h.driven
  have together : i.ifr ||| (f ||| g) = i.ifr ||| f ||| g := (BitVec.or_assoc _ _ _).symm
  simp only [Irq.raise, Irq.updateIrq_eq, irqAsserted_setSummary, irqAsserted_or,
    setSummary_or_setSummary, last, together]
  congr 1
  cases irqAsserted i.ifr i.ier <;> cases irqAsserted f i.ier <;> cases irqAsserted g i.ier <;> simp

/-! ## What an operation does to the interrupt registers -/

/-- Nothing, or new flags and enables, each time followed by `updateIrq`. -/
inductive Irq.Moves (i : Irq) : Irq → Prop
  | still : Irq.Moves i i
  | update {j : Irq} (ifr ier : BitVec 8) (before : Irq.Moves i j) :
      Irq.Moves i { j with ifr := ifr, ier := ier }.updateIrq

theorem Irq.Moves.raise {i j : Irq} (h : i.Moves j) (flag : BitVec 8) : i.Moves (j.raise flag) :=
  h.update (j.ifr ||| flag) j.ier

theorem Irq.Moves.clear {i j : Irq} (h : i.Moves j) (flags : BitVec 8) : i.Moves (j.clear flags) :=
  h.update (j.ifr &&& ~~~flags) j.ier

theorem Irq.Moves.trans {i j k : Irq} (h : i.Moves j) (h' : j.Moves k) : i.Moves k := by
  induction h' with
  | still => exact h
  | update ifr ier _ ih => exact ih.update ifr ier

theorem Irq.Settled.moves {i j : Irq} (h : i.Settled) (m : i.Moves j) : j.Settled := by
  cases m with
  | still => exact h
  | update => exact Irq.updateIrq_settled _

/-- The line, if there is one, was last driven to the level the chip remembers. -/
def Irq.Driven (i : Irq) : Prop := ∀ level, i.irqLine = some level → level = i.lastIrq

theorem Irq.Driven.moves {i j : Irq} (h : i.Driven) (m : i.Moves j) : j.Driven := by
  induction m with
  | still => exact h
  | update ifr ier _ ih =>
    intro level line
    rw [Irq.updateIrq_eq] at line ⊢
    dsimp only at line ⊢
    split at line
    case isTrue same => rw [same]; exact ih level line
    case isFalse =>
      obtain ⟨_, _, driven⟩ := Option.map_eq_some_iff.mp line
      exact driven.symm

theorem Irq.Moves.attached {i j : Irq} (m : i.Moves j) : j.irqLine.isSome = i.irqLine.isSome := by
  induction m with
  | still => rfl
  | update ifr ier _ ih =>
    rw [Irq.updateIrq_eq, ← ih]
    dsimp only
    split <;> simp

theorem handshake_irq (mode : BitVec 8) (drive : Bool → Via → Via)
    (frame : ∀ level s, (drive level s).irq = s.irq) (s : Via) :
    (handshake mode drive s).irq = s.irq := by
  unfold handshake
  split
  · exact frame _ _
  · split
    · rw [frame, frame]
    · rfl

theorem manual_irq (mode : BitVec 8) (drive : Bool → Via → Via)
    (frame : ∀ level s, (drive level s).irq = s.irq) (s : Via) :
    (manual mode drive s).irq = s.irq := by
  unfold manual
  split
  · exact frame _ _
  · split
    · exact frame _ _
    · rfl

@[simp] theorem driveCA2_irq (level : Bool) (s : Via) : (driveCA2 level s).irq = s.irq := rfl
@[simp] theorem driveCB2_irq (level : Bool) (s : Via) : (driveCB2 level s).irq = s.irq := rfl

theorem accessORA_moves (s : Via) : s.irq.Moves (accessORA s).irq := by
  unfold accessORA
  rw [handshake_irq _ _ driveCA2_irq]
  exact Irq.Moves.still.clear _

theorem accessORB_moves (s : Via) : s.irq.Moves (accessORB s).irq := by
  unfold accessORB
  rw [handshake_irq _ _ driveCB2_irq]
  exact Irq.Moves.still.clear _

theorem readReg_moves (s : Via) (addr : BitVec 32) (peek : Bool) (pinsA pinsB : Option (BitVec 8)) :
    s.irq.Moves (readReg s addr peek pinsA pinsB).2.irq := by
  unfold readReg
  split
  · exact .still
  · cases peek with
    | true => cases Reg.decode addr <;> exact .still
    | false =>
      cases Reg.decode addr with
      | ora => exact accessORA_moves s
      | orb => exact accessORB_moves s
      | t1cl => exact Irq.Moves.still.clear _
      | t2cl => exact Irq.Moves.still.clear _
      | _ => exact .still

theorem ioWrite_moves (s : Via) (addr : BitVec 32) (val : BitVec 8) :
    s.irq.Moves (ioWrite s addr val).2.irq := by
  unfold ioWrite
  split
  · exact .still
  · cases Reg.decode addr with
    | ora => exact accessORA_moves { s with ora := val }
    | orb => exact accessORB_moves { s with orb := val }
    | t1ch => exact Irq.Moves.still.clear _
    | t1lh => exact Irq.Moves.still.clear _
    | t2ch => exact Irq.Moves.still.clear _
    | ifr => exact Irq.Moves.still.clear _
    | ier => exact Irq.Moves.still.update s.irq.ifr _
    | pcr =>
      dsimp only
      rw [manual_irq _ _ driveCB2_irq, manual_irq _ _ driveCA2_irq]
      exact .still
    | _ => exact .still

theorem ca1Edge_irq (s : Via) : (ca1Edge s).irq = s.irq.raise 0x02 := by
  unfold ca1Edge
  dsimp only
  split <;> rfl

theorem cb1Edge_irq (s : Via) : (cb1Edge s).irq = s.irq.raise 0x10 := by
  unfold cb1Edge
  dsimp only
  split <;> rfl

theorem sampleCA1_moves (s : Via) : s.irq.Moves (sampleCA1 s).irq := by
  unfold sampleCA1
  split
  · exact .still
  · dsimp only
    split
    · rw [ca1Edge_irq]
      exact Irq.Moves.still.raise _
    · exact .still

theorem sampleCA2_moves (s : Via) : s.irq.Moves (sampleCA2 s).irq := by
  unfold sampleCA2
  split
  · exact .still
  · split
    · exact .still
    · dsimp only
      split
      · exact Irq.Moves.still.raise _
      · exact .still

theorem sampleCB1_moves (s : Via) : s.irq.Moves (sampleCB1 s).irq := by
  unfold sampleCB1
  split
  · exact .still
  · dsimp only
    split
    · rw [cb1Edge_irq]
      exact Irq.Moves.still.raise _
    · exact .still

theorem sampleCB2_moves (s : Via) : s.irq.Moves (sampleCB2 s).irq := by
  unfold sampleCB2
  split
  · exact .still
  · split
    · exact .still
    · dsimp only
      split
      · exact Irq.Moves.still.raise _
      · exact .still

theorem sampleLines_moves (s : Via) : s.irq.Moves (sampleLines s).irq :=
  (((sampleCA1_moves s).trans (sampleCA2_moves _)).trans (sampleCB1_moves _)).trans
    (sampleCB2_moves _)

theorem tickT1_moves (s : Via) (n : ℕ) : s.irq.Moves (tickT1 s n).irq := by
  unfold tickT1
  split
  · exact .still
  · dsimp only
    split
    · split <;> exact Irq.Moves.still.raise _
    · exact .still

theorem tickT2_moves (s : Via) (n : ℕ) : s.irq.Moves (tickT2 s n).irq := by
  unfold tickT2
  split
  · exact .still
  · dsimp only
    split
    · exact Irq.Moves.still.raise _
    · exact .still

theorem tick_moves (s : Via) (n : ℕ) : s.irq.Moves (tick s n).irq :=
  ((sampleLines_moves s).trans (tickT1_moves _ n)).trans (tickT2_moves _ n)

theorem setCA1_moves (s : Via) (level : Bool) : s.irq.Moves (setCA1 s level).irq := by
  unfold setCA1
  dsimp only
  split
  · rw [ca1Edge_irq]
    exact Irq.Moves.still.raise _
  · exact .still

theorem setCB1_moves (s : Via) (level : Bool) : s.irq.Moves (setCB1 s level).irq := by
  unfold setCB1
  dsimp only
  split
  · rw [cb1Edge_irq]
    exact Irq.Moves.still.raise _
  · exact .still

/-! ## Every reachable state is up to date -/

theorem reset_settled (s : Via) : (reset s).irq.Settled := by
  constructor <;> simp [reset, irqAsserted]

theorem apply_settled {s : Via} (op : Op) (h : s.irq.Settled) : (apply s op).irq.Settled := by
  cases op with
  | reset => exact reset_settled s
  | read addr pinsA pinsB => exact h.moves (readReg_moves s addr false pinsA pinsB)
  | write addr val => exact h.moves (ioWrite_moves s addr val)
  | tick n => exact h.moves (tick_moves s n)
  | conduitCA1 level => exact h.moves (setCA1_moves s level)
  | conduitCB1 level => exact h.moves (setCB1_moves s level)
  | setIrqLine line => exact ⟨h.summary, h.driven⟩
  | conduitCA2 | conduitCB2 | externalLines | setLines | portAPins | setBaseAddr => exact h

theorem Reachable.settled {s : Via} (h : Reachable s) : s.irq.Settled := by
  obtain ⟨base, line, ops, rfl⟩ := h
  exact List.foldlRecOn (motive := fun s => s.irq.Settled) ops apply (reset_settled _)
    fun s hs op _ => apply_settled op hs

end Mmemu.Source.Via6522
