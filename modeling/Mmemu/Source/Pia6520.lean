import Mathlib.Data.BitVec

/-!
# PIA 6520

Source: src/plugins/devices/pia6520/main/pia6520.cpp and pia6520.h. The two sides have the same
registers and are kept as one structure each; what port devices are told is left out, and what they
answer is an argument.
-/
namespace Mmemu.Source.Pia6520

abbrev Byte := BitVec 8

/-- One side: `or` is `m_ora` or `m_orb`, and so on. `irq` and `c2` are the levels last driven on the
side's IRQ line and C2 line. -/
structure Side where
  or : Byte
  ddr : Byte
  cr : Byte
  c1Prev : Bool
  c2Prev : Bool
  lastIrq : Bool
  irq : Bool
  c2 : Option Bool
  deriving DecidableEq, Repr

structure PIA6520 where
  m_baseAddr : BitVec 32
  a : Side
  b : Side
  deriving DecidableEq, Repr

namespace Side

def reset (s : Side) : Side :=
  { s with or := 0xFF, ddr := 0, cr := 0, c1Prev := true, c2Prev := true, lastIrq := false }

def asserts (s : Side) : Bool :=
  (s.cr.getLsbD 7 && s.cr.getLsbD 0) || (s.cr.getLsbD 6 && s.cr.getLsbD 3)

/-- The line is set only when the level has changed. -/
def updateIrq (s : Side) : Side :=
  if s.asserts ≠ s.lastIrq then { s with irq := s.asserts, lastIrq := s.asserts } else s

/-- `driveCA2`, `driveCB2` -/
def driveC2 (s : Side) (level : Bool) : Side := { s with c2 := some level }

/-- C2 is in mode 100. -/
def handshakes (s : Side) : Bool := s.cr &&& 0x38 = 0x20

def c1Edge (s : Side) (lvl : Bool) : Bool :=
  if s.cr.getLsbD 1 then !s.c1Prev && lvl else s.c1Prev && !lvl

/-- C2 is an input. -/
def c2Input (s : Side) : Bool := !s.cr.getLsbD 5

def c2Edge (s : Side) (lvl : Bool) : Bool :=
  s.c2Input && if s.cr.getLsbD 4 then !s.c2Prev && lvl else s.c2Prev && !lvl

/-- An edge on C1, up to `updateIrq`. -/
def flagC1 (s : Side) : Side :=
  let s := { s with cr := s.cr ||| 0x80 }
  if s.handshakes then s.driveC2 true else s

/-- An edge on C2, up to `updateIrq`. -/
def flagC2 (s : Side) : Side := { s with cr := s.cr ||| 0x40 }

/-- The data register has been accessed: the flags go, that of C2 only if it is an input. -/
def clearFlags (s : Side) : Side :=
  let s := { s with cr := s.cr &&& ~~~0x80 }
  if s.c2Input then { s with cr := s.cr &&& ~~~0x40 } else s

/-- A write to the control register, up to `updateIrq`. -/
def control (s : Side) (val : Byte) : Side :=
  let s := { s with cr := (s.cr &&& 0xC0) ||| (val &&& 0x3F) }
  if s.cr &&& 0x38 = 0x30 then s.driveC2 false
  else if s.cr &&& 0x38 = 0x38 then s.driveC2 true
  else s

/-- The data register, with the pins of a port device if there is one. -/
def data (s : Side) (pins : Option Byte) : Byte :=
  pins.elim s.or fun pins => (s.or &&& s.ddr) ||| (pins &&& ~~~s.ddr)

end Side

namespace PIA6520

def new (base : BitVec 32) : PIA6520 :=
  ⟨base, ⟨0xFF, 0, 0, true, true, false, false, none⟩, ⟨0xFF, 0, 0, true, true, false, false, none⟩⟩

def reset (p : PIA6520) : PIA6520 := { p with a := p.a.reset, b := p.b.reset }

def updateIrq (p : PIA6520) : PIA6520 := { p with a := p.a.updateIrq, b := p.b.updateIrq }

def setCA1 (p : PIA6520) (lvl : Bool) : PIA6520 :=
  let p := if p.a.c1Edge lvl then { p with a := p.a.flagC1 }.updateIrq else p
  { p with a := { p.a with c1Prev := lvl } }

def setCA2 (p : PIA6520) (lvl : Bool) : PIA6520 :=
  let p := if p.a.c2Edge lvl then { p with a := p.a.flagC2 }.updateIrq else p
  { p with a := { p.a with c2Prev := lvl } }

def setCB1 (p : PIA6520) (lvl : Bool) : PIA6520 :=
  let p := if p.b.c1Edge lvl then { p with b := p.b.flagC1 }.updateIrq else p
  { p with b := { p.b with c1Prev := lvl } }

def setCB2 (p : PIA6520) (lvl : Bool) : PIA6520 :=
  let p := if p.b.c2Edge lvl then { p with b := p.b.flagC2 }.updateIrq else p
  { p with b := { p.b with c2Prev := lvl } }

/-- The lines' levels, where there are lines. -/
def tick (p : PIA6520) (ca1 ca2 cb1 cb2 : Option Bool) : PIA6520 :=
  let p := ca1.elim p p.setCA1
  let p := ca2.elim p p.setCA2
  let p := cb1.elim p p.setCB1
  cb2.elim p p.setCB2

/-- A register of this device. -/
def decodes (p : PIA6520) (addr : BitVec 32) : Bool := addr &&& ~~~3 = p.m_baseAddr

/-- `none` when another device is addressed. `pins` are those of the port that is read. -/
def readReg (p : PIA6520) (addr : BitVec 32) (pins : Option Byte) (peek : Bool) : Option Byte × PIA6520 :=
  if ¬p.decodes addr then (none, p)
  else
    match (addr &&& 3).toNat with
    | 0 =>
      if p.a.cr.getLsbD 2 then
        let val := p.a.data pins
        if peek then (some val, p)
        else
          let a := if p.a.handshakes then p.a.driveC2 false else p.a
          (some val, { p with a := a.clearFlags }.updateIrq)
      else (some p.a.ddr, p)
    | 1 => (some p.a.cr, p)
    | 2 =>
      if p.b.cr.getLsbD 2 then
        let val := p.b.data pins
        if peek then (some val, p) else (some val, { p with b := p.b.clearFlags }.updateIrq)
      else (some p.b.ddr, p)
    | _ => (some p.b.cr, p)

def ioRead (p : PIA6520) (addr : BitVec 32) (pins : Option Byte) : Option Byte × PIA6520 := p.readReg addr pins false

def ioPeek (p : PIA6520) (addr : BitVec 32) (pins : Option Byte) : Option Byte × PIA6520 := p.readReg addr pins true

def ioWrite (p : PIA6520) (addr : BitVec 32) (val : Byte) : Bool × PIA6520 :=
  if ¬p.decodes addr then (false, p)
  else
    match (addr &&& 3).toNat with
    | 0 =>
      if p.a.cr.getLsbD 2 then (true, { p with a := { p.a with or := val } })
      else (true, { p with a := { p.a with ddr := val } })
    | 1 => (true, { p with a := p.a.control val }.updateIrq)
    | 2 =>
      if p.b.cr.getLsbD 2 then
        let b := { p.b with or := val }
        let b := if b.handshakes then b.driveC2 false else b
        (true, { p with b := b.clearFlags }.updateIrq)
      else (true, { p with b := { p.b with ddr := val } })
    | _ => (true, { p with b := p.b.control val }.updateIrq)

end PIA6520
end Mmemu.Source.Pia6520
