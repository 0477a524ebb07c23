import Mmemu.Source.Cia6526
import Mmemu.Source.Via6522

/-!
# Port devices behind a CIA or a VIA

Source: src/libdevices/main/iport_device.h, and the calls of it in
src/plugins/devices/cia6526/main/cia6526.cpp and
src/plugins/devices/via6522/main/via6522.cpp. What lies outside a chip is a world
`ω` that its port devices and callbacks act on; both ports may share it, as the
two sides of a keyboard matrix do.
-/
namespace Mmemu.Source.PortDevices

structure IPortDevice (ω : Type) where
  readPort : ω → BitVec 8 × ω
  peekPort : ω → BitVec 8 × ω
  writePort : BitVec 8 → ω → ω
  setDdr : BitVec 8 → ω → ω

variable {ω : Type}

/-- The pins of a port, when a device is attached: `peek ? peekPort() : readPort()`. -/
def pins (device : Option (IPortDevice ω)) (peek : Bool) (w : ω) : Option (BitVec 8) × ω :=
  match device with
  | none => (none, w)
  | some d =>
    let (val, w) := if peek then d.peekPort w else d.readPort w
    (some val, w)

def writePort (device : Option (IPortDevice ω)) (val : BitVec 8) (w : ω) : ω :=
  match device with
  | none => w
  | some d => d.writePort val w

def setDdr (device : Option (IPortDevice ω)) (ddr : BitVec 8) (w : ω) : ω :=
  match device with
  | none => w
  | some d => d.setDdr ddr w

/-! ## CIA -/

namespace Cia
open Mmemu.Source.Cia6526

/-- What is attached to a CIA; an absent callback does nothing. -/
structure Wiring (ω : Type) where
  portADevice : Option (IPortDevice ω)
  portBDevice : Option (IPortDevice ω)
  portAWriteCallback : BitVec 8 → BitVec 8 → ω → ω
  serialOut : BitVec 8 → ω → ω

/-- `CIA6526::readReg`: the device of the port that is read is asked for its pins. -/
def readReg (d : Wiring ω) (s : Cia × ω) (addr : BitVec 32) (peek : Bool) :
    Option (BitVec 8) × Cia × ω :=
  if addr &&& ~~~0x0F ≠ s.1.baseAddr then (none, s)
  else
    let (pinsA, w) :=
      if Reg.decode addr = .pra then pins d.portADevice peek s.2 else (none, s.2)
    let (pinsB, w) := if Reg.decode addr = .prb then pins d.portBDevice peek w else (none, w)
    let (val, chip) := Cia6526.readReg s.1 addr peek pinsA pinsB
    (val, chip, w)

def ioRead (d : Wiring ω) (s : Cia × ω) (addr : BitVec 32) : Option (BitVec 8) × Cia × ω :=
  readReg d s addr false

def ioPeek (d : Wiring ω) (s : Cia × ω) (addr : BitVec 32) : Option (BitVec 8) × Cia × ω :=
  readReg d s addr true

/-- `CIA6526::ioWrite` with the calls it makes. -/
def ioWrite (d : Wiring ω) (s : Cia × ω) (addr : BitVec 32) (val : BitVec 8) : Cia × ω :=
  let chip := (Cia6526.ioWrite s.1 addr val).2
  if addr &&& ~~~0x0F ≠ s.1.baseAddr then s
  else (chip, match Reg.decode addr with
    | .pra => d.portAWriteCallback chip.pra chip.ddra (writePort d.portADevice val s.2)
    | .prb => writePort d.portBDevice val s.2
    | .ddra => d.portAWriteCallback chip.pra chip.ddra (setDdr d.portADevice val s.2)
    | .ddrb => setDdr d.portBDevice val s.2
    | .sdr => if s.1.ta.cr &&& 0x40 ≠ 0#8 then d.serialOut val s.2 else s.2
    | _ => s.2)

def reset (d : Wiring ω) (s : Cia × ω) : Cia × ω :=
  let chip := Cia6526.reset s.1
  (chip, d.portAWriteCallback chip.pra chip.ddra (setDdr d.portBDevice 0 (setDdr d.portADevice 0 s.2)))

/-- What happens to a chip with its devices. `outside` is anything the world does
by itself, a key pressed or a line set. -/
inductive Event (ω : Type) where
  | read (addr : BitVec 32)
  | write (addr : BitVec 32) (val : BitVec 8)
  | tick (cycles : ℕ)
  | reset
  | flagLine (level : Bool)
  | serialByte (b : BitVec 8)
  | outside (change : ω → ω)

/-- One event, with the value a read gives. -/
def step (d : Wiring ω) (s : Cia × ω) : Event ω → Option (BitVec 8) × Cia × ω
  | .read addr => ioRead d s addr
  | .write addr val => (none, ioWrite d s addr val)
  | .tick cycles => (none, tick s.1 cycles, s.2)
  | .reset => (none, reset d s)
  | .flagLine level => (none, setFlagLine s.1 level, s.2)
  | .serialByte b => (none, receiveSerialByte s.1 b, s.2)
  | .outside change => (none, s.1, change s.2)

end Cia

/-! ## VIA -/

namespace Via
open Mmemu.Source.Via6522

/-- What is attached to a VIA; an absent callback does nothing. -/
structure Wiring (ω : Type) where
  portADevice : Option (IPortDevice ω)
  portBDevice : Option (IPortDevice ω)
  portAWriteCb : BitVec 8 → ω → ω
  portBWriteCb : BitVec 8 → ω → ω

/-- The registers behind which port A stands. -/
def readsPortA (r : Reg) : Bool := r = .ora ∨ r = .iora2

/-- `VIA6522::readReg`. -/
def readReg (d : Wiring ω) (s : Via × ω) (addr : BitVec 32) (peek : Bool) :
    Option (BitVec 8) × Via × ω :=
  if addr &&& ~~~0x0F ≠ s.1.baseAddr then (none, s)
  else
    let (pinsA, w) :=
      if readsPortA (Reg.decode addr) then pins d.portADevice peek s.2 else (none, s.2)
    let (pinsB, w) := if Reg.decode addr = .orb then pins d.portBDevice peek w else (none, w)
    let (val, chip) := Via6522.readReg s.1 addr peek pinsA pinsB
    (val, chip, w)

def ioRead (d : Wiring ω) (s : Via × ω) (addr : BitVec 32) : Option (BitVec 8) × Via × ω :=
  readReg d s addr false

def ioPeek (d : Wiring ω) (s : Via × ω) (addr : BitVec 32) : Option (BitVec 8) × Via × ω :=
  readReg d s addr true

/-- `VIA6522::ioWrite` with the calls it makes. -/
def ioWrite (d : Wiring ω) (s : Via × ω) (addr : BitVec 32) (val : BitVec 8) : Via × ω :=
  if addr &&& ~~~0x0F ≠ s.1.baseAddr then s
  else ((Via6522.ioWrite s.1 addr val).2, match Reg.decode addr with
    | .ora | .iora2 => d.portAWriteCb val (writePort d.portADevice val s.2)
    | .orb => d.portBWriteCb val (writePort d.portBDevice val s.2)
    | .ddra => setDdr d.portADevice val s.2
    | .ddrb => setDdr d.portBDevice val s.2
    | _ => s.2)

/-- What happens to a chip with its devices. -/
inductive Event (ω : Type) where
  | read (addr : BitVec 32)
  | write (addr : BitVec 32) (val : BitVec 8)
  | tick (cycles : ℕ)
  | reset
  | conduitCA1 (level : Bool)
  | conduitCA2 (level : Bool)
  | conduitCB1 (level : Bool)
  | conduitCB2 (level : Bool)
  | externalLines (ca1 ca2 cb1 cb2 : Bool)
  | portAPins (used : Bool) (pins : BitVec 8)
  | outside (change : ω → ω)

/-- One event, with the value a read gives. -/
def step (d : Wiring ω) (s : Via × ω) : Event ω → Option (BitVec 8) × Via × ω
  | .read addr => ioRead d s addr
  | .write addr val => (none, ioWrite d s addr val)
  | .tick cycles => (none, tick s.1 cycles, s.2)
  | .reset => (none, reset s.1, s.2)
  | .conduitCA1 level => (none, apply s.1 (.conduitCA1 level), s.2)
  | .conduitCA2 level => (none, apply s.1 (.conduitCA2 level), s.2)
  | .conduitCB1 level => (none, apply s.1 (.conduitCB1 level), s.2)
  | .conduitCB2 level => (none, apply s.1 (.conduitCB2 level), s.2)
  | .externalLines ca1 ca2 cb1 cb2 => (none, apply s.1 (.externalLines ca1 ca2 cb1 cb2), s.2)
  | .portAPins used pins => (none, apply s.1 (.portAPins used pins), s.2)
  | .outside change => (none, s.1, change s.2)

end Via
end Mmemu.Source.PortDevices
