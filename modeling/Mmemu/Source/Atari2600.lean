import Mmemu.Library.CheckedBuffer
import Mmemu.Source.Cpu6502Step
import Mmemu.Source.Riot6532
import Mmemu.Source.Tia

/-!
# Atari 2600: cartridge, bus and machine

Source: src/plugins/machines/atari2600/main/machine_a2600.cpp. The levels of RIOT's pins and the TIA's
buttons stand for the joysticks and the console's switches. An index outside a vector and a division
by zero, which leave the source's behaviour undefined, are faults.
-/
namespace Mmemu.Source.Atari2600
open Mmemu.Library.CheckedBuffer Mmemu.Source.MemoryBus
open Mmemu.Source.Riot6532 (Riot)
open Mmemu.Source.TiaCore (Tia Standard)

abbrev Byte := BitVec 8

/-! ## The type of a cartridge -/

def search (img sig : List Byte) (min : ℕ) : Bool :=
  min ≤ (List.range (img.length + 1 - sig.length)).countP fun i => (img.drop i).take sig.length == sig

/-- Each 4K bank repeats its first 128 bytes. -/
def isSC (img : List Byte) : Bool :=
  (List.range (img.length / 4096)).all (fun bank =>
    (img.drop (bank * 4096)).take 128 == (img.drop (bank * 4096 + 128)).take 128) &&
    img.length ≥ 4096

def isE0 (img : List Byte) : Bool :=
  [[0x8D, 0xE0, 0x1F], [0x8D, 0xE0, 0x5F], [0x8D, 0xE9, 0xFF], [0x0C, 0xE0, 0x1F], [0xAD, 0xE0, 0x1F],
    [0xAD, 0xE9, 0xFF], [0xAD, 0xED, 0xFF], [0xAD, 0xF3, 0xBF]].any fun sig => search img sig 1

def is3F (img : List Byte) : Bool := search img [0x85, 0x3F] 2

/-- The names of the types are the constructors; a `k` stands before a digit. -/
inductive CartType where
  | k2K | k4K | F8SC | E0 | k3F | F8 | FA | F6SC | F6 | F4SC | F4
  deriving DecidableEq, Repr

def detectType (img : List Byte) : Option CartType :=
  let n := img.length
  if n ≤ 2048 ∨ n = 4096 ∧ img.take 2048 = img.drop 2048 then some .k2K
  else if n = 4096 then some .k4K
  else if n = 8192 then
    if isSC img then some .F8SC
    else if img.take 4096 = img.drop 4096 then some .k4K
    else if isE0 img then some .E0
    else if is3F img then some .k3F
    else some .F8
  else if n = 12288 then some .FA
  else if n = 16384 then some (if isSC img then .F6SC else .F6)
  else if n = 32768 then some (if isSC img then .F4SC else if is3F img then .k3F else .F4)
  else if is3F img then some .k3F
  else none

/-! ## The cartridge -/

abbrev Bytes := Buffer Byte

structure Cart where
  m_rom : Bytes
  m_type : CartType
  m_ram : Bytes
  m_bank : ℕ
  m_bank3f : ℕ
  m_slice : ℕ → ℕ

namespace Cart
variable (c : Cart)

def banks : ℕ := c.m_rom.size / 4096

def reset : Cart :=
  { c with
    m_bank := c.banks - 1
    m_slice := fun i => 4 + i
    m_bank3f := 0
    m_ram := .new c.m_ram.size 0 }

/-- The size of the RAM that a type has. -/
def ramSize : CartType → ℕ
  | .F8SC | .F6SC | .F4SC => 128
  | .FA => 256
  | _ => 0

/-- The cartridge of an image. An image of 2K or less is repeated: an empty one divides by zero. -/
def new (rom : List Byte) (type : CartType) : Option Cart :=
  let ram : Bytes := .new (ramSize type) 0
  if type = .k2K then
    if rom.length = 0 then none
    else some (reset ⟨⟨4096, fun i => rom.getD (i % rom.length) 0⟩, type, ram, 0, 0, fun i => 4 + i⟩)
  else some (reset ⟨⟨rom.length, fun i => rom.getD i 0⟩, type, ram, 0, 0, fun i => 4 + i⟩)

def offset (a : ℕ) : ℕ :=
  match c.m_type with
  | .E0 => c.m_slice (a >>> 10) * 1024 + (a &&& 0x3FF)
  | .k3F => if a < 0x800 then c.m_bank3f * 2048 + a else c.m_rom.size - 2048 + (a &&& 0x7FF)
  | _ => c.m_bank * 4096 + a

def hotspot (a : ℕ) : Cart :=
  match c.m_type with
  | .F8 | .F8SC => if a ≥ 0xFF8 ∧ a ≤ 0xFF9 then { c with m_bank := a - 0xFF8 } else c
  | .F6 | .F6SC => if a ≥ 0xFF6 ∧ a ≤ 0xFF9 then { c with m_bank := a - 0xFF6 } else c
  | .F4 | .F4SC => if a ≥ 0xFF4 ∧ a ≤ 0xFFB then { c with m_bank := a - 0xFF4 } else c
  | .FA => if a ≥ 0xFF8 ∧ a ≤ 0xFFA then { c with m_bank := a - 0xFF8 } else c
  | .E0 =>
    if a ≥ 0xFE0 ∧ a ≤ 0xFF7 then
      { c with m_slice := Function.update c.m_slice ((a - 0xFE0) >>> 3) (a &&& 7) }
    else c
  | _ => c

/-- A byte, or none for an index outside of the image or the RAM. -/
def look (a : ℕ) : Option Byte :=
  let rs := c.m_ram.size
  if rs ≠ 0 ∧ a ≥ rs ∧ a < 2 * rs then c.m_ram.get (a - rs)  -- the read port
  else if rs ≠ 0 ∧ a < rs then c.m_ram.get a  -- the write port
  else c.m_rom.get (c.offset a)

def read (a : ℕ) : Option Byte × Cart := ((c.hotspot a).look a, c.hotspot a)

def write (a : ℕ) (v : Byte) : Option Cart :=
  let c := c.hotspot a
  if c.m_ram.size ≠ 0 ∧ a < c.m_ram.size then (c.m_ram.set a v).map fun ram => { c with m_ram := ram }
  else some c

/-- A write that selects 3F's bank. None stands for a division by zero. -/
def lowWrite (addr13 : ℕ) (v : Byte) : Option Cart :=
  if c.m_type = .k3F ∧ addr13 ≤ 0x3F then
    if c.m_rom.size / 2048 = 0 then none
    else some { c with m_bank3f := v.toNat % (c.m_rom.size / 2048) }
  else some c

end Cart

/-! ## The bus -/

/-- What a run has done since the last reset: what the CPU has read, the register writes it has made,
those that have been applied, and the colour clocks that the TIA had run at each access. -/
structure Record where
  reads : List (BitVec 16 × Byte) := []
  writes : List (BitVec 16 × Byte) := []
  applied : List (BitVec 16 × Byte) := []
  tiaTimes : List ℕ := []

structure A2600Bus where
  m_tia : Tia
  m_riot : Riot
  m_cart : Option Cart
  m_cycles : ℕ
  m_tiaCycle : ℕ
  m_access : ℕ
  m_dataBus : Byte
  m_pending : List (BitVec 16 × Byte)
  fault : Bool
  done : Record

namespace A2600Bus
variable (b : A2600Bus)

def resetClock : A2600Bus := { b with m_cycles := 0, m_tiaCycle := 0, m_pending := [], done := {} }

def begin : A2600Bus := { b with m_access := 0 }

def syncTo (cycle : ℕ) : A2600Bus :=
  let b := if cycle > b.m_tiaCycle then
      { b with m_tia := b.m_tia.clock ((cycle - b.m_tiaCycle) * 3), m_tiaCycle := cycle }
    else b
  { b with m_riot := b.m_riot.sync (BitVec.ofNat 64 cycle) }

/-- The TIA is accessed now. -/
def atTia : A2600Bus :=
  { b with done := { b.done with tiaTimes := b.done.tiaTimes ++ [b.m_tia.chip.m_timestamp] } }

def apply (w : BitVec 16 × Byte) : A2600Bus :=
  let b := { b with done := { b.done with applied := b.done.applied ++ [w] } }
  if w.1 &&& 0x80 = 0 then { b.atTia with m_tia := b.m_tia.write (w.1 &&& 0x3F).toNat w.2 }
  else { b with m_riot := b.m_riot.write w.1 w.2 }

/-- The held writes, each as many cycles before `until_` as are left with it. -/
def applyPending (until_ : ℕ) : List (BitVec 16 × Byte) → A2600Bus → A2600Bus
  | [], b => b
  | w :: ws, b => applyPending until_ ws ((b.syncTo (until_ - (ws.length + 1))).apply w)

/-- The stall of WSYNC, in cycles, and the bus with the halt cleared. -/
def stall (until_ : ℕ) : ℕ × A2600Bus :=
  if b.m_tia.chip.m_halt then
    let b := b.syncTo until_
    ((b.m_tia.chip.clocksToLineEnd + 2) / 3, { b with m_tia.chip.m_halt := false })
  else (0, b)

/-- After an instruction of `c` cycles: the held writes and WSYNC. -/
def end_ (c : ℕ) : ℕ × A2600Bus :=
  let until_ := b.m_cycles + c
  let b := { applyPending until_ b.m_pending b with m_pending := [] }
  let (stall, b) := b.stall until_
  (stall, { b with m_cycles := until_ + stall }.syncTo (until_ + stall))

/-- The part of the bus that an address selects. -/
inductive Target where
  | cart | tia | ram | riot
  deriving DecidableEq, Repr

def target (a : BitVec 16) : Target :=
  if a &&& 0x1000 ≠ 0 then .cart
  else if a &&& 0x80 = 0 then .tia
  else if a &&& 0x200 = 0 then .ram
  else .riot

def readCart (a : BitVec 16) : Byte × A2600Bus :=
  match b.m_cart with
  | none => (0xFF, b)
  | some cart =>
    let (v, cart) := cart.read (a &&& 0x0FFF).toNat
    (v.getD 0, { b with m_cart := some cart, fault := b.fault || v.isNone })

/-- A read of what an address selects, at this cycle. -/
def readAt (at_ : ℕ) (a : BitVec 16) : Byte × A2600Bus :=
  match target a with
  | .cart => b.readCart a
  | .tia =>
    let b := (b.syncTo at_).atTia
    let (v, tia) := b.m_tia.read (a &&& 0x0F).toNat b.m_dataBus
    (v, { b with m_tia := tia })
  | .ram => (b.m_riot.peek a, b)
  | .riot =>
    let b := b.syncTo at_
    let (v, riot) := b.m_riot.read a
    (v, { b with m_riot := riot })

def read8 (addr : BitVec 32) : Byte × A2600Bus :=
  let a : BitVec 16 := (addr &&& 0x1FFF).setWidth 16
  let (v, b) := { b with m_access := b.m_access + 1 }.readAt (b.m_cycles + b.m_access) a
  (v, { b with m_dataBus := v, done := { b.done with reads := b.done.reads ++ [(addr.setWidth 16, v)] } })

def peek8 (addr : BitVec 32) : Byte :=
  let a : BitVec 16 := (addr &&& 0x1FFF).setWidth 16
  match target a with
  | .cart => match b.m_cart with
    | none => 0xFF
    | some cart => (cart.look (a &&& 0x0FFF).toNat).getD 0
  | .tia => b.m_tia.peek (a &&& 0x0F).toNat
  | .ram | .riot => b.m_riot.peek a

/-- A write to the cartridge, if there is one. -/
def writeCart (write : Cart → Option Cart) : A2600Bus :=
  match b.m_cart with
  | none => b
  | some cart =>
    match write cart with
    | none => { b with fault := true }
    | some cart => { b with m_cart := some cart }

def write8 (addr : BitVec 32) (v : Byte) : A2600Bus :=
  let a : BitVec 16 := (addr &&& 0x1FFF).setWidth 16
  let b := { b with m_access := b.m_access + 1, m_dataBus := v }
  match target a with
  | .cart => b.writeCart fun cart => cart.write (a &&& 0x0FFF).toNat v
  | .ram =>
    let b := b.writeCart fun cart => cart.lowWrite a.toNat v
    { b with m_riot := b.m_riot.write a v }
  | .tia | .riot =>
    let b := b.writeCart fun cart => cart.lowWrite a.toNat v
    { b with
      m_pending := b.m_pending ++ [(a, v)]
      done := { b.done with writes := b.done.writes ++ [(a, v)] } }

instance : IBus A2600Bus := ⟨read8, write8, peek8⟩

end A2600Bus

/-! ## The machine -/

/-- The CPU with the bus behind it, which has the chips and the cartridge. -/
abbrev Machine := Cpu6502.MOS6502 A2600Bus

/-- Nothing observes the CPU, intercepts it or listens to it. -/
def wiring : Cpu6502.Wiring A2600Bus := ⟨none, none, none⟩

namespace Machine

/-- A new machine: joysticks and buttons released, reset and select up, colour, both difficulties B. -/
def create (std : Standard) : Machine where
  state :=
    { a := 0, x := 0, y := 0, sp := 0xFD, pc := 0, p := Cpu6502.FLAG_U ||| Cpu6502.FLAG_I, cycles := 0
      irqLine := false, nmiLine := false, nmiPrev := false, haltLine := false
      waiting := false, stopped := false }
  bus :=
    { m_tia := .new std, m_riot := .new 0xFF 0x0B, m_cart := none, m_cycles := 0, m_tiaCycle := 0
      m_access := 0, m_dataBus := 0, m_pending := [], fault := false, done := {} }
  cmos := false
  curOp := 0
  branchTarget := 0

variable (m : Machine)

def onReset : Machine :=
  let b := m.bus
  let b := { b with m_tia := b.m_tia.reset, m_riot := b.m_riot.reset, m_cart := b.m_cart.map Cart.reset }
  (Cpu6502.reset { m with bus := b.resetClock }).2

/-- The error, if the image is refused. -/
def insertCartridge (image : List Byte) : Option String × Machine :=
  match detectType image with
  | none => (some ("unsupported cartridge size " ++ toString image.length), m)
  | some type =>
    match Cart.new image type with
    | none => (none, { m with bus := { m.bus with fault := true } })
    | some cart => (none, onReset { m with bus := { m.bus with m_cart := some cart } })

def removeCartridge : Machine := onReset { m with bus := { m.bus with m_cart := none } }

def schedulerStep : ℕ × Machine :=
  let (c, m) := Cpu6502.step wiring { m with bus := m.bus.begin }
  let (stall, b) := m.bus.end_ c
  (c + stall, { m with bus := b })

/-- A joystick: its directions are RIOT's port A, its button the TIA's. -/
def onJoystick (port : Bool) (bits : Byte) : Machine :=
  let riot := m.bus.m_riot
  let nibble : BitVec 4 := bits.setWidth 4
  let pins := if port then riot.portA.extractLsb' 4 4 ++ nibble else nibble ++ riot.portA.setWidth 4
  { m with bus := { m.bus with
      m_riot := { riot with portA := pins }
      m_tia := m.bus.m_tia.setButton port.toNat (!bits.getLsbD 4) } }

/-- A key that is one of the console's switches: its bit of RIOT's port B. -/
def setSwitch (mask : Byte) (set : Bool) : Machine :=
  let riot := m.bus.m_riot
  let pins := if set then riot.portB ||| mask else riot.portB &&& ~~~mask
  { m with bus := { m.bus with m_riot := { riot with portB := pins } } }

/-- A key, and whether it is one of the switches. -/
def onKey (name : String) (down : Bool) : Bool × Machine :=
  let n := name.map Char.toLower
  if n = "f2" ∨ n = "game_reset" then (true, m.setSwitch 0x01 !down)
  else if n = "f1" ∨ n = "game_select" then (true, m.setSwitch 0x02 !down)
  else if !down then (["f3", "f4", "f5", "f6", "f7", "f8"].contains n, m)
  else if n = "f3" ∨ n = "color" then (true, m.setSwitch 0x08 true)
  else if n = "f4" ∨ n = "bw" then (true, m.setSwitch 0x08 false)
  else if n = "f5" then (true, m.setSwitch 0x40 true)
  else if n = "f6" then (true, m.setSwitch 0x40 false)
  else if n = "f7" then (true, m.setSwitch 0x80 true)
  else if n = "f8" then (true, m.setSwitch 0x80 false)
  else (false, m)

end Machine
end Mmemu.Source.Atari2600
