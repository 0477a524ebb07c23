import Mmemu.Source.CbmHostDos

/-!
# X16 HostFS

Source: src/plugins/machines/x16/main/machine_x16.cpp (`X16Bus::read8`, `write8`) and
x16_hostfs.cpp: the KERNAL calls that move bytes, MACPTR and MCIOUT in blocks, ACPTR and CIOUT
one at a time. The I/O chips are a parameter; the KERNAL's variables have been located.
-/
namespace Mmemu.Source.X16HostFs
open HostDos

def RAM_BANKS : ℕ := 64
def ROM_BANKS : ℕ := 32
def RAM_BANK_SIZE : ℕ := 0x2000
def ROM_BANK_SIZE : ℕ := 0x4000

/-! ## Bus -/

/-- The chips between $9F00 and $9FFF. -/
structure Devices (δ : Type) where
  ioRead : ℕ → δ → Byte × δ
  ioWrite : ℕ → Byte → δ → δ

/-- The bank latch is written with $00, and reads of $00 return the RAM byte. -/
structure X16Bus (δ : Type) where
  ram : ℕ → Byte
  bram : ℕ → Byte
  rom : ℕ → Byte
  ramBank : Byte
  romBank : Byte
  io : δ
  latched : ram 0 = ramBank

namespace X16Bus

variable {δ : Type} (dev : Devices δ)

def bramIndex (bank addr : ℕ) : ℕ := bank * RAM_BANK_SIZE + (addr - 0xA000)
def romIndex (bank addr : ℕ) : ℕ := bank * ROM_BANK_SIZE + (addr - 0xC000)

/-- The high byte of the address, where no chip answers. -/
def openBus (addr : ℕ) : Byte := BitVec.ofNat 8 (addr / 256)

def read8 (b : X16Bus δ) (addr : ℕ) : Byte × X16Bus δ :=
  if addr < 0x9F00 then (b.ram addr, b)
  else if addr < 0xA000 then
    let (v, io) := dev.ioRead addr b.io
    (v, { b with io })
  else if addr < 0xC000 then
    (if b.ramBank.toNat < RAM_BANKS then b.bram (bramIndex b.ramBank.toNat addr) else openBus addr, b)
  else
    (if b.romBank.toNat < ROM_BANKS then b.rom (romIndex b.romBank.toNat addr) else openBus addr, b)

/-- Outside the I/O range a peek is a read. -/
def peekRom (b : X16Bus δ) (addr : ℕ) : Byte :=
  if b.romBank.toNat < ROM_BANKS then b.rom (romIndex b.romBank.toNat addr) else openBus addr

/-- A byte below $9F00, and in $00 or $01 a bank latch with it. -/
def writeRam (b : X16Bus δ) (addr : ℕ) (v : Byte) : X16Bus δ where
  ram := Function.update b.ram addr v
  bram := b.bram
  rom := b.rom
  ramBank := if addr = 0 then v else b.ramBank
  romBank := if addr = 1 then v else b.romBank
  io := b.io
  latched := by
    by_cases first : addr = 0
    · rw [first, Function.update_self, if_pos rfl]
    · rw [Function.update_of_ne (Ne.symm first), if_neg first]
      exact b.latched

def write8 (b : X16Bus δ) (addr : ℕ) (v : Byte) : X16Bus δ :=
  if addr < 0x9F00 then b.writeRam addr v
  else if addr < 0xA000 then { b with io := dev.ioWrite addr v b.io }
  else if addr < 0xC000 then
    if b.ramBank.toNat < RAM_BANKS then
      { b with bram := Function.update b.bram (bramIndex b.ramBank.toNat addr) v }
    else b
  else b

end X16Bus

/-! ## HostFS -/

/-- The drive with the KERNAL variables it sets; an address of 0 was not found. -/
structure HostFs (δ : Type) where
  dos : Dos
  bus : X16Bus δ
  cbdosFlags : ℕ
  statusAddr : ℕ

/-- The registers a call reads and sets. -/
structure Regs where
  a : Byte
  x : Byte
  y : Byte
  p : Byte
  sp : Byte
  pc : ℕ

namespace HostFs

variable {δ : Type} (dev : Devices δ)

def setKernalStatus (h : HostFs δ) (s : Byte) : HostFs δ :=
  if h.statusAddr ≠ 0 then { h with bus := h.bus.write8 dev h.statusAddr s } else h

/-- `onErrorFlag`, for a call that has changed the error flag. -/
def mirrorError (h : HostFs δ) : HostFs δ :=
  match h.dos.errorNote with
  | none => h
  | some error =>
    let h := { h with dos := { h.dos with errorNote := none } }
    if h.cbdosFlags ≠ 0 then
      let (f, bus) := h.bus.read8 dev h.cbdosFlags
      { h with bus := bus.write8 dev h.cbdosFlags (if error then f ||| 0x20 else f &&& ~~~0x20) }
    else h

/-- The address after `addr`: the RAM banks are one behind the other. -/
structure Place where
  addr : ℕ
  ramBank : Byte

/-- Step to the next address; the bank latch is written when the bank changes. -/
def advance (bus : X16Bus δ) (p : Place) : Place × X16Bus δ :=
  let addr := (p.addr + 1) % 0x10000
  if addr = 0xC000 then
    let ramBank := p.ramBank + 1
    ({ addr := 0xA000, ramBank }, bus.write8 dev 0 ramBank)
  else ({ p with addr }, bus)

/-- The bytes of one MACPTR call, `n` of them still asked for. -/
def macptrLoop (streamMode : Bool) (endpos : ℕ) :
    ℕ → ℕ → Place → File → Dos → X16Bus δ → ℤ × ℕ × Dos × X16Bus δ
  | 0, _, _, f, d, bus => (0, 0, d.setCh { d.ch with f := some f }, bus)
  | n + 1, curpos, p, f, d, bus =>
    match f.fgetc with
    | (none, f) => (0x42, 0, d.setCh { d.ch with f := some f }, bus)
    | (some b, f) =>
      let curpos := curpos + 1
      let last := decide (curpos = endpos)
      let d := if last then (d.setCh { d.ch with read := false, f := some f }).cclose else d
      let bus := bus.write8 dev p.addr b
      let (p, bus) := if streamMode then (p, bus) else advance dev bus p
      if last then (0x40, 1, d, bus)
      else
        let (ret, i, d, bus) := macptrLoop streamMode endpos n curpos p f d bus
        (ret, i + 1, d, bus)

/-- A count byte of 0 asks for 256. -/
def blockCount (count : Byte) : ℕ := if count = 0 then 256 else count.toNat

def macptr (addr : ℕ) (count : Byte) (streamMode : Bool) (h : HostFs δ) : ℤ × ℕ × HostFs δ :=
  if h.dos.talking = false then (-2, count.toNat, h)
  else
    let (ramBank, bus) := h.bus.read8 dev 0
    let d := h.dos
    match d.ch.f with
    | none => (-3, 0, { h with bus })
    | some f =>
      if d.channel ≠ 15 ∧ d.ch.read = true ∧ ¬ d.ch.directory then
        let curpos := f.pos
        let f := f.seekEnd
        let endpos := f.pos
        let f := f.fseek curpos
        let (ret, i, dos, bus) :=
          macptrLoop dev streamMode endpos (blockCount count) curpos ⟨addr, ramBank⟩ f d bus
        (ret, i, { h with dos, bus })
      else (-3, 0, { h with bus })

section

variable (command : List Byte → Dos → Dos) (continueDirectoryListing : Dos → List Byte × Dos)

/-- The bytes of one MCIOUT call, `n` of them still to send. -/
def mcioutLoop (streamMode : Bool) : ℕ → Place → Dos → X16Bus δ → ℤ × ℕ × Dos × X16Bus δ
  | 0, _, d, bus => (0, 0, d, bus)
  | n + 1, p, d, bus =>
    let (b, bus) := bus.read8 dev p.addr
    let (p, bus) := if streamMode then (p, bus) else advance dev bus p
    let (ret, d) := d.ciout command b
    if ret ≠ 0 then (ret, 1, d, bus)
    else
      let (ret, i, d, bus) := mcioutLoop streamMode n p d bus
      (ret, i + 1, d, bus)

def mciout (addr : ℕ) (count : Byte) (streamMode : Bool) (h : HostFs δ) : ℤ × ℕ × HostFs δ :=
  if h.dos.listening = false then (-2, count.toNat, h)
  else
    let (ramBank, bus) := h.bus.read8 dev 0
    if h.dos.ch.f.isSome ∧ h.dos.ch.write = true then
      let (ret, i, dos, bus) :=
        mcioutLoop dev command streamMode (blockCount count) ⟨addr, ramBank⟩ h.dos bus
      (ret, i, { h with dos, bus })
    else (-3, 0, { h with bus })

/-- The KERNAL calls that move bytes. -/
inductive Call where
  | mciout | macptr | acptr | ciout
  deriving DecidableEq

/-- The KERNAL's signature is in the current ROM bank. -/
def kernal (h : HostFs δ) : Prop :=
  (h.bus.peekRom 0xFFF6 = 0x4D ∧ h.bus.peekRom 0xFFF7 = 0x49 ∧ h.bus.peekRom 0xFFF8 = 0x53 ∧
    h.bus.peekRom 0xFFF9 = 0x54) ∨
  (h.bus.peekRom 0xC008 = 0x4D ∧ h.bus.peekRom 0xC009 = 0x49 ∧ h.bus.peekRom 0xC00A = 0x53 ∧
    h.bus.peekRom 0xC00B = 0x54)

instance (h : HostFs δ) : Decidable h.kernal := inferInstanceAs (Decidable (_ ∨ _))

/-- The drive's part of a call: STATUS or a negative reply, and the registers it sets. -/
def serve (call : Call) (r : Regs) (h : HostFs δ) : ℤ × Regs × HostFs δ :=
  match call with
  | .macptr | .mciout =>
    let addr := r.y.toNat * 256 + r.x.toNat
    let streamMode := r.p.getLsbD 0
    let (s, count, h) :=
      if call = .macptr then macptr dev addr r.a streamMode h
      else mciout dev command addr r.a streamMode h
    if s = -2 then (s, r, h)
    else if s = -3 then (s, { r with p := r.p ||| 0x01 }, h)
    else
      (s, { r with
        x := BitVec.ofNat 8 count, y := BitVec.ofNat 8 (count / 256), p := r.p &&& 0xFE }, h)
  | .acptr =>
    let (s, a, dos) := h.dos.acptr continueDirectoryListing r.a
    let h := { h with dos }
    if s = -2 then (s, r, h)
    else (s, { r with a, p := (r.p &&& ~~~3) ||| if a = 0 then 2 else 0 }, h)
  | .ciout =>
    let (s, dos) := h.dos.ciout command r.a
    (s, if s = -2 then r else { r with p := r.p &&& 0xFE }, { h with dos })

/-- A KERNAL call: none if the KERNAL has to serve it. `sdCard` is an SD card serving unit 8. -/
def handle (sdCard : Bool) (call : Call) (r : Regs) (h : HostFs δ) : Option (Regs × HostFs δ) :=
  if ¬ h.kernal ∨ sdCard = true then none
  else
    let (s, r, h) := serve dev command continueDirectoryListing call r h
    let h := h.mirrorError dev
    if s = -2 then none
    else
      let h := if 0 ≤ s then h.setKernalStatus dev (BitVec.ofInt 8 s) else h
      let (lo, bus) := h.bus.read8 dev (0x0100 + (r.sp + 1).toNat)
      let (hi, bus) := bus.read8 dev (0x0100 + (r.sp + 2).toNat)
      some ({ r with sp := r.sp + 2, pc := (hi.toNat * 256 + lo.toNat + 1) % 0x10000 }, { h with bus })

end

end HostFs

end Mmemu.Source.X16HostFs
