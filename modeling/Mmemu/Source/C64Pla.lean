import Mmemu.Library.UndoLog
import Mmemu.Source.MemoryBus

/-!
# Commodore 64: the system bus

Source: src/plugins/devices/c64_pla/main/c64_pla.cpp, src/libmem/main/memory_bus.cpp (with its
I/O hooks), src/libdevices/main/io_registry.cpp and machines/c64.json. The PLA comes first of the
handlers; the chips behind it answer by address alone, which is what `C64Devices` says of them.
-/
namespace Mmemu.Source.C64Pla
open Mmemu.Source.MemoryBus
open Mmemu.Library.UndoLog

/-! ## The memory map -/

def KERNAL : BitVec 32 := 0xCC00CCCC
def BASIC : BitVec 32 := 0x00008888
def CHARROM : BitVec 32 := 0x0C000E0E
def IO_AREA : BitVec 32 := 0xE0FFE0E0
def ROML : BitVec 32 := 0x88FF8800
def ROMH_A : BitVec 32 := 0xCC000000
def ULTIMAX : BitVec 32 := 0x00FF0000

/-- The lines of the 6510 port and of the expansion port, and the ROMs. -/
structure C64PLA where
  loram : Bool
  hiram : Bool
  charen : Bool
  exrom : Bool
  game : Bool
  basicRom : Option (List (BitVec 8))
  kernalRom : Option (List (BitVec 8))
  charRom : Option (List (BitVec 8))
  roml : Option (List (BitVec 8))
  romh : Option (List (BitVec 8))

def romByte (rom : Option (List (BitVec 8))) (off : BitVec 16) : BitVec 8 :=
  match rom with
  | some rom => rom.getD off.toNat 0xFF
  | none => 0xFF

namespace C64PLA

/-- The memory configuration, 0-31. -/
def config (p : C64PLA) : ℕ :=
  p.loram.toNat ||| p.hiram.toNat <<< 1 ||| p.charen.toNat <<< 2 ||| p.exrom.toNat <<< 3 |||
    p.game.toNat <<< 4

def in_ (p : C64PLA) (set : BitVec 32) : Bool := set.getLsbD p.config

/-- What a read of the PLA gives; none goes on to the chips, or to the bus below $1000. -/
def ioRead (p : C64PLA) (ram : BitVec 16 → BitVec 8) (addr : BitVec 16) : Option (BitVec 8) :=
  if addr < 0x1000 then none
  else if addr < 0x8000 then
    if p.in_ ULTIMAX then some 0xFF else some (ram addr)
  else if addr < 0xA000 then
    if p.in_ ROML then some (romByte p.roml (addr - 0x8000)) else some (ram addr)
  else if addr < 0xC000 then
    if p.in_ BASIC then some (romByte p.basicRom (addr - 0xA000))
    else if p.in_ ROMH_A then some (romByte p.romh (addr - 0xA000))
    else if p.in_ ULTIMAX then some 0xFF
    else some (ram addr)
  else if addr < 0xD000 then
    if p.in_ ULTIMAX then some 0xFF else some (ram addr)
  else if addr < 0xE000 then
    if p.in_ IO_AREA then none
    else
      match p.charRom with
      | some rom =>
        if p.in_ CHARROM then some (rom.getD ((addr - 0xD000).toNat &&& (rom.length - 1)) 0)
        else some (ram addr)
      | none => some (ram addr)
  else if p.in_ KERNAL then some (romByte p.kernalRom (addr - 0xE000))
  else if p.in_ ULTIMAX then some (romByte p.romh (addr - 0xE000))
  else some (ram addr)

/-- $D000-$DFFF. -/
def isIo (addr : BitVec 16) : Bool := 0xD000 ≤ addr && addr < 0xE000

/-- A write of the PLA: whether it ends there, and the RAM. -/
def ioWrite (p : C64PLA) (ram : BitVec 16 → BitVec 8) (addr : BitVec 16) (val : BitVec 8) :
    Bool × (BitVec 16 → BitVec 8) :=
  if addr < 0x1000 then (false, ram)
  else if p.in_ ULTIMAX then (!isIo addr, ram)
  else if isIo addr && !p.in_ IO_AREA then (true, Function.update ram addr val)
  else (false, ram)

end C64PLA

/-! ## The bus -/

/-- The chips: each answers at addresses of its own, and none outside $D000-$DFFF. -/
class C64Devices (δ : Type) where
  takes : BitVec 16 → Bool
  ioRead : δ → BitVec 16 → BitVec 8 × δ
  ioPeek : δ → BitVec 16 → BitVec 8
  ioWrite : δ → BitVec 16 → BitVec 8 → δ
  inIo : ∀ addr, takes addr = true → C64PLA.isIo addr = true

structure C64Bus (δ : Type) where
  pla : C64PLA
  ram : BitVec 16 → BitVec 8
  devices : δ

section Bus
variable {δ : Type} [C64Devices δ]

def C64Bus.read8 (b : C64Bus δ) (addr : BitVec 32) : BitVec 8 × C64Bus δ :=
  let addr : BitVec 16 := addr.setWidth 16
  match b.pla.ioRead b.ram addr with
  | some val => (val, b)
  | none =>
    if C64Devices.takes δ addr then
      let (val, devices) := C64Devices.ioRead b.devices addr
      (val, { b with devices := devices })
    else (b.ram addr, b)

def C64Bus.peek8 (b : C64Bus δ) (addr : BitVec 32) : BitVec 8 :=
  let addr : BitVec 16 := addr.setWidth 16
  match b.pla.ioRead b.ram addr with
  | some val => val
  | none => if C64Devices.takes δ addr then C64Devices.ioPeek b.devices addr else b.ram addr

def C64Bus.write8 (b : C64Bus δ) (addr : BitVec 32) (val : BitVec 8) : C64Bus δ :=
  let addr : BitVec 16 := addr.setWidth 16
  let (taken, ram) := b.pla.ioWrite b.ram addr val
  if taken then { b with ram := ram }
  else if C64Devices.takes δ addr then
    { b with devices := C64Devices.ioWrite b.devices addr val }
  else { b with ram := Function.update b.ram addr val }

instance : IBus (C64Bus δ) := ⟨C64Bus.read8, C64Bus.write8, C64Bus.peek8⟩

/-! ## Where writes go -/

/-- A write to this address lands in RAM. -/
def C64PLA.stores (δ : Type) [C64Devices δ] (p : C64PLA) (addr : BitVec 16) : Bool :=
  if addr < 0x1000 then true
  else if isIo addr then !p.in_ IO_AREA || !C64Devices.takes δ addr
  else !p.in_ ULTIMAX

/-- In the Ultimax mode the chips are always there. -/
theorem C64PLA.io_of_ultimax {p : C64PLA} (ultimax : p.in_ ULTIMAX = true) :
    p.in_ IO_AREA = true := by
  have part : ULTIMAX = ULTIMAX &&& IO_AREA := by decide
  unfold C64PLA.in_ at ultimax ⊢
  rw [part, BitVec.getLsbD_and, Bool.and_eq_true] at ultimax
  exact ultimax.2

theorem C64Bus.write8_pla (b : C64Bus δ) (addr : BitVec 32) (val : BitVec 8) :
    (b.write8 addr val).pla = b.pla := by
  unfold C64Bus.write8
  extract_lets a
  split
  split
  · rfl
  · split <;> rfl

theorem C64Bus.write8_ram (b : C64Bus δ) (addr : BitVec 32) (val : BitVec 8) :
    (b.write8 addr val).ram =
      if b.pla.stores δ (addr.setWidth 16) then Function.update b.ram (addr.setWidth 16) val
      else b.ram := by
  unfold C64Bus.write8
  extract_lets a
  have chips (outside : C64PLA.isIo a = false) : C64Devices.takes δ a = false :=
    Bool.eq_false_iff.mpr fun taken =>
      Bool.false_ne_true (outside.symm.trans (C64Devices.inIo a taken))
  change _ = if b.pla.stores δ a then Function.update b.ram a val else b.ram
  unfold C64PLA.ioWrite C64PLA.stores
  by_cases low : a < 0x1000
  · have outside : C64PLA.isIo a = false := by
      rw [C64PLA.isIo, Bool.and_eq_false_iff]
      refine .inl (decide_eq_false fun high => absurd low ?_)
      exact BitVec.not_lt.mpr (BitVec.le_trans (by decide) high)
    simp only [if_pos low, chips outside, if_true, Bool.false_eq_true, if_false]
  · simp only [if_neg low]
    cases io : C64PLA.isIo a with
    | true =>
      cases mapped : b.pla.in_ IO_AREA with
      | true =>
        cases taken : C64Devices.takes δ a with
        | true => cases b.pla.in_ ULTIMAX <;> simp
        | false => cases b.pla.in_ ULTIMAX <;> simp
      | false =>
        have noUltimax : b.pla.in_ ULTIMAX = false := Bool.eq_false_iff.mpr fun ultimax =>
          Bool.false_ne_true (mapped.symm.trans (C64PLA.io_of_ultimax ultimax))
        simp [noUltimax]
    | false =>
      cases b.pla.in_ ULTIMAX with
      | true => simp
      | false => simp [chips io]

/-- RAM, seen through the writes of the bus. -/
theorem C64Bus.overwrites (p : C64PLA) :
    Overwrites (fun (b : C64Bus δ) a => b.ram a) (fun b a v => b.write8 (a.setWidth 32) v)
      (fun a x => a = x ∧ p.stores δ a = true) (fun b => b.pla = p) where
  keeps b a v inv := (b.write8_pla _ v).trans inv
  read_write b a v x inv := by
    have narrow : (a.setWidth 32).setWidth 16 = a := by simp
    rw [C64Bus.write8_ram, narrow, inv]
    by_cases stored : p.stores δ a = true
    · rw [if_pos stored]
      by_cases same : a = x
      · simp [same, same ▸ stored]
      · simp [same, Function.update_of_ne (Ne.symm same)]
    · rw [if_neg stored, if_neg fun hit => stored hit.2]
  shared b a x _ hit := by rw [hit.1]

end Bus
end Mmemu.Source.C64Pla
