import Mathlib.Logic.Function.Basic
import Mmemu.Source.Cpu6502Step

/-!
# Atari 8-bit cartridges

Source: src/plugins/machines/atari/main/atari_cart.cpp and atari_cart.h. The names of the types, which
are only shown, and the texts of the refusals are left out. WILL_16 is not among `TYPES`, so that no
cartridge has it.
-/
namespace Mmemu.Source.Atari8
open Mmemu.Source.MemoryBus

abbrev Byte := BitVec 8

inductive CartType where
  | STD_8 | STD_16 | OSS_034M_16 | DB_32 | WILL_64 | EXP_64 | DIAMOND_64 | SDX_64 | XEGS_32 | XEGS_07_64
  | XEGS_128 | OSS_M091_16 | WILL_32 | XEGS_256 | XEGS_512 | XEGS_1024 | MEGA_16 | MEGA_32 | MEGA_64
  | MEGA_128 | MEGA_256 | MEGA_512 | MEGA_1024 | SWXEGS_32 | SWXEGS_64 | SWXEGS_128 | SWXEGS_256
  | SWXEGS_512 | SWXEGS_1024 | PHOENIX_8 | BLIZZARD_16 | ATMAX_128 | ATMAX_OLD_1024 | SDX_128 | OSS_8
  | OSS_043M_16 | MEGA_2048 | ATMAX_NEW_1024
  deriving DecidableEq, Repr

/-- `TYPES`: the number in a header, the type and its kilobytes. -/
def TYPES : List (ℕ × CartType × ℕ) := [
  (1, .STD_8, 8), (2, .STD_16, 16), (3, .OSS_034M_16, 16), (5, .DB_32, 32), (8, .WILL_64, 64),
  (9, .EXP_64, 64), (10, .DIAMOND_64, 64), (11, .SDX_64, 64), (12, .XEGS_32, 32), (13, .XEGS_07_64, 64),
  (14, .XEGS_128, 128), (15, .OSS_M091_16, 16), (22, .WILL_32, 32), (23, .XEGS_256, 256),
  (24, .XEGS_512, 512), (25, .XEGS_1024, 1024), (26, .MEGA_16, 16), (27, .MEGA_32, 32), (28, .MEGA_64, 64),
  (29, .MEGA_128, 128), (30, .MEGA_256, 256), (31, .MEGA_512, 512), (32, .MEGA_1024, 1024),
  (33, .SWXEGS_32, 32), (34, .SWXEGS_64, 64), (35, .SWXEGS_128, 128), (36, .SWXEGS_256, 256),
  (37, .SWXEGS_512, 512), (38, .SWXEGS_1024, 1024), (39, .PHOENIX_8, 8), (40, .BLIZZARD_16, 16),
  (41, .ATMAX_128, 128), (42, .ATMAX_OLD_1024, 1024), (43, .SDX_128, 128), (44, .OSS_8, 8),
  (45, .OSS_043M_16, 16), (64, .MEGA_2048, 2048), (75, .ATMAX_NEW_1024, 1024)]

def info (type : ℕ) : Option (CartType × ℕ) := (TYPES.find? (·.1 = type)).map Prod.snd

namespace CartType

def kb (t : CartType) : ℕ := ((TYPES.find? (·.2.1 = t)).map fun entry => entry.2.2).getD 0

def isXegs : CartType → Bool
  | XEGS_32 | XEGS_07_64 | XEGS_128 | XEGS_256 | XEGS_512 | XEGS_1024 | SWXEGS_32 | SWXEGS_64 | SWXEGS_128
  | SWXEGS_256 | SWXEGS_512 | SWXEGS_1024 | DB_32 => true
  | _ => false

def isMega : CartType → Bool
  | MEGA_16 | MEGA_32 | MEGA_64 | MEGA_128 | MEGA_256 | MEGA_512 | MEGA_1024 | MEGA_2048 => true
  | _ => false

end CartType

/-- A cartridge that `load` has filled: the image has the size of its type. -/
structure Cartridge where
  m_type : CartType
  m_state : BitVec 32
  m_rom : List Byte
  sized : m_rom.length = m_type.kb * 1024

inductive Refusal where
  | notACartridge
  | unsupported (type : ℕ)
  | short (type : CartType) (got : ℕ)
  deriving DecidableEq, Repr

namespace Cartridge

def reset (c : Cartridge) : Cartridge :=
  { c with
    m_state := match c.m_type with
      | .OSS_034M_16 => 1
      | .ATMAX_OLD_1024 => 0x7F
      | _ => 0 }

/-- The end of `load`, where the type is known: too short an image is refused, a longer one cut. -/
def filled (type : CartType) (rom : List Byte) : Except Refusal Cartridge :=
  if enough : type.kb * 1024 ≤ rom.length then
    .ok (reset ⟨type, 0, rom.take (type.kb * 1024), List.length_take_of_le enough⟩)
  else .error (.short type rom.length)

def load (bytes : List Byte) : Except Refusal Cartridge :=
  if 16 ≤ bytes.length ∧ bytes.take 4 = [0x43, 0x41, 0x52, 0x54] then
    let at_ (i : ℕ) : Byte := bytes.getD i 0
    let type := (at_ 4 ++ at_ 5 ++ at_ 6 ++ at_ 7).toNat
    match info type with
    | none => .error (.unsupported type)
    | some (t, _) => filled t (bytes.drop 16)
  else if bytes.length = 8192 then filled .STD_8 bytes
  else if bytes.length = 16384 then filled .STD_16 bytes
  else .error .notACartridge

def rd4 (c : Cartridge) : Bool :=
  match c.m_type with
  | .STD_16 => true
  | .BLIZZARD_16 => c.m_state = 0
  | t => if t.isXegs || t.isMega then !c.m_state.getLsbD 7 else false

def rd5 (c : Cartridge) : Bool :=
  match c.m_type with
  | .STD_8 | .STD_16 => true
  | .PHOENIX_8 | .BLIZZARD_16 => c.m_state = 0
  | .OSS_034M_16 | .OSS_043M_16 | .OSS_M091_16 | .OSS_8 => !c.m_state.msb
  | .WILL_64 | .WILL_32 | .EXP_64 | .DIAMOND_64 | .SDX_64 | .SDX_128 => !c.m_state.getLsbD 3
  | .ATMAX_128 => !c.m_state.getLsbD 4
  | .ATMAX_OLD_1024 | .ATMAX_NEW_1024 => !c.m_state.getLsbD 7
  | t => if t.isXegs || t.isMega then !c.m_state.getLsbD 7 else false

/-- The place in the image that `read` returns a byte from; `none` where it returns $FF without a look. -/
def offset (c : Cartridge) (addr : BitVec 16) : Option ℕ :=
  let bank (mask : BitVec 32) : ℕ := (c.m_state &&& mask).toNat
  if addr < 0xA000 then
    let off := (addr - 0x8000).toNat
    match c.m_type with
    | .STD_16 | .BLIZZARD_16 => some off
    | t =>
      if t.isXegs then some (bank 0x7F * 0x2000 + off)
      else if t.isMega then some (bank 0x7F * 0x4000 + off)
      else none
  else
    let off := (addr - 0xA000).toNat
    match c.m_type with
    | .STD_8 | .PHOENIX_8 => some off
    | .STD_16 | .BLIZZARD_16 => some (0x2000 + off)
    | .OSS_034M_16 | .OSS_043M_16 | .OSS_M091_16 | .OSS_8 =>
      let fixed := match c.m_type with
        | .OSS_034M_16 | .OSS_043M_16 => 0x3000
        | _ => 0
      if 0x1000 ≤ off then some (fixed + off - 0x1000)
      else if c.m_state = 0xFF then none
      -- a negative state becomes a `size_t`, whose product and sum wrap
      else some (c.m_state.signExtend 64 * 0x1000 + BitVec.ofNat 64 off).toNat
    | .WILL_64 | .WILL_32 | .EXP_64 | .DIAMOND_64 | .SDX_64 => some (bank 7 * 0x2000 + off)
    | .SDX_128 => some ((bank 7 + bank 0x10 / 2) * 0x2000 + off)
    | .ATMAX_128 => some (bank 0x0F * 0x2000 + off)
    | .ATMAX_OLD_1024 | .ATMAX_NEW_1024 => some (bank 0x7F * 0x2000 + off)
    | t =>
      if t.isXegs then some (c.m_rom.length - 0x2000 + off)
      else if t.isMega then some (bank 0x7F * 0x4000 + 0x2000 + off)
      else none

/-- `at` guards each place it is asked for. -/
def read (c : Cartridge) (addr : BitVec 16) : Byte :=
  match c.offset addr with
  | some i => c.m_rom.getD i 0xFF
  | none => 0xFF

def setState (c : Cartridge) (s : BitVec 32) : Cartridge := { c with m_state := s }

/-- What an access to $D5xx makes of the state, by the low byte of its address. -/
def switched (c : Cartridge) (a : BitVec 32) : BitVec 32 :=
  match c.m_type with
  | .OSS_034M_16 | .OSS_043M_16 =>
    if a &&& 0x08 ≠ 0 then -1
    else if a &&& 0x07 = 0 then 0
    else if a &&& 0x07 = 3 ∨ a &&& 0x07 = 7 then if c.m_type = .OSS_034M_16 then 1 else 2
    else if a &&& 0x07 = 4 then if c.m_type = .OSS_034M_16 then 2 else 1
    else 0xFF
  | .OSS_M091_16 =>
    if a &&& 0x09 = 0 then 1 else if a &&& 0x09 = 1 then 3 else if a &&& 0x09 = 8 then -1 else 2
  | .OSS_8 => if a &&& 0x09 = 0 ∨ a &&& 0x09 = 1 then 1 else if a &&& 0x09 = 8 then -1 else 0
  | .DB_32 => a &&& 0x03
  | .WILL_64 => a &&& 0x0F
  | .WILL_32 => a &&& 0x0B
  | .EXP_64 => if a &&& 0xF0 = 0x70 then (a ^^^ 7) &&& 0x0F else c.m_state
  | .DIAMOND_64 => if a &&& 0xF0 = 0xD0 then (a ^^^ 7) &&& 0x0F else c.m_state
  | .SDX_64 =>
    if a &&& 0xF0 = 0xE0 then if a &&& 0x08 ≠ 0 then a &&& 0x0C else (a ^^^ 0x07) &&& 0x0F else c.m_state
  | .SDX_128 =>
    if a &&& 0xE0 = 0xE0 then if a &&& 0x08 ≠ 0 then a &&& 0x0C else (a ^^^ 0x17) &&& 0x1F else c.m_state
  | .PHOENIX_8 | .BLIZZARD_16 => 1
  | .ATMAX_128 => if a &&& 0xE0 = 0 then a &&& 0x1F else c.m_state
  | .ATMAX_OLD_1024 | .ATMAX_NEW_1024 => a
  | _ => c.m_state

def access (c : Cartridge) (addr : BitVec 16) : Cartridge :=
  c.setState (c.switched ((addr.setWidth 8).setWidth 32))

def readCctl (c : Cartridge) (addr : BitVec 16) : Byte × Cartridge := (0xFF, c.access addr)

/-- The bits of a write to $D5xx that the types keep which are switched by its value. -/
def valueMask : CartType → Option Byte
  | .XEGS_32 => some 0x03
  | .XEGS_07_64 => some 0x07
  | .XEGS_128 => some 0x0F
  | .XEGS_256 => some 0x1F
  | .XEGS_512 => some 0x3F
  | .XEGS_1024 => some 0x7F
  | .MEGA_16 => some 0x80
  | .MEGA_32 => some 0x81
  | .MEGA_64 | .SWXEGS_32 => some 0x83
  | .MEGA_128 | .SWXEGS_64 => some 0x87
  | .MEGA_256 | .SWXEGS_128 => some 0x8F
  | .MEGA_512 | .SWXEGS_256 => some 0x9F
  | .MEGA_1024 | .SWXEGS_512 => some 0xBF
  | .MEGA_2048 | .SWXEGS_1024 => some 0xFF
  | _ => none

def writeCctl (c : Cartridge) (addr : BitVec 16) (v : Byte) : Cartridge :=
  match valueMask c.m_type with
  | some mask => c.setState ((v &&& mask).setWidth 32)
  | none => c.access addr

end Cartridge

end Mmemu.Source.Atari8

/-!
# Atari 8-bit bus

Source: src/plugins/machines/atari/main/machine_atari.cpp. The chips behind $D000-$D7FF are a world of
their own: their accesses, what the PIA's port B puts out in one and the GTIA's trigger 3 are parameters.
Snapshots and the observer are left out.
-/
namespace Mmemu.Source.Atari8
open Mmemu.Source.MemoryBus

inductive Chip where
  | gtia | pokey | pia | antic
  deriving DecidableEq, Repr

/-- GTIA, POKEY, PIA and ANTIC. A write and a reset also give the levels that port B is then set to, in
their order. -/
class Chips (δ : Type) where
  ioRead : δ → Chip → BitVec 16 → Byte × δ
  ioPeek : δ → Chip → BitVec 16 → Byte
  ioWrite : δ → Chip → BitVec 16 → Byte → δ × List Byte
  reset : δ → δ × List Byte
  setTrigger : δ → Bool → δ

/-- `trig3` is the GTIA's `m_trig[3]` again; `fault` tells that a ROM has been read outside its image. -/
structure AtariBus (δ : Type) where
  m_xl : Bool
  m_os : List Byte
  m_basic : List Byte
  m_ram : BitVec 16 → Byte
  m_osOn : Bool
  m_basicOn : Bool
  m_selfTestOn : Bool
  m_cart : Option Cartridge
  chips : δ
  trig3 : Bool
  fault : Bool

namespace AtariBus
variable {δ : Type}

/-- XL/XE banking from PIA port B's output. -/
def setPortB (b : AtariBus δ) (v : Byte) : AtariBus δ :=
  if b.m_xl then
    { b with m_osOn := v.getLsbD 0, m_basicOn := !v.getLsbD 1, m_selfTestOn := !v.getLsbD 7 && v.getLsbD 0 }
  else b

def resetBanking (b : AtariBus δ) : AtariBus δ :=
  if b.m_xl then b.setPortB 0xFF
  else { b with m_osOn := true, m_basicOn := !b.m_basic.isEmpty && b.m_cart.isNone, m_selfTestOn := false }

def setCartridge (b : AtariBus δ) (cart : Option Cartridge) : AtariBus δ :=
  resetBanking { b with m_cart := cart }

def cartChanged [Chips δ] (b : AtariBus δ) : AtariBus δ :=
  let pressed := !b.m_cart.any Cartridge.rd5
  if b.m_xl then { b with trig3 := pressed, chips := Chips.setTrigger b.chips pressed } else b

/-- The cartridge answers at the address. -/
def selects (c : Cartridge) (addr : BitVec 16) : Bool :=
  0x8000 ≤ addr && addr < 0xC000 && if addr < 0xA000 then c.rd4 else c.rd5

/-- Which chip answers a $D000-$D7FF address, and the address it decodes. -/
def ioAddr (addr : BitVec 16) : Option (Chip × BitVec 16) :=
  let page := (addr >>> 8) &&& 0x07
  if page = 0 then some (.gtia, 0xD000 ||| (addr &&& 0x1F))
  else if page = 2 then some (.pokey, 0xD200 ||| (addr &&& 0x0F))
  else if page = 3 then
    -- PORTA, PORTB, PACTL, PBCTL: A0 picks the port, A1 data or control
    some (.pia, 0xD300 ||| ([0, 2, 1, 3].getD (addr &&& 3).toNat 0))
  else if page = 4 then some (.antic, 0xD400 ||| (addr &&& 0x0F))
  else none

/-- A byte of a ROM image. -/
def rom (b : AtariBus δ) (image : List Byte) (i : ℕ) : Byte × AtariBus δ :=
  (image.getD i 0, { b with fault := b.fault || decide (image.length ≤ i) })

def writable (b : AtariBus δ) (addr : BitVec 16) : Bool :=
  if b.m_cart.any (selects · addr) then false
  else if b.m_xl then
    if b.m_osOn && ((0xC000 ≤ addr && addr < 0xD000) || 0xD800 ≤ addr) then false
    else if b.m_basicOn && (0xA000 ≤ addr && addr < 0xC000) then false
    else !(b.m_selfTestOn && (0x5000 ≤ addr && addr < 0x5800))
  else if 0xC000 ≤ addr then false
  else !(b.m_basicOn && 0xA000 ≤ addr)

/-- `read`, from the ROMs and the RAM on. -/
def memory (b : AtariBus δ) (addr : BitVec 16) : Byte × AtariBus δ :=
  if b.m_xl then
    if b.m_osOn && ((0xC000 ≤ addr && addr < 0xD000) || 0xD800 ≤ addr) then
      b.rom b.m_os (addr - 0xC000).toNat
    else if b.m_selfTestOn && (0x5000 ≤ addr && addr < 0x5800) then
      b.rom b.m_os (0x1000 + (addr - 0x5000).toNat)
    else if b.m_basicOn && (0xA000 ≤ addr && addr < 0xC000) then b.rom b.m_basic (addr - 0xA000).toNat
    else (b.m_ram addr, b)
  else if 0xD800 ≤ addr then b.rom b.m_os (addr - 0xD800).toNat
  else if 0xC000 ≤ addr then (0xFF, b)
  else if b.m_basicOn && 0xA000 ≤ addr then b.rom b.m_basic (addr - 0xA000).toNat
  else (b.m_ram addr, b)

variable [Chips δ]

def read (b : AtariBus δ) (addr : BitVec 16) (peek : Bool) : Byte × AtariBus δ :=
  if 0xD500 ≤ addr && addr < 0xD600 then
    match b.m_cart with
    | none => (0xFF, b)
    | some cart =>
      if peek then (0xFF, b)
      else ((cart.readCctl addr).1, cartChanged { b with m_cart := some (cart.readCctl addr).2 })
  else
    match b.m_cart.filter (selects · addr) with
    | some cart => (cart.read addr, b)
    | none =>
      if 0xD000 ≤ addr && addr < 0xD800 then
        match ioAddr addr with
        | none => (0xFF, b)
        | some (chip, a) =>
          if peek then (Chips.ioPeek b.chips chip a, b)
          else ((Chips.ioRead b.chips chip a).1, { b with chips := (Chips.ioRead b.chips chip a).2 })
      else b.memory addr

instance : IBus (AtariBus δ) where
  read8 b addr := b.read (addr.setWidth 16) false
  peek8 b addr := (b.read (addr.setWidth 16) true).1
  write8 b addr val :=
    let addr := addr.setWidth 16
    if 0xD500 ≤ addr && addr < 0xD600 then
      match b.m_cart with
      | none => b
      | some cart => cartChanged { b with m_cart := some (cart.writeCctl addr val) }
    else if 0xD000 ≤ addr && addr < 0xD800 then
      match ioAddr addr with
      | none => b
      | some (chip, a) =>
        (Chips.ioWrite b.chips chip a val).2.foldl setPortB { b with chips := (Chips.ioWrite b.chips chip a val).1 }
    else if b.writable addr then { b with m_ram := Function.update b.m_ram addr val }
    else b

end AtariBus

/-! ## The machine -/

section Machine
variable {δ : Type} [Chips δ]

abbrev Machine (δ : Type) := Cpu6502.MOS6502 (AtariBus δ)

def wiring : Cpu6502.Wiring (AtariBus δ) := ⟨none, none, none⟩

/-- `onReset`, up to the reset of the core. The XL's banking port is reset to inputs, which float high. -/
def resetBus (b : AtariBus δ) : AtariBus δ :=
  let b := (Chips.reset b.chips).2.foldl AtariBus.setPortB { b with chips := (Chips.reset b.chips).1, trig3 := false }
  let b := { b with m_cart := b.m_cart.map Cartridge.reset }
  ((b.setPortB 0xFF).resetBanking).cartChanged

def onReset (m : Machine δ) : Machine δ := (Cpu6502.reset { m with bus := resetBus m.bus }).2

/-- The machine with its ROMs, which `loadRom` accepts only at their sizes. -/
def createMachine (xl : Bool) (os basic : List Byte) (chips : δ) : Option (Machine δ) :=
  if os.length = (if xl then 16384 else 10240) ∧ basic.length = 8192 then
    let bus : AtariBus δ :=
      { m_xl := xl, m_os := os, m_basic := basic, m_ram := fun _ => 0, m_osOn := true, m_basicOn := false
        m_selfTestOn := false, m_cart := none, chips := chips, trig3 := false, fault := false }
    some (onReset ⟨default, bus.resetBanking, false, 0, 0⟩)
  else none

def insertCartridge (m : Machine δ) (image : List Byte) : Except Refusal (Machine δ) :=
  (Cartridge.load image).map fun cart => onReset { m with bus := m.bus.setCartridge (some cart) }

def removeCartridge (m : Machine δ) : Machine δ := onReset { m with bus := m.bus.setCartridge none }

end Machine

end Mmemu.Source.Atari8
