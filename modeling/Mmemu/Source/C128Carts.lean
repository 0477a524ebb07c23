import Mathlib.Data.BitVec
import Mmemu.Library.CheckedBuffer

/-!
# C128 cartridges

Source: src/plugins/machines/c128/main/c128_carts.cpp and c128_carts.h. Every index into an image
or a buffer is checked; `none` is an access outside, or a loop that does not end.
-/
namespace Mmemu.Source.C128Carts
open Mmemu.Library.CheckedBuffer

abbrev Byte := BitVec 8

abbrev Bytes := Buffer Byte

/-! ## AM29F040 flash -/

inductive FlashState where
  | READ | MAGIC1 | MAGIC2 | AUTOSELECT | PROGRAM | PROGRAM_ERROR | ERASE1 | ERASE2 | ERASE_SELECT
  deriving DecidableEq, Repr

structure Flash040 where
  data : Bytes
  m_state : FlashState
  m_base : FlashState
  m_program : Byte
  m_toggle : Byte

namespace Flash040

def new : Flash040 := ⟨.new 0x80000 0xFF, .READ, .READ, 0, 0⟩

def reset (f : Flash040) : Flash040 := { f with m_state := .READ, m_base := .READ, m_program := 0 }

def read (f : Flash040) (a : BitVec 32) : Option (Byte × Flash040) :=
  match f.m_state with
  | .AUTOSELECT =>
    if a &&& 0xFF = 0 then some (0x01, f)  -- AMD
    else if a &&& 0xFF = 1 then some (0xA4, f)  -- 29F040
    else if a &&& 0xFF = 2 then some (0, f)
    else (f.data.get a.toNat).map fun v => (v, f)
  | .PROGRAM_ERROR =>
    let f := { f with m_toggle := f.m_toggle ^^^ 0x40 }
    some (((f.m_program ^^^ 0x80) &&& 0x80) ||| (f.m_toggle &&& 0x40) ||| 0x20, f)
  | _ => (f.data.get a.toNat).map fun v => (v, f)

/-- The third store of a sequence. -/
def select (f : Flash040) (b : Byte) : Flash040 :=
  match b.toNat with
  | 0x90 => { f with m_state := .AUTOSELECT, m_base := .AUTOSELECT }
  | 0xF0 => { f with m_state := .READ, m_base := .READ }
  | 0xA0 => { f with m_state := .PROGRAM }
  | 0x80 => { f with m_state := .ERASE1 }
  | _ => { f with m_state := f.m_base }

def store (f : Flash040) (a : BitVec 32) (b : Byte) : Option Flash040 :=
  let m1 := a &&& 0x7FFF = 0x5555
  let m2 := a &&& 0x7FFF = 0x2AAA
  match f.m_state with
  | .READ => some (if m1 ∧ b = 0xAA then { f with m_state := .MAGIC1 } else f)
  | .MAGIC1 => some { f with m_state := if m2 ∧ b = 0x55 then .MAGIC2 else f.m_base }
  | .MAGIC2 => some (if ¬m1 then { f with m_state := f.m_base } else f.select b)
  | .PROGRAM => do
    let old ← f.data.get a.toNat
    let data ← f.data.set a.toNat (old &&& b)
    some { f with
      m_program := b, data := data, m_state := if old &&& b = b then f.m_base else .PROGRAM_ERROR }
  | .ERASE1 => some { f with m_state := if m1 ∧ b = 0xAA then .ERASE2 else f.m_base }
  | .ERASE2 => some { f with m_state := if m2 ∧ b = 0x55 then .ERASE_SELECT else f.m_base }
  | .ERASE_SELECT => do
    let data ←
      if m1 ∧ b = 0x10 then f.data.fill 0 f.data.size 0xFF
      else if b = 0x30 then f.data.fill (a &&& 0x70000).toNat ((a &&& 0x70000).toNat + 0x10000) 0xFF
      else some f.data
    some { f with data := data, m_state := f.m_base }
  | .PROGRAM_ERROR | .AUTOSELECT =>
    let f := if m1 ∧ b = 0xAA then { f with m_state := .MAGIC1 } else f
    some (if b = 0xF0 then { f with m_state := .READ, m_base := .READ } else f)

end Flash040

/-! ## M93C86 serial EEPROM, 2 KB in 16-bit words -/

/-- `m_cmd`; `NONE` is 0. -/
inductive EepromCommand where
  | NONE | CMD00 | WRITE | READ | ERASE | WEN | WDS | ERAL | WRAL | READDUMMY | READDATA | ISBUSY | ISREADY
  deriving DecidableEq, Repr

structure M93C86 where
  data : Bytes
  m_cs : Byte
  m_clock : Byte
  m_in : Byte
  m_out : Byte
  m_inReg : BitVec 32
  m_inCount : BitVec 32
  m_outReg : Byte
  m_outCount : BitVec 32
  m_cmd : EepromCommand
  m_addr : BitVec 32
  m_wen : Bool

namespace M93C86

def new : M93C86 := ⟨.new 2048 0xFF, 0, 0, 0, 0, 0, 0, 0, 0, .NONE, 0, false⟩

def readData (e : M93C86) : Byte × M93C86 :=
  if e.m_cs = 0 then (0, e)
  else
    match e.m_cmd with
    | .ISBUSY => (0, { e with m_cmd := .ISREADY })
    | .ISREADY => (1, { e with m_cmd := .NONE })
    | _ => (e.m_out, e)

def writeData (e : M93C86) (v : Byte) : M93C86 := if e.m_cs ≠ 0 then { e with m_in := v &&& 1 } else e

def resetInput (e : M93C86) : M93C86 := { e with m_inReg := 0, m_inCount := 0 }

def writeSelect (e : M93C86) (v : Byte) : M93C86 :=
  let e :=
    if e.m_cs = 0 ∧ v ≠ 0 ∧ e.m_clock = 0 then e.resetInput
    else if e.m_cs ≠ 0 ∧ v = 0 ∧ (e.m_cmd = .WRITE ∨ e.m_cmd = .WRAL ∨ e.m_cmd = .ERAL) then
      { e with m_cmd := .ISBUSY }
    else e
  let e := { e with m_cs := v }
  if e.m_cs = 0 ∧ (e.m_cmd = .READ ∨ e.m_cmd = .READDUMMY ∨ e.m_cmd = .READDATA) then
    { e with m_cmd := .NONE }
  else e

/-- The two bytes of a word, at `i`. -/
def setWord (data : Bytes) (i : ℕ) (d0 d1 : Byte) : Option Bytes := do
  let data ← data.set i d0
  data.set (i + 1) d1

def store (e : M93C86) (d0 d1 : Byte) : Option M93C86 :=
  (setWord e.data (e.m_addr <<< 1).toNat d0 d1).map fun data => { e with data := data }

/-- Every word, up to the size of the data. -/
def storeAll (e : M93C86) (d0 d1 : Byte) : Option M93C86 :=
  ((List.range ((e.data.size + 1) / 2)).foldlM (fun data k => setWord data (2 * k) d0 d1) e.data).map
    fun data => { e with data := data }

/-- The command of the first three bits. -/
def opcode (e : M93C86) : EepromCommand :=
  match e.m_inReg.toNat with
  | 4 => .CMD00
  | 5 => .WRITE
  | 6 => .READ
  | 7 => .ERASE
  | _ => e.m_cmd

/-- Opcode 00, by two bits of the address. -/
def opcode00 (e : M93C86) : M93C86 :=
  if e.m_cmd = .CMD00 then
    match e.m_inReg.toNat with
    | 0x10 => { e with m_cmd := .WDS }
    | 0x11 => { e with m_cmd := .WRAL }
    | 0x12 => { e with m_cmd := .ERAL }
    | 0x13 => { e with m_cmd := .WEN, m_wen := true }
    | _ => e
  else e

/-- The address is there. -/
def addressed (e : M93C86) : Option M93C86 :=
  match e.m_cmd with
  | .READ => some { e with m_cmd := .READDUMMY, m_addr := e.m_inReg &&& 0x3FF }.resetInput
  | .WDS => some { { e with m_wen := false }.resetInput with m_cmd := .NONE }
  | .WEN => some { { e with m_wen := true }.resetInput with m_cmd := .NONE }
  | .ERASE => do
    let e ←
      if e.m_wen then ({ e with m_addr := e.m_inReg &&& 0x3FF } : M93C86).store 0xFF 0xFF
      else some { e with m_cmd := .NONE }
    some e.resetInput
  | .ERAL => do
    let e ←
      if e.m_wen then (e.data.fill 0 e.data.size 0xFF).map fun data => { e with data := data }
      else some { e with m_cmd := .NONE }
    some e.resetInput
  | _ => some e

/-- The data is there. -/
def filled (e : M93C86) : Option M93C86 :=
  if e.m_cmd = .WRITE ∨ e.m_cmd = .WRAL then do
    let e ←
      if e.m_wen then
        let d0 := (e.m_inReg >>> 8).setWidth 8
        let d1 := e.m_inReg.setWidth 8
        if e.m_cmd = .WRITE then ({ e with m_addr := (e.m_inReg >>> 16) &&& 0x3FF } : M93C86).store d0 d1
        else e.storeAll d0 d1
      else some { e with m_cmd := .NONE }
    some e.resetInput
  else some e

def shiftIn (e : M93C86) : Option M93C86 :=
  let e := { e with m_inReg := (e.m_inReg <<< 1) ||| e.m_in.setWidth 32, m_inCount := e.m_inCount + 1 }
  match e.m_inCount.toNat with
  | 1 => some (if e.m_in = 0 then e.resetInput else e)
  | 3 => some { e with m_cmd := e.opcode }
  | 5 => some e.opcode00
  | 13 => e.addressed
  | 29 => e.filled
  | _ => some e

/-- The next bit to the output. -/
def shiftOut (e : M93C86) : M93C86 :=
  { e with m_out := (e.m_outReg >>> 7) &&& 1, m_outReg := e.m_outReg <<< 1 }

/-- The clock rises while the chip is selected. -/
def clock (e : M93C86) : Option M93C86 :=
  match e.m_cmd with
  | .READDUMMY => do
    let b ← e.data.get (e.m_addr <<< 1).toNat
    some { { e with m_outReg := b }.shiftOut with m_outCount := 1, m_cmd := .READDATA }
  | .READDATA =>
    let e := { e.shiftOut with m_outCount := e.m_outCount + 1 }
    if e.m_outCount = 8 then do
      let b ← e.data.get ((e.m_addr <<< 1).toNat + 1)
      some { e with m_outReg := b }
    else if e.m_outCount = 16 then do
      let e := { e with m_addr := (e.m_addr + 1) &&& 0x3FF }
      let b ← e.data.get (e.m_addr <<< 1).toNat
      some { e with m_outReg := b, m_outCount := 0 }
    else some e
  | _ => e.shiftIn

def writeClock (e : M93C86) (v : Byte) : Option M93C86 :=
  (if e.m_cs ≠ 0 ∧ v ≠ 0 ∧ e.m_clock = 0 then e.clock else some e).map fun e => { e with m_clock := v }

end M93C86

/-! ## The cartridges -/

structure GenericCart where
  m_rom : Bytes
  m_type : String

structure Comal80Cart where
  m_rom : Bytes
  m_bank : ℕ
  m_reg : Byte

structure MagicDesk128Cart where
  m_rom : Bytes
  m_bank : ℕ
  m_mask : ℕ
  m_reg : Byte

structure WarpSpeed128Cart where
  m_rom : Bytes

structure Partner128Cart where
  m_rom : Bytes
  m_ram : Bytes
  m_reg : Byte
  m_bank : ℕ
  m_forced : Bool

structure GMod2C128Cart where
  m_flash : Flash040
  m_eeprom : M93C86
  m_bank : BitVec 32
  m_cs : Byte

/-- A byte of a bank of 32 KB. -/
def bankByte (rom : Bytes) (bank : ℕ) (a : BitVec 16) : Option Byte :=
  rom.get (bank * 0x8000 + (a &&& 0x7FFF).toNat)

/-- The ROM at $9E00 or $9F00. -/
def window (rom : Bytes) (base : ℕ) (a : BitVec 16) : Option Byte := rom.get (base + (a &&& 0xFF).toNat)

namespace Comal80Cart

def store (c : Comal80Cart) (v : Byte) : Comal80Cart :=
  let offset := match ((v >>> 5) &&& 3).toNat with
    | 0 | 1 => 0
    | 2 => 2
    | _ => 4
  { c with m_reg := v &&& 0xF0, m_bank := offset ||| ((v >>> 4) &&& 1).toNat }

def new (raw : Bytes) : Option Comal80Cart := do
  let rom ← (List.range 6).foldlM
    (fun rom n => raw.copy (n * 0x4000) ((n + 1) * 0x4000) rom (0x4000 + 0x8000 * n)) (.new (6 * 0x8000) 0xFF)
  some (store ⟨rom, 0, 0⟩ 0)

def io1 (c : Comal80Cart) (a : BitVec 16) (wr : Option Byte) (peek : Bool) (v : Byte) :
    Option (Bool × Byte × Comal80Cart) :=
  match wr with
  | some w => some (false, v, c.store w)
  | none =>
    if peek then (window c.m_rom 0x1E00 a).map fun v => (true, v, c)
    else some (true, c.m_reg ||| (((c.m_reg >>> 4) &&& 1) <<< 4), c)

end Comal80Cart

/-- The least power of two that is not below `n`, from `p` on. -/
def powerFrom (n p : ℕ) : Option ℕ :=
  if p < n then if p = 0 then none else powerFrom n (p * 2) else some p
termination_by n - p

namespace MagicDesk128Cart

def new (raw : Bytes) (banks : ℕ) : Option MagicDesk128Cart := do
  let rom ← (List.range banks).foldlM
    (fun rom i => raw.copy (i * 0x4000) ((i + 1) * 0x4000) rom (0x8000 * i)) (.new (64 * 0x8000) 0xFF)
  let p ← powerFrom banks 1
  some ⟨rom, 0, p - 1, 0⟩

def io1 (c : MagicDesk128Cart) (wr : Option Byte) (peek : Bool) (v : Byte) : Bool × Byte × MagicDesk128Cart :=
  match wr with
  | some w =>
    let reg := w &&& 0x3F
    (false, v, { c with m_reg := reg, m_bank := reg.toNat &&& c.m_mask })
  | none =>
    if peek then (true, BitVec.ofNat 8 c.m_bank, c)
    else (false, v, { c with m_bank := 0xFF &&& c.m_mask })  -- the floating bus goes into the latch

end MagicDesk128Cart

/-- 16 KB, mirrored to 32 KB. -/
def mirrored (raw : Bytes) : Option Bytes := do
  let rom ← raw.copy 0 0x4000 (.new 0x8000 0) 0
  raw.copy 0 0x4000 rom 0x4000

namespace Partner128Cart

def new (raw : Bytes) : Option Partner128Cart := do
  let rom ← mirrored raw
  some ⟨rom, .new (64 * 128) 0xFF, 0, 0, false⟩

def io1 (c : Partner128Cart) (a : BitVec 16) (wr : Option Byte) (v : Byte) :
    Option (Bool × Byte × Partner128Cart) :=
  let a := (a &&& 0xFF).toNat
  match wr with
  | some w =>
    if a < 0x80 then (c.m_ram.set (c.m_bank * 128 + a) w).map fun ram => (false, v, { c with m_ram := ram })
    else
      some (false, v, { c with
        m_reg := w &&& 0x7F
        m_bank := (w &&& 0x3F).toNat
        m_forced := if w &&& 0x40 ≠ 0 then false else c.m_forced })  -- release the freeze
  | none =>
    if a < 0x80 then (c.m_ram.get (c.m_bank * 128 + a)).map fun v => (true, v, c)
    else (c.m_rom.get (0x1E80 + a % 0x80)).map fun v => (true, v, c)

def iod6Write (c : Partner128Cart) (a : BitVec 16) (v : Byte) : Option Partner128Cart :=
  if (a &&& 0xFF).toNat < 0x10 then
    (c.m_ram.set (c.m_bank * 128 + (a &&& 0x0F).toNat) v).map fun ram => { c with m_ram := ram }
  else some c

def reset (c : Partner128Cart) : Partner128Cart := { c with m_reg := 0, m_bank := 0, m_forced := false }

end Partner128Cart

namespace GMod2C128Cart

def new (flash : Bytes) : Option GMod2C128Cart :=
  (flash.copy 0 flash.size Flash040.new.data 0).map fun data =>
    ⟨{ Flash040.new with data := data }, .new, 0, 0⟩

/-- The place in the flash of an address in a bank of 16 KB. -/
def place (c : GMod2C128Cart) (a : BitVec 16) : BitVec 32 :=
  let offset : BitVec 32 := a.setWidth 32 &&& 0x3FFF
  offset + (c.m_bank <<< 14)

def romRead (c : GMod2C128Cart) (a : BitVec 16) (peek : Bool) : Option (Byte × GMod2C128Cart) :=
  if peek then (c.m_flash.data.get (c.place a).toNat).map fun v => (v, c)
  else (c.m_flash.read (c.place a)).map fun (v, flash) => (v, { c with m_flash := flash })

def romWrite (c : GMod2C128Cart) (a : BitVec 16) (v : Byte) : Option GMod2C128Cart :=
  (c.m_flash.store (c.place a) v).map fun flash => { c with m_flash := flash }

def io1 (c : GMod2C128Cart) (wr : Option Byte) (peek : Bool) (v : Byte) :
    Option (Bool × Byte × GMod2C128Cart) :=
  match wr with
  | some w => do
    let cs := (w >>> 6) &&& 1
    let e := c.m_eeprom.writeSelect cs
    let e ← if cs ≠ 0 then (e.writeData ((w >>> 4) &&& 1)).writeClock ((w >>> 5) &&& 1) else some e
    some (false, v, { c with m_bank := (w &&& 0x1F).setWidth 32, m_cs := cs, m_eeprom := e })
  | none =>
    if peek then
      let (b, e) := c.m_eeprom.readData
      some (true, b <<< 7, { c with m_eeprom := e })
    else if c.m_cs = 0 then some (false, v, c)
    else
      let (b, e) := c.m_eeprom.readData
      some (true, (b <<< 7) ||| 0x7F, { c with m_eeprom := e })

def reset (c : GMod2C128Cart) : GMod2C128Cart :=
  { c with m_cs := 0, m_eeprom := c.m_eeprom.writeSelect 0, m_flash := c.m_flash.reset }

end GMod2C128Cart

/-- `C128Cart`: one of its types. -/
inductive Cart where
  | generic (c : GenericCart)
  | comal80 (c : Comal80Cart)
  | magicDesk128 (c : MagicDesk128Cart)
  | warpSpeed128 (c : WarpSpeed128Cart)
  | partner128 (c : Partner128Cart)
  | gmod2C128 (c : GMod2C128Cart)

namespace Cart

def type : Cart → String
  | .generic c => c.m_type
  | .comal80 _ => "Comal 80 (C128)"
  | .magicDesk128 _ => "Magic Desk 128"
  | .warpSpeed128 _ => "Warp Speed 128"
  | .partner128 _ => "Partner 128"
  | .gmod2C128 _ => "Gmod2-C128"

def romRead (a : BitVec 16) (peek : Bool) : Cart → Option (Byte × Cart)
  | .generic c => (c.m_rom.get (a &&& 0x7FFF).toNat).map fun v => (v, .generic c)
  | .comal80 c => (bankByte c.m_rom c.m_bank a).map fun v => (v, .comal80 c)
  | .magicDesk128 c => (bankByte c.m_rom c.m_bank a).map fun v => (v, .magicDesk128 c)
  | .warpSpeed128 c => (c.m_rom.get (a &&& 0x7FFF).toNat).map fun v => (v, .warpSpeed128 c)
  | .partner128 c => (c.m_rom.get (a &&& 0x7FFF).toNat).map fun v => (v, .partner128 c)
  | .gmod2C128 c => (c.romRead a peek).map fun (v, c) => (v, .gmod2C128 c)

def romWrite (a : BitVec 16) (v : Byte) : Cart → Option Cart
  | .gmod2C128 c => (c.romWrite a v).map .gmod2C128
  | c => some c

/-- $DE00-$DEFF: whether a read is driven, and the value. -/
def io1 (a : BitVec 16) (wr : Option Byte) (peek : Bool) (v : Byte) : Cart → Option (Bool × Byte × Cart)
  | .generic c => some (false, v, .generic c)
  | .comal80 c => (c.io1 a wr peek v).map fun (drives, v, c) => (drives, v, .comal80 c)
  | .magicDesk128 c =>
    let (drives, v, c) := c.io1 wr peek v
    some (drives, v, .magicDesk128 c)
  | .warpSpeed128 c =>
    if wr.isSome then some (false, v, .warpSpeed128 c)
    else (window c.m_rom 0x1E00 a).map fun v => (true, v, .warpSpeed128 c)
  | .partner128 c => (c.io1 a wr v).map fun (drives, v, c) => (drives, v, .partner128 c)
  | .gmod2C128 c => (c.io1 wr peek v).map fun (drives, v, c) => (drives, v, .gmod2C128 c)

/-- $DF00-$DFFF -/
def io2 (a : BitVec 16) (wr : Option Byte) (v : Byte) : Cart → Option (Bool × Byte × Cart)
  | .comal80 c =>
    if wr.isSome then some (false, v, .comal80 c)
    else (window c.m_rom 0x1F00 a).map fun v => (true, v, .comal80 c)
  | .warpSpeed128 c =>
    if wr.isSome then some (false, v, .warpSpeed128 c)
    else (window c.m_rom 0x1F00 a).map fun v => (true, v, .warpSpeed128 c)
  | c => some (false, v, c)

def iod6Write (a : BitVec 16) (v : Byte) : Cart → Option Cart
  | .partner128 c => (c.iod6Write a v).map .partner128
  | c => some c

def reset : Cart → Cart
  | .comal80 c => .comal80 (c.store 0)
  | .magicDesk128 c => .magicDesk128 { c with m_reg := 0, m_bank := 0 }
  | .partner128 c => .partner128 c.reset
  | .gmod2C128 c => .gmod2C128 c.reset
  | c => c

def freeze : Cart → Bool × Cart
  | .partner128 c => (true, .partner128 { c with m_forced := true })
  | c => (false, c)

def nmiVectorForced : Cart → Bool
  | .partner128 c => c.m_forced
  | _ => false

end Cart

/-! ## Images -/

structure Chip where
  bank : ℕ
  start : ℕ
  size : ℕ
  data : ℕ

/-- An image's loader: an error has a text. -/
abbrev Loader := Checked String

def be16 (img : Bytes) (o : ℕ) : Option ℕ := do
  let hi ← img.get o
  let lo ← img.get (o + 1)
  some (256 * hi.toNat + lo.toNat)

def be32 (img : Bytes) (o : ℕ) : Option ℕ := do
  let hi ← be16 img o
  let lo ← be16 img (o + 2)
  some (0x10000 * hi + lo)

/-- `memcmp` with a text finds no difference. -/
def same (img : Bytes) (o : ℕ) (text : String) : Option Bool := do
  let bytes ← img.sub o (o + text.length)
  some ((List.range text.length).all fun i =>
    bytes.item i == BitVec.ofNat 8 (text.toList.getD i 'x').toNat)

/-- The CHIP packets from `o` on. -/
def crtChipsFrom (img : Bytes) (o : ℕ) (chips : List Chip) : Loader (List Chip) := do
  if o + 16 ≤ img.size then
    if ← same img o "CHIP" then
      let len ← be32 img (o + 4)
      let c : Chip := ⟨← be16 img (o + 10), ← be16 img (o + 12), ← be16 img (o + 14), o + 16⟩
      if img.size < o + 16 + c.size ∨ len < 16 then throw "truncated CHIP packet"
      else crtChipsFrom img (o + len) (chips ++ [c])
    else return chips
  else return chips
termination_by img.size - o

/-- The CHIP packets of a .crt -/
def crtChips (img : Bytes) : Loader (List Chip) := do
  let first ← be32 img 0x10
  let chips ← crtChipsFrom img (max first 0x40) []
  if chips = [] then throw "no CHIP packets" else return chips

/-- A raw image of `size` bytes, after a 2-byte load address if there is one. -/
def rawOfSize (img : Bytes) (size : ℕ) : Option (Option Bytes) :=
  if img.size ≠ size ∧ img.size ≠ size + 2 then some none
  else (img.sub (img.size - size) img.size).map some

/-- Copies of the first `l` bytes at `base`, up to `span`. -/
def mirror (out : Bytes) (base l span : ℕ) : Option Bytes :=
  if l < span then
    if l = 0 then none
    else (out.copy base (base + l) out (base + l)).bind fun out => mirror out base (l * 2) span
  else some out
termination_by span - l

def isCrt (img : Bytes) : Option Bool :=
  if 0x40 ≤ img.size then same img 0 "C128 CARTRIDGE  " else some false

/-- The name at $20, up to a zero. -/
def crtName (img : Bytes) : Option String := do
  let name ← img.sub 0x20 0x40
  let bytes := (List.range 0x20).map name.item
  some (String.ofList ((bytes.takeWhile (· ≠ 0)).map fun b => Char.ofNat b.toNat))

/-- One chip of a generic .crt, mirrored in its half. -/
def chipImage (img out : Bytes) (c : Chip) : Loader Bytes := do
  if (c.start ≠ 0x8000 ∧ c.start ≠ 0xC000) ∨ c.size = 0 ∨ 0x4000 < c.size then
    throw "unsupported CHIP packet"
  else
    let base := if c.start = 0xC000 then 0x4000 else 0
    let out ← img.copy c.data (c.data + c.size) out base
    let p2 ← powerFrom c.size 1
    mirror out base (if p2 = c.size then c.size else p2) 0x4000

/-- A raw image of the largest size from `len` down that it has. -/
def rawImage (img out : Bytes) : List ℕ → Loader (Bytes × String)
  | [] => throw "not a C128 cartridge (a raw 1-32 KB image, or a .crt with a C128 CARTRIDGE header)"
  | len :: rest => do
    if img.size ≠ len ∧ img.size ≠ len + 2 then rawImage img out rest
    else
      let out ← img.copy (img.size - len) img.size out 0
      let out ← mirror out 0 len 0x8000
      return (out, toString (len / 1024) ++ " KB function ROM")

/-- A generic function ROM into 32 KB, and its type. -/
def functionRomImage (img : Bytes) : Loader (Bytes × String) := do
  let out : Bytes := .new 0x8000 0xFF
  if ← isCrt img then
    if (← be16 img 0x16) ≠ 0 then throw "not a generic C128 .crt"
    else
      let chips ← crtChips img
      if 2 < chips.length then throw "more than two CHIP packets"
      else
        let out ← chips.foldlM (chipImage img) out
        let name ← crtName img
        return (out, "C128 .crt" ++ if name.isEmpty then "" else ": " ++ name)
  else rawImage img out [0x8000, 0x4000, 0x2000, 0x1000, 0x800, 0x400]

def generic (img : Bytes) : Loader Cart := do
  let (rom, type) ← functionRomImage img
  return .generic ⟨rom, type⟩

/-- Chips of 16 KB at `start`, one after the other. -/
def chipsAt (img : Bytes) (start : ℕ) (err : String) (raw : Bytes) (chips : List Chip) : Loader Bytes :=
  (chips.zip (List.range chips.length)).foldlM (fun raw (c, n) => do
    if c.start ≠ start ∨ c.size ≠ 0x4000 then throw err
    else img.copy c.data (c.data + 0x4000) raw (n * 0x4000)) raw

/-- A raw Magic Desk 128 of one of the sizes. -/
def rawMagicDesk (img : Bytes) : List ℕ → Loader Cart
  | [] => throw "not a C128 cartridge (a raw 1-32 KB function ROM, 96 KB Comal 80, 64 KB-1 MB Magic Desk 128, or a C128 .crt)"
  | size :: rest => do
    match ← rawOfSize img size with
    | some raw => return .magicDesk128 (← MagicDesk128Cart.new raw (size / 0x4000))
    | none => rawMagicDesk img rest

def makeRaw (img : Bytes) : Loader Cart := do
  if img.size ≤ 0x8000 + 2 then generic img
  else
    match ← rawOfSize img 0x18000 with
    | some raw => return .comal80 (← Comal80Cart.new raw)
    | none => rawMagicDesk img [0x100000, 0x80000, 0x40000, 0x20000, 0x10000]

/-- Warp Speed 128 and Partner 128: one 16 KB chip at $8000. -/
def makeSingle (img : Bytes) (hw : ℕ) : Loader Cart := do
  let chips ← crtChips img
  match chips with
  | [] => (none : Option Cart)
  | c :: _ =>
    if c.start ≠ 0x8000 ∨ c.size ≠ 0x4000 then throw "expected a 16 KB CHIP at $8000"
    else
      let raw ← img.sub c.data (c.data + 0x4000)
      if hw = 1 then return .warpSpeed128 ⟨← mirrored raw⟩
      else return .partner128 (← Partner128Cart.new raw)

def makeComal80 (img : Bytes) : Loader Cart := do
  let chips ← crtChips img
  if chips.length < 6 then throw "Comal 80 needs 6 CHIP packets"
  else
    let raw ← chipsAt img 0xC000 "expected 16 KB CHIPs at $C000" (.new 0x18000 0xFF) (chips.take 6)
    return .comal80 (← Comal80Cart.new raw)

def makeMagicDesk128 (img : Bytes) : Loader Cart := do
  let chips ← crtChips img
  let banks := min chips.length 64
  let raw ← chipsAt img 0x8000 "expected 16 KB CHIPs at $8000" (.new (banks * 0x4000) 0xFF) (chips.take banks)
  return .magicDesk128 (← MagicDesk128Cart.new raw banks)

def makeGMod2C128 (img : Bytes) : Loader Cart := do
  let chips ← crtChips img
  let raw ← chips.foldlM (fun (raw : Bytes) (c : Chip) => do
    if 31 < c.bank ∨ c.size ≠ 0x4000 then throw "expected 16 KB CHIPs, banks 0-31"
    else img.copy c.data (c.data + 0x4000) raw (c.bank * 0x4000)) (Buffer.new 0x80000 0xFF)
  return .gmod2C128 (← GMod2C128Cart.new raw)

/-- A cartridge from an image file. -/
def makeCart (img : Bytes) : Loader Cart := do
  if ← isCrt img then
    let hw ← be16 img 0x16
    let _ ← crtName img
    match hw with
    | 0 => generic img
    | 1 | 2 => makeSingle img hw
    | 3 => makeComal80 img
    | 4 => makeMagicDesk128 img
    | 5 => makeGMod2C128 img
    | _ => throw ("unsupported C128 .crt hardware type " ++ toString hw)
  else makeRaw img

end Mmemu.Source.C128Carts
