import Mathlib.Data.BitVec
import Mmemu.Library.CheckedBuffer

/-!
# MOS 8563 VDC

Source: src/plugins/devices/vdc8563/main/vdc8563.cpp and vdc8563.h, the registers and the memory
interface. `none` is an access outside of the fitted RAM.
-/
namespace Mmemu.Source.Vdc8563
open Mmemu.Library.CheckedBuffer

abbrev Byte := BitVec 8

def REGMASK : List Byte := [
  0x00, 0x00, 0x00, 0x00, 0x00, 0xE0, 0x00, 0x00,
  0xFC, 0xE0, 0x80, 0xE0, 0x00, 0x00, 0x00, 0x00,
  0x00, 0x00, 0x00, 0x00, 0x00, 0x00, 0x00, 0xE0,
  0x00, 0x00, 0x00, 0x00, 0x0F, 0xE0, 0x00, 0x00,
  0x00, 0x00, 0x00, 0x00, 0xF0, 0x3F]

def REVISION : Byte := 2

structure Vdc where
  m_ram : Buffer Byte
  /-- Registers 0 to 37. -/
  m_regs : ℕ → Byte
  m_index : Byte
  m_frameCounter : BitVec 32
  m_xcharsTotal : ℕ
  m_rowCounter : BitVec 32
  m_displayEnable : Bool
  m_interlaced : BitVec 32
  m_attributeOffset : BitVec 32
  m_attributeBlink : Bool
  m_updateGeometry : Bool
  m_charwidth : ℕ
  m_xsmooth : ℕ

/-- Register `r` and the one after it, the high byte first. -/
def word (regs : ℕ → Byte) (r : ℕ) : BitVec 16 := regs r ++ regs (r + 1)

def setWord (regs : ℕ → Byte) (r : ℕ) (p : BitVec 16) : ℕ → Byte :=
  Function.update (Function.update regs r ((p >>> 8).setWidth 8)) (r + 1) (p.setWidth 8)

namespace Vdc

def reset (ram : Buffer Byte) : Vdc where
  m_ram := ram
  m_regs := fun r => match r with
    | 0 => 126
    | 1 => 102
    | 4 => 39
    | 6 => 25
    | 9 => 7
    | 22 => 0x78
    | _ => 0
  m_index := 0
  m_frameCounter := 0
  m_xcharsTotal := 127
  m_rowCounter := 0
  m_displayEnable := false
  m_interlaced := 0
  m_attributeOffset := 0
  m_attributeBlink := false
  m_updateGeometry := false
  m_charwidth := 8
  m_xsmooth := 7

def new (ram64k : Bool) : Vdc := reset (.new (if ram64k then 0x10000 else 0x4000) 0)

def ram64k (v : Vdc) : Bool := v.m_ram.size = 0x10000

/-- Register 28, bit 4 selects the addressing of 64 KB. -/
def map (v : Vdc) (addr : BitVec 16) : ℕ :=
  let addr64 := v.m_regs 28 &&& 0x10 ≠ 0
  let a : BitVec 32 := addr.setWidth 32
  let mapped : BitVec 32 :=
    if v.ram64k then
      if addr64 then a else a &&& 0x80FF#32 ||| (a &&& 0x3F00#32) <<< 1 ||| a &&& 0x0100#32
    else if addr64 then a &&& 0x00FF#32 ||| (a &&& 0x7E00#32) >>> 1
    else a &&& 0x3FFF
  mapped.toNat

def writeData (v : Vdc) : Option Vdc := do
  let ptr := word v.m_regs 18
  let ram ← v.m_ram.set (v.map ptr) (v.m_regs 31)
  some { v with m_ram := ram, m_regs := setWord v.m_regs 18 (ptr + 1) }

def fillCopy (v : Vdc) : Option Vdc := do
  let len := if v.m_regs 30 ≠ 0 then (v.m_regs 30).toNat else 256
  let ptr := word v.m_regs 18
  let v ←
    if v.m_regs 24 &&& 0x80 ≠ 0 then do
      let src := word v.m_regs 32
      let ram ← (List.range len).foldlM (fun (ram : Buffer Byte) (i : ℕ) => do
        let x ← ram.get (v.map (src + BitVec.ofNat 16 i))
        ram.set (v.map (ptr + BitVec.ofNat 16 i)) x) v.m_ram
      let src := src + BitVec.ofNat 16 len
      let last ← ram.get (v.map (src - 1))
      some { v with m_ram := ram, m_regs := setWord (Function.update v.m_regs 31 last) 32 src }
    else do
      let ram ← (List.range len).foldlM (fun (ram : Buffer Byte) (i : ℕ) =>
        ram.set (v.map (ptr + BitVec.ofNat 16 i)) (v.m_regs 31)) v.m_ram
      some { v with m_ram := ram }
  some { v with m_regs := setWord v.m_regs 18 (ptr + BitVec.ofNat 16 len) }

def status (v : Vdc) : Byte := 0x80 ||| (if v.m_displayEnable then 0 else 0x20) ||| REVISION

def calculateCharwidth (v : Vdc) : Vdc :=
  { v with
    m_charwidth := if v.m_regs 25 &&& 0x10 ≠ 0 then 2 * (v.m_regs 22 >>> 4).toNat else 1 + (v.m_regs 22 >>> 4).toNat }

def registerWritten (v : Vdc) (reg : ℕ) (oldval : Byte) : Option Vdc :=
  match reg with
  | 0 =>
    some (if v.m_regs 0 ≠ oldval then
      let v := if v.m_regs 0 ≥ 120 ∧ v.m_regs 0 ≤ 127 then { v with m_xcharsTotal := (v.m_regs 0).toNat + 1 } else v
      { v with m_updateGeometry := true }
    else v)
  | 1 | 2 | 6 => some (if v.m_regs reg ≠ oldval then { v with m_updateGeometry := true } else v)
  | 8 => some { v with m_interlaced := if v.m_regs 8 &&& 3 = 3 then 1 else 0 }
  | 9 =>
    -- the RFO VDC FLI 8x1 colour cell trick
    some (if oldval &&& 0x1F = 0 ∧ v.m_rowCounter = (v.m_regs 6).setWidth 32 - 1 then { v with m_attributeOffset := 3 }
    else v)
  | 22 => some v.calculateCharwidth
  | 24 =>
    some { v with
      m_attributeBlink :=
        if v.m_regs 24 &&& 0x20 ≠ 0 then decide (v.m_frameCounter &&& 16 ≠ 0) else decide (v.m_frameCounter &&& 8 ≠ 0) }
  | 25 =>
    let v := if v.m_regs 25 &&& 0x0F ≠ oldval &&& 0x0F then { v with m_xsmooth := (v.m_regs 25 &&& 0x0F).toNat } else v
    let v := if v.m_regs 25 &&& 0x10 ≠ oldval &&& 0x10 then { v with m_updateGeometry := true } else v
    some v.calculateCharwidth
  | 30 => v.fillCopy
  | 31 => v.writeData
  | _ => some v

def ioPeek (v : Vdc) (addr : BitVec 32) : Option Byte :=
  if addr &&& 1 = 0 then some v.status
  else if v.m_index = 31 then v.m_ram.get (v.map (word v.m_regs 18))
  else some (if v.m_index < 38 then v.m_regs v.m_index.toNat ||| REGMASK.getD v.m_index.toNat 0 else 0xFF)

def ioRead (v : Vdc) (addr : BitVec 32) : Option (Byte × Vdc) :=
  if addr &&& 1 ≠ 0 ∧ v.m_index = 31 then do
    let ptr := word v.m_regs 18
    let x ← v.m_ram.get (v.map ptr)
    some (x, { v with m_regs := setWord v.m_regs 18 (ptr + 1) })
  else (v.ioPeek addr).map fun x => (x, v)

def ioWrite (v : Vdc) (addr : BitVec 32) (val : Byte) : Option Vdc :=
  if addr &&& 1 = 0 then some { v with m_index := val &&& 0x3F }
  else if v.m_index ≥ 38 then some v
  else
    let old := v.m_regs v.m_index.toNat
    -- the light pen's registers are read only
    if v.m_index = 16 ∨ v.m_index = 17 then some v
    else { v with m_regs := Function.update v.m_regs v.m_index.toNat val }.registerWritten v.m_index.toNat old

end Vdc
end Mmemu.Source.Vdc8563
