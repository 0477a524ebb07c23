import Mathlib.Data.BitVec
import Mathlib.Data.Int.Notation
import Mathlib.Logic.Function.Basic

/-!
# VERA data ports

Source: src/plugins/devices/vera/main/vera.cpp and vera.h, the address and DATA registers. Drawing the
line so far before a write, and the copies of the PSG registers, the palette and the sprites that a
write also goes to, are left out: no port reads them.
-/
namespace Mmemu.Source.VeraPorts

abbrev Byte := BitVec 8

def INCREMENTS : List ℤ := [
  0, 0,
  1, -1,
  2, -2,
  4, -4,
  8, -8,
  16, -16,
  32, -32,
  64, -64,
  128, -128,
  256, -256,
  512, -512,
  40, -40,
  80, -80,
  160, -160,
  320, -320,
  640, -640]

inductive AddrReg where
  | ADDRx_L | ADDRx_M | ADDRx_H
  deriving DecidableEq, Repr

/-- The tables of two have the ports 0 and 1. -/
structure Vera where
  m_vram : ℕ → Byte
  m_ioAddr : ℕ → BitVec 32
  m_ioRddata : ℕ → Byte
  m_ioInc : ℕ → Byte
  m_ioAddrsel : ℕ
  m_fxAddr1Mode : Byte
  m_fxXPixelIncrement : BitVec 32
  m_fxYPixelIncrement : BitVec 32
  m_fxXPixelPosition : BitVec 32
  m_fxYPixelPosition : BitVec 32
  m_fxPolyFillLength : BitVec 16
  m_fxAffineTileBase : BitVec 32
  m_fxAffineMapBase : BitVec 32
  m_fxAffineMapSize : Byte
  m_fx4bitMode : Bool
  m_fx16bitHop : Bool
  m_fxCacheByteCycling : Bool
  m_fxCacheFill : Bool
  m_fxCacheWrite : Bool
  m_fxTransWrites : Bool
  m_fx2bitPoly : Bool
  m_fx2bitPoking : Bool
  m_fxCacheIncrementMode : Bool
  m_fxCacheNibbleIndex : Bool
  m_fxCacheByteIndex : Byte
  m_fxMultiplier : Bool
  m_fxSubtract : Bool
  m_fxAffineClip : Bool
  m_fx16bitHopAlign : Byte
  m_fxNibbleBit : ℕ → Bool
  m_fxNibbleIncr : ℕ → Bool
  m_fxCache : ℕ → Byte
  m_fxMultAccumulator : BitVec 32

namespace Vera

def videoReset (vram : ℕ → Byte) : Vera where
  m_vram := vram
  m_ioAddr := fun _ => 0
  m_ioRddata := fun _ => 0
  m_ioInc := fun _ => 0
  m_ioAddrsel := 0
  m_fxAddr1Mode := 0
  m_fxXPixelIncrement := 0
  m_fxYPixelIncrement := 0
  m_fxXPixelPosition := 0x8000
  m_fxYPixelPosition := 0x8000
  m_fxPolyFillLength := 0
  m_fxAffineTileBase := 0
  m_fxAffineMapBase := 0
  m_fxAffineMapSize := 2
  m_fx4bitMode := false
  m_fx16bitHop := false
  m_fxCacheByteCycling := false
  m_fxCacheFill := false
  m_fxCacheWrite := false
  m_fxTransWrites := false
  m_fx2bitPoly := false
  m_fx2bitPoking := false
  m_fxCacheIncrementMode := false
  m_fxCacheNibbleIndex := false
  m_fxCacheByteIndex := 0
  m_fxMultiplier := false
  m_fxSubtract := false
  m_fxAffineClip := false
  m_fx16bitHopAlign := 0
  m_fxNibbleBit := fun _ => false
  m_fxNibbleIncr := fun _ => false
  m_fxCache := fun _ => 0
  m_fxMultAccumulator := 0

def videoSpaceRead (v : Vera) (address : BitVec 32) : Byte := v.m_vram (address &&& 0x1FFFF).toNat

/-- The latch of a port takes the byte at its address. -/
def prefetch (v : Vera) (sel : ℕ) : Vera :=
  { v with m_ioRddata := Function.update v.m_ioRddata sel (v.videoSpaceRead (v.m_ioAddr sel)) }

/-! ## Addresses -/

def addAddr (v : Vera) (sel : ℕ) (n : ℤ) : Vera :=
  { v with m_ioAddr := Function.update v.m_ioAddr sel (v.m_ioAddr sel + BitVec.ofInt 32 n) }

def setNibble (v : Vera) (sel : ℕ) (bit : Bool) : Vera :=
  { v with m_fxNibbleBit := Function.update v.m_fxNibbleBit sel bit }

/-- The next nibble of a port, or with an odd increment the one before. -/
def stepNibble (v : Vera) (sel : ℕ) (inc : Byte) : Vera :=
  if v.m_fxNibbleBit sel then (if inc &&& 1 = 0 then v.addAddr sel 1 else v).setNibble sel false
  else (if inc &&& 1 ≠ 0 then v.addAddr sel (-1) else v).setNibble sel true

/-- The increment that a port is set to. -/
def increment (v : Vera) (sel : ℕ) : ℤ := INCREMENTS.getD (v.m_ioInc sel).toNat 0

/-- The increment of port 1 in 16-bit hop. -/
def hop (v : Vera) (address : BitVec 32) (incr : ℤ) : ℤ :=
  if incr = 4 then if v.m_fx16bitHopAlign.setWidth 32 = address &&& 3 then 1 else 3
  else if incr = 320 then if v.m_fx16bitHopAlign.setWidth 32 = address &&& 3 then 1 else 319
  else incr

def fxLine (v : Vera) : Vera :=
  let v := { v with m_fxXPixelPosition := v.m_fxXPixelPosition + v.m_fxXPixelIncrement }
  if v.m_fxXPixelPosition &&& 0x10000 ≠ 0 then
    let v := { v with m_fxXPixelPosition := v.m_fxXPixelPosition &&& ~~~0x10000 }
    let v := if v.m_fx4bitMode ∧ v.m_fxNibbleIncr 0 then v.stepNibble 1 (v.m_ioInc 0) else v
    v.addAddr 1 (v.increment 0)
  else v

def fxPolygon (v : Vera) (sel : ℕ) : Vera :=
  let v := { v with
    m_fxXPixelPosition := v.m_fxXPixelPosition + v.m_fxXPixelIncrement
    m_fxYPixelPosition := v.m_fxYPixelPosition + v.m_fxYPixelIncrement }
  let v := { v with
    m_fxPolyFillLength :=
      (v.m_fxYPixelPosition.sshiftRight 16 - v.m_fxXPixelPosition.sshiftRight 16).setWidth 16 }
  let v :=
    if sel = 0 ∧ v.m_fxCacheByteCycling ∧ ¬v.m_fxCacheFill then
      { v with m_fxCacheByteIndex := (v.m_fxCacheByteIndex + 1) &&& 3 }
    else v
  if sel = 1 then
    if v.m_fx4bitMode then
      { v with m_ioAddr := Function.update v.m_ioAddr 1 (v.m_ioAddr 0 + v.m_fxXPixelPosition >>> 17) }.setNibble 1
        (v.m_fxXPixelPosition.getLsbD 16)
    else { v with m_ioAddr := Function.update v.m_ioAddr 1 (v.m_ioAddr 0 + v.m_fxXPixelPosition >>> 16) }
  else v

def fxAffine (v : Vera) : Vera :=
  { v with
    m_fxXPixelPosition := v.m_fxXPixelPosition + v.m_fxXPixelIncrement
    m_fxYPixelPosition := v.m_fxYPixelPosition + v.m_fxYPixelIncrement }

/-- The increment of an access, before the modes of port 1. -/
def incAddress (v : Vera) (sel : ℕ) : Vera :=
  let incr := if sel = 1 ∧ v.m_fx16bitHop then v.hop (v.m_ioAddr sel) (v.increment sel) else v.increment sel
  let v := if v.m_fx4bitMode ∧ v.m_fxNibbleIncr sel ∧ v.increment sel = 0 then v.stepNibble sel (v.m_ioInc sel) else v
  v.addAddr sel incr

def fxStep (v : Vera) (sel : ℕ) (write : Bool) : Vera :=
  if sel = 1 ∧ v.m_fxAddr1Mode = 1 then v.fxLine
  else if v.m_fxAddr1Mode = 2 ∧ ¬write then v.fxPolygon sel
  else if sel = 1 ∧ v.m_fxAddr1Mode = 3 ∧ ¬write then v.fxAffine
  else v

/-- The address has 17 bits. -/
def maskAddr (v : Vera) : Vera := { v with m_ioAddr := fun i => v.m_ioAddr i &&& 0x1FFFF }

/-- The address of the access, and the state with the address of the next one. -/
def getAndIncAddress (v : Vera) (sel : ℕ) (write : Bool) : BitVec 32 × Vera :=
  (v.m_ioAddr sel, ((v.incAddress sel).fxStep sel write).maskAddr)

def fxAffinePrefetch (v : Vera) : Vera :=
  if v.m_fxAddr1Mode ≠ 3 then v
  else
    let xTile : Byte := (v.m_fxXPixelPosition >>> 19).setWidth 8
    let yTile : Byte := (v.m_fxYPixelPosition >>> 19).setWidth 8
    let xSub : BitVec 32 := v.m_fxXPixelPosition >>> 16 &&& 7#32
    let ySub : BitVec 32 := v.m_fxYPixelPosition >>> 16 &&& 7#32
    let fx4 := if v.m_fx4bitMode then 1 else 0
    let xTile := if v.m_fxAffineClip then xTile else xTile &&& (v.m_fxAffineMapSize - 1)
    let yTile := if v.m_fxAffineClip then yTile else yTile &&& (v.m_fxAffineMapSize - 1)
    let within := ySub <<< (3 - fx4) + xSub >>> fx4
    let address :=
      if xTile ≥ v.m_fxAffineMapSize ∨ yTile ≥ v.m_fxAffineMapSize then v.m_fxAffineTileBase + within
      else
        let tileIdx := v.videoSpaceRead
          (v.m_fxAffineMapBase + yTile.setWidth 32 * v.m_fxAffineMapSize.setWidth 32 + xTile.setWidth 32)
        v.m_fxAffineTileBase + tileIdx.setWidth 32 <<< (6 - fx4) + within
    { v.setNibble 1 ((xSub &&& 1) >>> (1 - fx4) ≠ 0) with
      m_ioAddr := Function.update v.m_ioAddr 1 (address &&& 0x1FFFF)
      m_ioRddata := Function.update v.m_ioRddata 1 (v.videoSpaceRead address) }

/-! ## Writing VRAM -/

def fxVideoSpaceWrite (v : Vera) (address : BitVec 32) (nibble : Bool) (value : Byte) : ℕ → Byte :=
  let i := (address &&& 0x1FFFF).toNat
  let old := v.m_vram i
  Function.update v.m_vram i
    (if v.m_fx4bitMode then
      if nibble then
        if ¬v.m_fxTransWrites ∨ value &&& 0x0F > 0 then old &&& 0xF0 ||| value &&& 0x0F else old
      else if ¬v.m_fxTransWrites ∨ value &&& 0xF0 > 0 then old &&& 0x0F ||| value &&& 0xF0 else old
    else if ¬v.m_fxTransWrites ∨ value > 0 then value else old)

def fxVramCacheWrite (v : Vera) (vram : ℕ → Byte) (address : BitVec 32) (value : Byte) (mask : ℕ) : ℕ → Byte :=
  let i := (address &&& 0x1FFFF).toNat
  if ¬v.m_fxTransWrites ∨ value > 0 then
    Function.update vram i
      (match mask with
      | 0 => value
      | 1 => vram i &&& 0x0F ||| value &&& 0xF0
      | 2 => vram i &&& 0xF0 ||| value &&& 0x0F
      | _ => vram i)
  else vram

def fxMultiply (v : Vera) : BitVec 32 :=
  (v.m_fxCache 1 ++ v.m_fxCache 0).signExtend 32 * (v.m_fxCache 3 ++ v.m_fxCache 2).signExtend 32

def cacheToUse (v : Vera) (k : ℕ) : Byte :=
  if v.m_fxMultiplier then
    let m := if v.m_fxSubtract then v.m_fxMultAccumulator - v.fxMultiply else v.m_fxMultAccumulator + v.fxMultiply
    (m >>> (8 * k)).setWidth 8
  else v.m_fxCache k

/-- The VRAM after a DATA write at the address. -/
def dataStored (v : Vera) (address : BitVec 32) (nibble : Bool) (value : Byte) : ℕ → Byte :=
  let wrdata := if v.m_fxCacheByteCycling then v.m_fxCache v.m_fxCacheByteIndex.toNat else value
  if v.m_fxCacheWrite then
    let ramWrdata := fun k => if ¬v.m_fxCacheByteCycling then v.cacheToUse k else wrdata
    let nibbleMask := fun k =>
      if v.m_fxTransWrites then
        if v.m_fx4bitMode then
          (if ramWrdata k &&& 0xF0 = 0 then 2 else 0) + (if ramWrdata k &&& 0x0F = 0 then 1 else 0)
        else if ramWrdata k ≠ 0 then 0 else 3
      else (value >>> (2 * k)).toNat % 4
    (List.range 4).foldl (fun vram k =>
      v.fxVramCacheWrite vram ((address &&& 0x1FFFC) + BitVec.ofNat 32 k) (ramWrdata k) (nibbleMask k)) v.m_vram
  else v.fxVideoSpaceWrite address nibble wrdata

/-! ## Registers -/

def setAddr (v : Vera) (sel : ℕ) (address : BitVec 32) : Vera :=
  { v with m_ioAddr := Function.update v.m_ioAddr sel address }

/-- `writeReg`, the address registers. -/
def writeAddr (v : Vera) (reg : AddrReg) (value : Byte) : Vera :=
  let sel := v.m_ioAddrsel
  match reg with
  | .ADDRx_L =>
    let v :=
      if v.m_fx2bitPoly ∧ v.m_fx4bitMode ∧ v.m_fxAddr1Mode = 2 ∧ sel = 1 then
        { v with m_fx2bitPoking := true }.setAddr 1 (v.m_ioAddr 1 &&& 0x1FFFC#32 ||| (value &&& 3).setWidth 32)
      else
        { v with
          m_fx16bitHopAlign := if v.m_fx16bitHop ∧ sel = 1 then value &&& 3 else v.m_fx16bitHopAlign }.setAddr sel
          (v.m_ioAddr sel &&& 0x1FF00#32 ||| value.setWidth 32)
    v.prefetch sel
  | .ADDRx_M => (v.setAddr sel (v.m_ioAddr sel &&& 0x100FF#32 ||| value.setWidth 32 <<< 8)).prefetch sel
  | .ADDRx_H =>
    ({ v with
      m_fxNibbleBit := Function.update v.m_fxNibbleBit sel (value.getLsbD 1)
      m_fxNibbleIncr := Function.update v.m_fxNibbleIncr sel (value.getLsbD 2)
      m_ioInc := Function.update v.m_ioInc sel (value >>> 3)
      : Vera }.setAddr sel (v.m_ioAddr sel &&& 0x0FFFF#32 ||| (value &&& 1).setWidth 32 <<< 16)).prefetch sel

/-- The cache takes what was read. -/
def fillCache (v : Vera) (addrNibble : Bool) (value : Byte) : Vera :=
  let i := v.m_fxCacheByteIndex
  let old := v.m_fxCache i.toNat
  if v.m_fx4bitMode then
    let nibbleRead := if addrNibble then (value &&& 0x0F) <<< 4 else value &&& 0xF0
    if v.m_fxCacheNibbleIndex then
      { v with
        m_fxCache := Function.update v.m_fxCache i.toNat (old &&& 0xF0#8 ||| nibbleRead >>> 4)
        m_fxCacheNibbleIndex := false
        m_fxCacheByteIndex := (i + 1) &&& 3 }
    else
      { v with
        m_fxCache := Function.update v.m_fxCache i.toNat (old &&& 0x0F ||| nibbleRead)
        m_fxCacheNibbleIndex := true }
  else
    { v with
      m_fxCache := Function.update v.m_fxCache i.toNat value
      m_fxCacheByteIndex := if v.m_fxCacheIncrementMode then i &&& 2 ||| (i + 1) &&& 1 else (i + 1) &&& 3 }

/-- `readReg`, DATA0 and DATA1; without the side effects it is a peek. -/
def readData (v : Vera) (sel : ℕ) (sideEffects : Bool) : Byte × Vera :=
  if ¬sideEffects then (v.m_ioRddata sel, v)
  else
    let addrNibble := v.m_fxNibbleBit sel
    let v := (v.getAndIncAddress sel false).2
    let value := v.m_ioRddata sel
    let v := if sel = 1 ∧ v.m_fxAddr1Mode = 3 then v.fxAffinePrefetch else v.prefetch sel
    (value, if v.m_fxCacheFill then v.fillCache addrNibble value else v)

/-- `writeReg`, DATA0 and DATA1. -/
def writeData (v : Vera) (sel : ℕ) (value : Byte) : Vera :=
  if v.m_fx2bitPoking ∧ v.m_fxAddr1Mode ≠ 0 then
    let c := v.m_fxCache v.m_fxCacheByteIndex.toNat
    let old := v.m_ioRddata 1
    let i := (v.m_ioAddr 1 &&& 0x1FFFF).toNat
    { v with
      m_fx2bitPoking := false
      m_vram := Function.update v.m_vram i
        (match (value >>> 6).toNat with
        | 0 => c &&& 0xC0 ||| old &&& 0x3F
        | 1 => c &&& 0x30 ||| old &&& 0xCF
        | 2 => c &&& 0x0C ||| old &&& 0xF3
        | _ => c &&& 0x03 ||| old &&& 0xFC) }
  else
    let nibble := v.m_fxNibbleBit sel
    let address := (v.getAndIncAddress sel true).1
    let v := (v.getAndIncAddress sel true).2
    { v with m_vram := v.dataStored address nibble value }.prefetch sel

end Vera
end Mmemu.Source.VeraPorts
