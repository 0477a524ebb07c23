import Mathlib.Data.BitVec
import Mathlib.Logic.Function.Basic
import Mmemu.Library.MemoryWrites

/-!
# MEGA65 SD card controller

Source: src/plugins/devices/sdcard/main/sdcard.cpp and sdcard.h, with the disk images that f011.cpp
reads and writes in the card's. A mounted file keeps its length. Whether the hypervisor runs, and the
F011's answer to the status query, are arguments of an access.
-/
namespace Mmemu.Source.Mega65SdCard
open Mmemu.Library.Splice

abbrev Byte := BitVec 8

def SD_ST_RESET : Byte := 0x04
def SD_ST_MAPPED : Byte := 0x08
def SD_ST_SDHC : Byte := 0x10
def SD_ST_FSM_ERROR : Byte := 0x20
def SD_ST_ERROR : Byte := 0x40
def SD_ST_EXT_BUS : Byte := 0x80

/-! ## The file -/

/-- An open `std::fstream`. A transfer that fails leaves it failed, and then everything else fails. -/
structure FileStream where
  data : List Byte
  out : Bool
  failed : Bool

namespace FileStream
variable (s : FileStream)

def clear : FileStream := { s with failed := false }

def good : Bool := !s.failed

/-- `seekg` and `read`: the bytes that were read. -/
def read (off n : ℕ) : List Byte × FileStream :=
  if s.failed then ([], s) else (slice s.data off n, { s with failed := decide (s.data.length < off + n) })

/-- `seekp`, `write` and `flush`. -/
def write (off : ℕ) (buf : List Byte) : FileStream :=
  if s.failed then s
  else if s.out then { s with data := splice s.data off buf }
  else { s with failed := true }

end FileStream

/-! ## The controller -/

structure SdCardDevice where
  m_base : BitVec 32
  m_status : Byte
  m_regs : Fin 20 → Byte
  m_diskBuf : BitVec 12 → Byte
  m_bufferMapped : Bool
  m_sdhcMode : Bool
  m_imageFile : Option FileStream
  m_imageSize : ℕ
  m_writable : Bool

namespace SdCardDevice

def new (base : BitVec 32) : SdCardDevice :=
  ⟨base, 0, fun _ => 0, fun _ => 0, false, true, none, 0, false⟩

variable (d : SdCardDevice)

def reset : SdCardDevice :=
  { d with
    m_regs := fun _ => 0
    m_diskBuf := fun _ => 0
    m_status := SD_ST_SDHC
    m_bufferMapped := false
    m_sdhcMode := true }

/-- The SD card's 512 bytes of the disk buffer. -/
def sectorBuffer : List Byte := (List.range 512).map fun i => d.m_diskBuf (0xE00 + BitVec.ofNat 12 i)

/-- Bytes put at the start of the sector buffer. -/
def setSectorBuffer (bytes : List Byte) : SdCardDevice :=
  { d with m_diskBuf := fun a => if a < 0xE00 then d.m_diskBuf a else bytes.getD (a - 0xE00).toNat (d.m_diskBuf a) }

def isMounted : Bool := d.m_imageFile.isSome

/-- `open` of a file that the host lets be written, or only be read. -/
def mountImage (data : List Byte) (writable : Bool) : SdCardDevice :=
  { d with m_imageFile := some ⟨data, writable, false⟩, m_imageSize := data.length, m_writable := writable }

def unmount : SdCardDevice := { d with m_imageFile := none, m_imageSize := 0, m_writable := false }

/-! ## Sectors -/

/-- The sector that registers 1 to 4 name. -/
def sector : BitVec 32 := d.m_regs 4 ++ d.m_regs 3 ++ d.m_regs 2 ++ d.m_regs 1

/-- Whether a sector was read, and the controller with what came of it. -/
def readSector (sector : BitVec 32) : Bool × SdCardDevice :=
  match d.m_imageFile with
  | none => (true, d.setSectorBuffer (List.replicate 512 0))  -- an empty card
  | some file =>
    let byteOffset := sector.toNat * 512
    if byteOffset + 512 > d.m_imageSize then (false, d.setSectorBuffer (List.replicate 512 0))
    else
      let (bytes, file) := file.read byteOffset 512
      (file.good, { d with m_imageFile := some file }.setSectorBuffer bytes)

def writeSector (sector : BitVec 32) : Bool × SdCardDevice :=
  match d.m_imageFile with
  | none => (false, d)
  | some file =>
    let byteOffset := sector.toNat * 512
    if byteOffset + 512 > d.m_imageSize then (false, d)
    else
      let file := file.write byteOffset d.sectorBuffer
      (file.good, { d with m_imageFile := some file })

/-- The bytes that were read, if they were as many as asked for. -/
def readImage (offset n : ℕ) : Option (List Byte) × SdCardDevice :=
  match d.m_imageFile with
  | none => (none, d)
  | some file =>
    if offset + n > d.m_imageSize then (none, d)
    else
      let (bytes, file) := file.clear.read offset n
      (if bytes.length = n then some bytes else none, { d with m_imageFile := some file })

def writeImage (offset : ℕ) (buf : List Byte) : Bool × SdCardDevice :=
  match d.m_imageFile with
  | none => (false, d)
  | some file =>
    if !d.m_writable ∨ offset + buf.length > d.m_imageSize then (false, d)
    else
      let file := file.clear.write offset buf
      (file.good, { d with m_imageFile := some file })

/-! ## Commands and registers -/

/-- The error bit, where a sector command failed. -/
def report (r : Bool × SdCardDevice) : SdCardDevice :=
  if r.1 then r.2 else { r.2 with m_status := r.2.m_status ||| SD_ST_ERROR }

def executeCommand (cmd : Byte) : SdCardDevice :=
  let d := { d with m_status := d.m_status &&& ~~~(SD_ST_ERROR ||| SD_ST_FSM_ERROR) }
  match cmd.toNat with
  | 0x00 | 0x10 =>
    { d with
      m_status := SD_ST_RESET ||| SD_ST_SDHC
      m_sdhcMode := true
      m_regs := fun r => if 1 ≤ r.val ∧ r.val ≤ 4 then 0 else d.m_regs r }
  | 0x01 | 0x11 => { d with m_status := SD_ST_SDHC }
  | 0x02 => report (d.readSector d.sector)
  | 0x03 => report (d.writeSector d.sector)
  | 0x40 | 0xC0 => { d with m_status := d.m_status &&& ~~~SD_ST_EXT_BUS }
  | 0x81 => { d with m_bufferMapped := true, m_status := d.m_status ||| SD_ST_MAPPED }
  | 0x82 => { d with m_bufferMapped := false, m_status := d.m_status &&& ~~~SD_ST_MAPPED }
  | 0xC1 => { d with m_status := d.m_status ||| SD_ST_EXT_BUS }
  | 0x53 =>  -- flash: its identification, or erased
    if d.sector = 0 then d.setSectorBuffer ((List.replicate 512 0).set 0x71 0x01)
    else d.setSectorBuffer (List.replicate 512 0xFF)
  | _ => d

/-- Where an address of the mapped buffer lies: the hypervisor sees the SD card's. -/
def bufferAt (inHypervisor : Bool) (addr : BitVec 32) : BitVec 12 :=
  (if inHypervisor || d.m_regs 9 &&& 0x80 != 0 then 0xE00 else 0xC00) + (addr - 0xDE00).setWidth 12

def bufferRead (inHypervisor : Bool) (addr : BitVec 32) : Byte :=
  if d.m_bufferMapped then d.m_diskBuf (d.bufferAt inHypervisor addr) else 0xFF

def bufferWrite (inHypervisor : Bool) (addr : BitVec 32) (val : Byte) : SdCardDevice :=
  if d.m_bufferMapped then
    { d with m_diskBuf := Function.update d.m_diskBuf (d.bufferAt inHypervisor addr) val }
  else d

/-- The F011's answer, if it is asked, has its buffer pointer and flag. -/
def ioRead (inHypervisor : Bool) (fdcStatus : Option (BitVec 16)) (addr : BitVec 32) : Option Byte :=
  let offset := addr - d.m_base
  if 0xDE00 ≤ addr ∧ addr ≤ 0xDFFF then some (d.bufferRead inHypervisor addr)
  else if h : offset.toNat < 20 then
    let f := fdcStatus.getD 0
    match offset.toNat with
    | 0x00 => some d.m_status
    | 0x08 => some (f.setWidth 8)
    | 0x09 => some (d.m_regs 9 &&& 0x80 ||| f.extractLsb' 8 8 &&& 0x01 ||| f.extractLsb' 8 8 &&& 0x02)
    | _ => some (d.m_regs ⟨offset.toNat, h⟩)
  else none

def ioWrite (inHypervisor : Bool) (addr : BitVec 32) (val : Byte) : Bool × SdCardDevice :=
  let offset := addr - d.m_base
  if 0xDE00 ≤ addr ∧ addr ≤ 0xDFFF then (true, d.bufferWrite inHypervisor addr val)
  else if h : offset.toNat < 20 then
    -- the mount registers are the hypervisor's
    if 0x0A ≤ offset.toNat ∧ offset.toNat ≤ 0x13 ∧ !inHypervisor then (true, d)
    else
      let d := { d with m_regs := Function.update d.m_regs ⟨offset.toNat, h⟩ val }
      (true, if offset = 0 then d.executeCommand val else d)
  else (false, d)

/-! ## Accesses -/

/-- What is done with the controller and the image it shares with the F011, which adds the start
sector of a disk image to its own offset and has a buffer of its own in the card's. -/
inductive Access where
  | reset
  | ioWrite (inHypervisor : Bool) (addr : BitVec 32) (val : Byte)
  | readDisk (start off : BitVec 32)
  | writeDisk (start off : BitVec 32) (buf : List Byte) (sector : buf.length = 512)
  | fdcBuffer (i : BitVec 9) (val : Byte)

def after : Access → SdCardDevice
  | .reset => d.reset
  | .ioWrite inHypervisor addr val => (d.ioWrite inHypervisor addr val).2
  | .readDisk start off => (d.readImage (start.toNat * 512 + off.toNat) 512).2
  | .writeDisk start off buf _ => (d.writeImage (start.toNat * 512 + off.toNat) buf).2
  | .fdcBuffer i val => { d with m_diskBuf := Function.update d.m_diskBuf (0xC00 + i.setWidth 12) val }

end SdCardDevice
end Mmemu.Source.Mega65SdCard
