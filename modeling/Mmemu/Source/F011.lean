import Mathlib.Data.BitVec
import Mathlib.Logic.Function.Basic
import Mmemu.Library.WordBytes
import Mmemu.Library.Literals
import Mmemu.Library.MemoryWrites

/-!
# F011 floppy controller

`f011.cpp`: two drives with D81 images, in host files or inside an image of the SD card, and a
sector buffer between them and the data register. Of the SD card controller only what the
F011 uses is here. A file is its bytes; both kinds of image keep their length.
-/
namespace Mmemu.Source.F011
open Mmemu.Library.LittleEndian Mmemu.Library.Splice

def SA_BUSY : Byte := 0x80
def SA_DRQ : Byte := 0x40
def SA_EQ : Byte := 0x20
def SA_RNF : Byte := 0x10
def SA_CRC : Byte := 0x08
def SA_LOST : Byte := 0x04
def SA_PROT : Byte := 0x02
def SA_TK0 : Byte := 0x01
def SB_RDREQ : Byte := 0x80
def SB_WTREQ : Byte := 0x40
def SB_RUN : Byte := 0x20
def SB_DSKIN : Byte := 0x08
def SB_IRQ : Byte := 0x02
def SB_DSKCHG : Byte := 0x01

def D81_SIZE : ℕ := 819200

/-- What `mountDisk` opens: no file below the size of a D81 is taken. -/
structure D81File where
  data : List Byte
  large : D81_SIZE ≤ data.length

theorem D81File.large_splice (file : D81File) {off : ℕ} {buf : List Byte}
    (h : off + buf.length ≤ D81_SIZE) : D81_SIZE ≤ (splice file.data off buf).length :=
  (length_splice (h.trans file.large)).ge.trans' file.large

/-- A host file in a drive, and how it was opened. -/
structure HostFile where
  file : Option D81File
  fileReadOnly : Bool
  fileSerial : ℕ

structure Drive where
  statA : Byte
  statB : Byte
  headTrack : Byte
  haveDisk : Bool
  canWrite : Bool
  host : HostFile
  source : ℕ

structure SdCardDevice where
  m_imageFile : Option (List Byte)
  m_writable : Bool
  mountFlags : Byte
  mountStartSector : Fin 2 → BitVec 32
  fdcBuffer : BitVec 9 → Byte

namespace SdCardDevice

def readImage (sd : SdCardDevice) (offset n : ℕ) : Option (List Byte) :=
  match sd.m_imageFile with
  | none => none
  | some image => if image.length < offset + n then none else some (slice image offset n)

def writeImage (sd : SdCardDevice) (offset : ℕ) (buf : List Byte) : Option SdCardDevice :=
  match sd.m_imageFile with
  | none => none
  | some image =>
    if !sd.m_writable || image.length < offset + buf.length then none
    else some { sd with m_imageFile := some (splice image offset buf) }

end SdCardDevice

/-- The pointers into the 512-byte buffer count modulo its size. -/
structure F011Fdc where
  m_sd : SdCardDevice
  m_drv : Fin 2 → Drive
  m_drive : BitVec 3
  m_control : Byte
  m_cmd : Byte
  m_track : Byte
  m_sector : Byte
  m_side : Byte
  m_clock : Byte
  m_step : Byte
  /-- -1 none, 0x100 control write only. -/
  m_curCmd : ℤ
  m_ptrCpu : BitVec 9
  m_ptrFdc : BitVec 9
  m_swapMask : BitVec 9

/-! ## Media -/

namespace Drive

def setDisk (v : Drive) (haveDisk canWrite : Bool) : Drive :=
  let v := { v with haveDisk, canWrite, statB := v.statB ||| SB_DSKCHG }
  let v := if haveDisk then { v with statA := v.statA ||| SA_TK0, statB := v.statB ||| SB_DSKIN }
    else { v with statA := v.statA &&& ~~~SA_TK0, statB := v.statB &&& ~~~SB_DSKIN }
  if canWrite then { v with statA := v.statA &&& ~~~SA_PROT }
  else { v with statA := v.statA ||| SA_PROT }

/-- Present, writable, and which disk: from the host file or the card's mount registers. -/
def media (sd : SdCardDevice) (d : Fin 2) (v : Drive) : Bool × Bool × ℕ :=
  if v.host.file.isSome then (true, !v.host.fileReadOnly, v.host.fileSerial)
  else if sd.m_imageFile.isSome then
    let imgP : Byte := if d = 0 then 0x03 else 0x18
    let we : Byte := if d = 0 then 0x04 else 0x20
    let have_ := sd.mountFlags &&& imgP == imgP
    (have_, have_ && sd.mountFlags &&& we != 0 && sd.m_writable,
      if have_ then 1 + (sd.mountStartSector d).toNat else 0)
  else (false, false, 0)

def refreshMedia (sd : SdCardDevice) (d : Fin 2) (v : Drive) : Drive :=
  let (have_, canWrite, source) := v.media sd d
  if have_ ≠ v.haveDisk ∨ canWrite ≠ v.canWrite ∨ source ≠ v.source then
    { v with source }.setDisk have_ canWrite
  else v

end Drive

namespace F011Fdc

def refreshMedia (f : F011Fdc) : F011Fdc :=
  { f with m_drv := fun d => (f.m_drv d).refreshMedia f.m_sd d }

/-- The drive that the status registers are of: `m_drv[m_drive & 1]`. -/
def sel (f : F011Fdc) : Fin 2 := ⟨f.m_drive.toNat % 2, Nat.mod_lt _ Nat.two_pos⟩

def drv (f : F011Fdc) : Drive := f.m_drv f.sel

def setDrv (f : F011Fdc) (v : Drive) : F011Fdc :=
  { f with m_drv := Function.update f.m_drv f.sel v }

def reset (f : F011Fdc) : F011Fdc :=
  let f := refreshMedia { f with
    m_control := 0, m_cmd := 0, m_track := 0, m_sector := 0, m_side := 0, m_clock := 0xFF
    m_step := 0xFF, m_curCmd := -1, m_ptrCpu := 0, m_ptrFdc := 0, m_swapMask := 0, m_drive := 0
    m_drv := fun d => { f.m_drv d with
      statA := 0, statB := 0, headTrack := 0, haveDisk := false, canWrite := false } }
  -- no disk-changed signal at power-on
  { f with m_drv := fun d => { f.m_drv d with statB := (f.m_drv d).statB &&& ~~~SB_DSKCHG } }

/-! ## Sectors -/

/-- Where the registers point to in the image, if it is inside. -/
def diskOffset (track sector side : Byte) : Option ℕ :=
  if sector = 0 then none
  else
    let off := track.toNat * 10240 + (side &&& 1).toNat * 5120 + (sector.toNat - 1) * 512
    if off + 512 ≤ D81_SIZE then some off else none

def readDisk (f : F011Fdc) (d : Fin 2) (off : ℕ) : Option (List Byte) :=
  match (f.m_drv d).host.file with
  | some file => some (slice file.data off 512)
  | none => f.m_sd.readImage ((f.m_sd.mountStartSector d).toNat * 512 + off) 512

/-- A file opened for reading refuses; writes inside keep its size. -/
def writeDisk (f : F011Fdc) (d : Fin 2) (off : ℕ) (buf : List Byte) : Option F011Fdc :=
  match (f.m_drv d).host.file with
  | some file =>
    if (f.m_drv d).host.fileReadOnly then none
    else if h : off + buf.length ≤ D81_SIZE then
      let data : D81File :=
        ⟨splice file.data off buf, file.large_splice h⟩
      let v := f.m_drv d
      some { f with
        m_drv := Function.update f.m_drv d { v with host := { v.host with file := some data } } }
    else none
  | none =>
    (f.m_sd.writeImage ((f.m_sd.mountStartSector d).toNat * 512 + off) buf).map fun sd =>
      { f with m_sd := sd }

/-- The 512 bytes of the buffer from a pointer on, around its end. -/
def fromPointer (buf : BitVec 9 → Byte) (ptr : BitVec 9) : List Byte :=
  (List.range 512).map fun n => buf (ptr + BitVec.ofNat 9 n)

/-- Sector bytes put into the buffer from a pointer on. -/
def intoBuffer (buf : BitVec 9 → Byte) (ptr : BitVec 9) (tmp : List Byte) : BitVec 9 → Byte :=
  fun i => tmp.getD (i - ptr).toNat (buf i)

/-- What both sector commands do at their end. -/
def finish (f : F011Fdc) (ok : Bool) (request : Byte) : F011Fdc :=
  let v := f.drv
  if ok then
    f.setDrv { v with
      statA := (v.statA ||| SA_DRQ) &&& ~~~SA_EQ
      statB := v.statB ||| (request ||| SB_RUN) }
  else f.setDrv { v with statA := v.statA ||| SA_RNF, statB := v.statB &&& 0x0F }

def readSector (f : F011Fdc) : F011Fdc :=
  let tmp := if f.m_drive < 2 ∧ f.drv.haveDisk then
      (diskOffset f.m_track f.m_sector f.m_side).bind (f.readDisk f.sel)
    else none
  match tmp with
  | some tmp =>
    let buf := intoBuffer f.m_sd.fdcBuffer f.m_ptrFdc tmp
    finish { f with m_sd := { f.m_sd with fdcBuffer := buf } } true SB_RDREQ
  | none => f.finish false SB_RDREQ

/-- The FDC pointer goes once around the buffer, back to where it was. -/
def writeSector (f : F011Fdc) : F011Fdc :=
  let tmp := fromPointer f.m_sd.fdcBuffer f.m_ptrFdc
  let written := if f.m_drive < 2 ∧ f.drv.haveDisk ∧ f.drv.canWrite then
      (diskOffset f.m_track f.m_sector f.m_side).bind fun off => f.writeDisk f.sel off tmp
    else none
  match written with
  | some f' => f'.finish true SB_WTREQ
  | none => f.finish false SB_WTREQ

/-! ## Commands -/

def step_out (v : Drive) : Drive :=
  let v := if v.headTrack ≠ 0 then { v with headTrack := v.headTrack - 1 } else v
  if v.headTrack = 0 then { v with statA := v.statA ||| SA_TK0 } else v

def step_in (v : Drive) : Drive :=
  let v := if v.headTrack < 128 then { v with headTrack := v.headTrack + 1 } else v
  { v with statA := v.statA &&& ~~~SA_TK0 }

def command (f : F011Fdc) : F011Fdc :=
  let v := f.drv
  match (f.m_cmd &&& 0xF8).toNat with
  | 0x40 =>
    (f.setDrv { v with
      statB := v.statB ||| SB_RDREQ
      statA := (v.statA ||| SA_DRQ) &&& ~~~SA_EQ }).readSector
  | 0x80 =>
    if v.statA &&& SA_PROT = 0 then
      (f.setDrv { v with statA := (v.statA ||| SA_DRQ) &&& ~~~SA_EQ }).writeSector
    else f
  | 0x10 => if f.m_cmd &&& 4 = 0 then f.setDrv (step_out v) else f
  | 0x18 => f.setDrv (step_in v)
  | 0x20 => { f with m_control := f.m_control ||| 0x20 }.setDrv { v with statA := v.statA ||| SA_RNF }
  | 0x00 =>
    if f.m_cmd &&& 1 ≠ 0 then
      { f with m_ptrCpu := 0, m_ptrFdc := 0 }.setDrv { v with
        statA := v.statA &&& ~~~SA_DRQ
        statB := v.statB &&& ~~~SB_RDREQ }
    else f
  | _ => f

def executeCommand (f : F011Fdc) : F011Fdc :=
  let v := f.drv
  let f := f.setDrv { v with statA := v.statA &&& ~~~SA_BUSY, statB := v.statB ||| SB_IRQ }
  if f.m_curCmd < 0 ∨ 0xFF < f.m_curCmd then { f with m_curCmd := -1 }
  else { f.command with m_curCmd := -1 }

/-! ## Registers -/

def pending (f : F011Fdc) : F011Fdc :=
  if f.drv.statA &&& SA_BUSY ≠ 0 then f.executeCommand else f

/-- The CPU pointer goes on; where it meets the FDC pointer the buffer is used up. -/
def advance (f : F011Fdc) (v : Drive) : F011Fdc :=
  let ptr := f.m_ptrCpu + 1
  { f with m_ptrCpu := ptr }.setDrv { v with
    statA := if ptr = f.m_ptrFdc then v.statA ||| SA_EQ else v.statA &&& ~~~SA_EQ }

def readData (f : F011Fdc) : Byte × F011Fdc :=
  let v := f.drv
  let v := { v with statA := v.statA &&& ~~~SA_DRQ, statB := v.statB &&& ~~~SB_RDREQ }
  let v := if v.statA &&& SA_EQ ≠ 0 then { v with statA := v.statA ||| SA_LOST } else v
  (f.m_sd.fdcBuffer (f.m_ptrCpu ^^^ f.m_swapMask), f.advance v)

def writeData (f : F011Fdc) (val : Byte) : F011Fdc :=
  let v := f.drv
  let v := { v with statA := v.statA &&& ~~~SA_DRQ }
  let v := if v.statA &&& SA_EQ ≠ 0 then { v with statA := v.statA ||| SA_LOST } else v
  let buf := Function.update f.m_sd.fdcBuffer (f.m_ptrCpu ^^^ f.m_swapMask) val
  advance { f with m_sd := { f.m_sd with fdcBuffer := buf } } v

def ioRead (f : F011Fdc) (addr : BitVec 32) : Option Byte × F011Fdc :=
  if addr < 0xD080 ∨ 0xD09F < addr then (none, f)
  else
    let f := f.refreshMedia.pending
    let v := f.drv
    match (addr &&& 0x1F).toNat with
    | 0x00 => (some f.m_control, f)
    | 0x01 => (some f.m_cmd, f)
    | 0x02 => (some v.statA, f)
    | 0x03 => (some v.statB, f.setDrv { v with statB := v.statB &&& ~~~SB_WTREQ })
    | 0x04 => (some f.m_track, f)
    | 0x05 => (some f.m_sector, f)
    | 0x06 => (some f.m_side, f)
    | 0x07 => (some f.readData.1, f.readData.2)
    | 0x08 => (some f.m_clock, f)
    | 0x09 => (some f.m_step, f)
    | 0x0A => (some 0, f)
    | _ => (some 0xFF, f)

/-- Selecting another drive clears its disk-changed signal. -/
def writeControl (f : F011Fdc) (val : Byte) : F011Fdc :=
  let f := { f with m_control := val, m_curCmd := if f.m_curCmd = -1 then 0x100 else f.m_curCmd }
  let drive := val.setWidth 3
  let f := if drive ≠ f.m_drive then
      let f := { f with m_drive := drive }
      f.setDrv { f.drv with statB := f.drv.statB &&& ~~~SB_DSKCHG }
    else f
  { f.setDrv { f.drv with statA := f.drv.statA ||| SA_BUSY } with
    m_swapMask := if val &&& 0x10 ≠ 0 then 0x100 else 0 }

def writeCommand (f : F011Fdc) (val : Byte) : F011Fdc :=
  let v := f.drv
  { f with m_cmd := val, m_curCmd := val.toNat }.setDrv { v with
    statA := (v.statA ||| SA_BUSY) &&& ~~~(SA_CRC ||| SA_LOST ||| SA_RNF)
    statB := v.statB &&& ~~~SB_IRQ &&& ~~~(SB_RDREQ ||| SB_WTREQ) }

def ioWrite (f : F011Fdc) (addr : BitVec 32) (val : Byte) : Bool × F011Fdc :=
  if addr < 0xD080 ∨ 0xD09F < addr then (false, f)
  else
    let f := f.refreshMedia
    match (addr &&& 0x1F).toNat with
    | 0x00 => (true, (f.writeControl val).pending)
    -- busy: only cancel is taken
    | 0x01 =>
      if f.drv.statA &&& SA_BUSY ≠ 0 ∧ val &&& 0xF8 ≠ 0 then (true, f)
      else (true, (f.writeCommand val).pending)
    | 0x04 => (true, pending { f with m_track := val })
    | 0x05 => (true, pending { f with m_sector := val })
    | 0x06 => (true, pending { f with m_side := val })
    | 0x07 => (true, (f.writeData val).pending)
    | 0x08 => (true, pending { f with m_clock := val })
    | 0x09 => (true, pending { f with m_step := val })
    | _ => (true, f.pending)

end F011Fdc

end Mmemu.Source.F011
