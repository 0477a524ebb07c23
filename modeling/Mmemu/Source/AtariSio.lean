import Mathlib.Data.BitVec
import Mathlib.Logic.Function.Basic
import Mmemu.Library.MemoryWrites

/-!
# Atari SIO disk drives

Source: src/plugins/machines/atari/main/atari_sio.cpp and atari_sio.h. The bytes POKEY is
given are kept in the state. What the host answers, whether a sector could be saved and what
lies behind a buffer in memory, comes with the byte it is asked for.
-/
namespace Mmemu.Source.Sio
open Mmemu.Library.Splice

abbrev Byte := BitVec 8

def ascii (c : Char) : Byte := BitVec.ofNat 8 c.toNat

/-! ## ATR images -/

/-- Bytes of sector `n`: the first three are always short. -/
def sizeOf (sectorSize n : ℕ) : ℕ := if n ≤ 3 then 128 else sectorSize

/-- File offset of sector `n`, counted from 1. -/
def offsetOf (sectorSize n : ℕ) : ℕ :=
  if n ≤ 3 then 16 + (n - 1) * 128 else 16 + 3 * 128 + (n - 4) * sectorSize

/-- A disk image: a 16-byte header, then the sectors, all of which are there. -/
structure AtrImage where
  data : List Byte
  sectorSize : ℕ
  sectorCount : ℕ
  sized : sectorSize = 128 ∨ sectorSize = 256
  fits : ∀ n, 1 ≤ n → n ≤ sectorCount → offsetOf sectorSize n + sizeOf sectorSize n ≤ data.length

namespace AtrImage

/-- No disk. -/
def empty : AtrImage := ⟨[], 128, 0, .inl rfl, fun _ _ _ => by omega⟩

def sizeOf (img : AtrImage) (n : ℕ) : ℕ := Sio.sizeOf img.sectorSize n

def offsetOf (img : AtrImage) (n : ℕ) : ℕ := Sio.offsetOf img.sectorSize n

/-- Whole sectors in the bytes behind the header. -/
def countOf (sectorSize body : ℕ) : ℕ :=
  if sectorSize = 128 then body / 128
  else if body ≤ 384 then body / 128
  else 3 + (body - 384) / 256

theorem countOf_fits {sectorSize size n : ℕ} (sized : sectorSize = 128 ∨ sectorSize = 256)
    (long : 16 ≤ size) (first : 1 ≤ n) (last : n ≤ countOf sectorSize (size - 16)) :
    Sio.offsetOf sectorSize n + Sio.sizeOf sectorSize n ≤ size := by
  unfold countOf at last
  unfold Sio.offsetOf Sio.sizeOf
  rcases sized with rfl | rfl
  · split at last <;> split <;> omega
  · split at last
    · omega
    · split at last <;> split <;> omega

/-- Parse an ATR file's bytes. -/
def load (bytes : List Byte) : Except String AtrImage :=
  if long : bytes.length < 16 + 128 ∨ bytes.getD 0 0 ≠ 0x96 ∨ bytes.getD 1 0 ≠ 0x02 then
    .error "Not an ATR image (no $0296 header)."
  else
    let sectorSize := (bytes.getD 4 0).toNat + 256 * (bytes.getD 5 0).toNat
    if sized : sectorSize = 128 ∨ sectorSize = 256 then
      .ok ⟨bytes, sectorSize, countOf sectorSize (bytes.length - 16), sized,
        fun _ first last => countOf_fits sized (by omega) first last⟩
    else .error ("Unsupported sector size " ++ toString sectorSize ++ ".")

def read (img : AtrImage) (n : ℕ) : Option (List Byte) :=
  if n < 1 ∨ img.sectorCount < n then none
  else if img.data.length < img.offsetOf n + img.sizeOf n then none
  else some (slice img.data (img.offsetOf n) (img.sizeOf n))

/-- The bytes that `memcpy` takes from a pointer. -/
def copied (memory : ℕ → Byte) (len : ℕ) : List Byte := (List.range len).map memory

theorem length_copied (memory : ℕ → Byte) (len : ℕ) : (copied memory len).length = len := by
  rw [copied, List.length_map, List.length_range]

def write (img : AtrImage) (n : ℕ) (memory : ℕ → Byte) : Option AtrImage :=
  if valid : n < 1 ∨ img.sectorCount < n then none
  else if img.data.length < img.offsetOf n + img.sizeOf n then none
  else
    some { img with
      data := splice img.data (img.offsetOf n) (copied memory (img.sizeOf n))
      fits := by
        have inside := img.fits n (by omega) (by omega)
        rw [length_splice (by rwa [length_copied])]
        exact img.fits }

end AtrImage

/-! ## XEX boot disks -/

/-- A 16-bit word, the low byte first. -/
def word (lo hi : Byte) : BitVec 16 := hi ++ lo

def bytesOf (w : BitVec 16) : List Byte := [w.setWidth 8, (w >>> 8).setWidth 8]

/-- The boot loader at $0700. -/
def XEX_BOOT_LOADER : List Byte := [
    0x00, 0x03, 0x00, 0x07, 0x79, 0x07, 0xA9, 0x00, 0x8D, 0xE0, 0x02, 0x8D, 0xE1, 0x02, 0xA9,
    0x80, 0x8D, 0x7E, 0x08, 0xA9, 0x04, 0x8D, 0x7C, 0x08, 0xA9, 0x00, 0x8D, 0x7D, 0x08, 0x20,
    0x7A, 0x07, 0x85, 0xD4, 0x20, 0x7A, 0x07, 0x85, 0xD5, 0x20, 0x7A, 0x07, 0x8D, 0x7A, 0x08,
    0x20, 0x7A, 0x07, 0x8D, 0x7B, 0x08, 0xA5, 0xD4, 0x25, 0xD5, 0xC9, 0xFF, 0xD0, 0x0D, 0xAD,
    0xE0, 0x02, 0x0D, 0xE1, 0x02, 0xF0, 0x03, 0x6C, 0xE0, 0x02, 0x18, 0x60, 0xA9, 0x79, 0x8D,
    0xE2, 0x02, 0xA9, 0x07, 0x8D, 0xE3, 0x02, 0x20, 0x7A, 0x07, 0xA0, 0x00, 0x91, 0xD4, 0xA5,
    0xD4, 0xCD, 0x7A, 0x08, 0xD0, 0x07, 0xA5, 0xD5, 0xCD, 0x7B, 0x08, 0xF0, 0x09, 0xE6, 0xD4,
    0xD0, 0xE7, 0xE6, 0xD5, 0x4C, 0x52, 0x07, 0x20, 0x76, 0x07, 0x4C, 0x1D, 0x07, 0x6C, 0xE2,
    0x02, 0x60, 0xAE, 0x7E, 0x08, 0xE0, 0x80, 0xD0, 0x32, 0xA9, 0x31, 0x8D, 0x00, 0x03, 0xA9,
    0x01, 0x8D, 0x01, 0x03, 0xA9, 0x52, 0x8D, 0x02, 0x03, 0xA9, 0x00, 0x8D, 0x04, 0x03, 0xA9,
    0x06, 0x8D, 0x05, 0x03, 0xAD, 0x7C, 0x08, 0x8D, 0x0A, 0x03, 0xAD, 0x7D, 0x08, 0x8D, 0x0B,
    0x03, 0x20, 0x53, 0xE4, 0xEE, 0x7C, 0x08, 0xD0, 0x03, 0xEE, 0x7D, 0x08, 0xA2, 0x00, 0xBD,
    0x00, 0x06, 0xE8, 0x8E, 0x7E, 0x08, 0x60]

/-- The segments from `i` on, without the $FFFF markers, behind those before. -/
def xexStream (xex : List Byte) (i : ℕ) (stream : List Byte) : Except String (List Byte) :=
  if i + 4 ≤ xex.length then
    let start := word (xex.getD i 0) (xex.getD (i + 1) 0)
    if start = 0xFFFF then xexStream xex (i + 2) stream
    else
      let last := word (xex.getD (i + 2) 0) (xex.getD (i + 3) 0)
      if last < start then .error "Bad segment in the executable."
      else
        let len := last.toNat - start.toNat + 1
        -- truncated file: load what is there
        let len := if xex.length < i + 4 + len then xex.length - (i + 4) else len
        if len = 0 then .ok stream
        else
          let realEnd := BitVec.ofNat 16 (start.toNat + len - 1)
          xexStream xex (i + 4 + len)
            (stream ++ (bytesOf start ++ bytesOf realEnd) ++ slice xex (i + 4) len)
  else .ok stream
termination_by xex.length - i

/-- The disk with the loader and a stream of segments. -/
def bootDisk (stream : List Byte) : List Byte :=
  let dataSectors := (stream.length + 127) / 128
  let sectors := 3 + dataSectors
  -- a standard single-density disk
  let sectors := if sectors < 720 then 720 else sectors
  let paragraphs := sectors * 128 / 16
  let header := [0x96, 0x02, BitVec.ofNat 8 paragraphs, BitVec.ofNat 8 (paragraphs >>> 8), 128, 0,
    BitVec.ofNat 8 (paragraphs >>> 16)]
  let atr := splice (List.replicate (16 + sectors * 128) 0) 0 header
  splice (splice atr 16 XEX_BOOT_LOADER) (16 + 3 * 128) stream

def xexToAtr (xex : List Byte) : Except String (List Byte) :=
  if xex.length < 6 ∨ xex.getD 0 0 ≠ 0xFF ∨ xex.getD 1 0 ≠ 0xFF then
    .error "Not an Atari executable (no $FFFF header)."
  else
    match xexStream xex 0 [] with
    | .error err => .error err
    | .ok stream =>
      if stream = [] then .error "The executable has no segments."
      else .ok (bootDisk (stream ++ [0xFF, 0xFF, 0xFF, 0xFF]))

/-! ## The bus and its drives -/

structure Drive where
  present : Bool
  image : AtrImage
  label : String
  path : String
  readOnly : Bool
  lastSector : ℕ

/-- `Drive()` -/
def Drive.none : Drive := ⟨false, .empty, "", "", false, 0⟩

/-- A response byte, to be sent after a delay. -/
structure Pending where
  delay : ℕ
  byte : Byte
  deriving DecidableEq, Repr

/-- `m_cmdLine.level` is `level`, and `received` is what POKEY was given. -/
structure AtariSio where
  level : Bool
  frame : List Byte
  frameReady : Bool
  writeDrive : Option (Fin 4)
  writeSector : ℕ
  writeLen : ℕ
  writeData : List Byte
  drives : Fin 4 → Drive
  out : List Pending
  activeDrive : Option (Fin 4)
  lastError : String
  received : List Byte

/-- What the host does about a byte: whether the file took the sector, and what is in memory
behind the data frame. -/
structure Host where
  saved : Bool
  behind : ℕ → Byte

def BYTE_CYCLES : ℕ := 940
def ACK_DELAY : ℕ := 2000
def COMPLETE_DELAY : ℕ := 3000

/-- The sum with end-around carry. -/
def checksum (d : List Byte) : Byte :=
  BitVec.ofNat 8 (d.foldl (fun sum b =>
    let sum := sum + b.toNat
    if 0xFF < sum then sum % 256 + 1 else sum) 0)

namespace AtariSio

/-- Switched on with no disks. -/
def new : AtariSio :=
  ⟨true, [], false, .none, 0, 0, [], fun _ => .none, [], .none, "", []⟩

def reset (s : AtariSio) : AtariSio :=
  { s with
    frame := [], frameReady := false, writeDrive := .none, writeData := [], out := []
    level := true }

def send (s : AtariSio) (byte : Byte) (delay : ℕ) : AtariSio :=
  { s with out := s.out ++ [⟨delay, byte⟩] }

def sendFrame (s : AtariSio) (data : List Byte) (firstDelay : ℕ) : AtariSio :=
  { s with
    out := s.out ++
      (data.mapIdx fun i b => ⟨if i = 0 then firstDelay else BYTE_CYCLES, b⟩) ++
      [⟨BYTE_CYCLES, checksum data⟩] }

def setDrive (s : AtariSio) (n : Fin 4) (d : Drive) : AtariSio :=
  { s with drives := Function.update s.drives n d }

/-- The drive a device number names. -/
def unitOf (dev : Byte) : Option (Fin 4) :=
  if dev < 0x31 ∨ 0x34 < dev then .none else some (Fin.ofNat 4 (dev.toNat - 0x31))

/-- The sector number of a command frame. -/
def sectorOf (frame : List Byte) : ℕ := (frame.getD 2 0).toNat + 256 * (frame.getD 3 0).toNat

/-- The answer to a status command. Bit 5 says double density, bit 3 write protected. -/
def statusOf (d : Drive) : List Byte :=
  [(if d.image.sectorSize = 256 then 0x20 else 0) ||| if d.readOnly then 0x08 else 0, 0xFF, 0xE0, 0]

def readCommand (s : AtariSio) (d : Drive) (sector : ℕ) : AtariSio :=
  let s := s.send (ascii 'A') ACK_DELAY
  match d.image.read sector with
  | .none =>
    (s.send (ascii 'E') COMPLETE_DELAY).sendFrame (List.replicate (d.image.sizeOf sector) 0) BYTE_CYCLES
  | some buf => (s.send (ascii 'C') COMPLETE_DELAY).sendFrame buf BYTE_CYCLES

def command (s : AtariSio) : AtariSio :=
  let cmd := s.frame.getD 1 0
  let sector := sectorOf s.frame
  match unitOf (s.frame.getD 0 0) with
  | .none => s
  | some n =>
    let d := s.drives n
    if d.present then
      let s := { s with activeDrive := some n }
      let s :=
        if cmd = ascii 'R' ∨ cmd = ascii 'W' ∨ cmd = ascii 'P' then
          s.setDrive n { d with lastSector := sector }
        else s
      if cmd = ascii 'R' then s.readCommand d sector
      else if cmd = ascii 'S' then
        ((s.send (ascii 'A') ACK_DELAY).send (ascii 'C') COMPLETE_DELAY).sendFrame (statusOf d) BYTE_CYCLES
      else if cmd = ascii 'W' ∨ cmd = ascii 'P' then
        { s.send (ascii 'A') ACK_DELAY with
          writeDrive := some n, writeSector := sector, writeLen := d.image.sizeOf sector
          writeData := [] }
      else s.send (ascii 'N') ACK_DELAY
    else s

/-- `CmdLine::set`: asserting the line starts a frame, releasing it answers one. -/
def setCommandLine (s : AtariSio) (level : Bool) : AtariSio :=
  let was := s.level
  let s := { s with level := level }
  let s := if !level && was then { s with frame := [] } else s
  if level && !was && s.frameReady then { s with frameReady := false }.command else s

/-- A sector to the image, and through to the file where there is one. -/
def saveSector (s : AtariSio) (host : Host) (n : Fin 4) (sector : ℕ) (memory : ℕ → Byte) :
    Bool × AtariSio :=
  let d := s.drives n
  if d.readOnly then (false, s)
  else
    match d.image.write sector memory with
    | .none => (false, s)
    | some image =>
      let s := s.setDrive n { d with image := image }
      if d.path = "" then (true, s)
      else if host.saved then (true, s)
      else
        (false, { s with
          lastError := "Could not save sector " ++ toString sector ++ " to " ++ d.path ++ "." })

/-- The data frame is there: answer it and write the sector. -/
def dataFrame (s : AtariSio) (host : Host) (n : Fin 4) : AtariSio :=
  let ok := checksum (s.writeData.take s.writeLen) == s.writeData.getD s.writeLen 0
  let s := s.send (if ok then ascii 'A' else ascii 'N') 1000
  let s :=
    if ok then
      -- the image takes as many bytes as its sector has, from where the frame is in memory
      let (done, s) :=
        s.saveSector host n s.writeSector fun i => s.writeData.getD i (host.behind i)
      s.send (if done then ascii 'C' else ascii 'E') 2000
    else s
  { s with writeDrive := .none, writeData := [] }

/-- A byte the computer sent. -/
def serialOut (s : AtariSio) (byte : Byte) (host : Host) : AtariSio :=
  if s.level then
    match s.writeDrive with
    | .none => s
    | some n =>
      let s := { s with writeData := s.writeData ++ [byte] }
      if s.writeData.length = s.writeLen + 1 then s.dataFrame host n else s
  else
    let s := if s.frame.length < 5 then { s with frame := s.frame ++ [byte] } else s
    if s.frame.length = 5 then
      { s with frameReady := checksum (s.frame.take 4) == s.frame.getD 4 0 }
    else s

/-- What is due after some cycles, and what is left. -/
def due : ℕ → List Pending → List Byte × List Pending
  | _, [] => ([], [])
  | cycles, p :: rest =>
    if cycles = 0 then ([], p :: rest)
    else if cycles < p.delay then ([], { p with delay := p.delay - cycles } :: rest)
    else
      let (bytes, left) := due (cycles - p.delay) rest
      (p.byte :: bytes, left)

def tick (s : AtariSio) (cycles : ℕ) : AtariSio :=
  let s := if s.out.isEmpty && s.writeDrive.isNone then { s with activeDrive := .none } else s
  let (bytes, left) := due cycles s.out
  { s with received := s.received ++ bytes, out := left }

/-- The drive a unit number names. -/
def driveOf (drive : ℤ) : Option (Fin 4) :=
  if drive < 0 ∨ 3 < drive then .none else some (Fin.ofNat 4 drive.toNat)

/-- Put an image in a drive; `writable` says whether its file can be opened for writing. -/
def mount (s : AtariSio) (drive : ℤ) (atrBytes : List Byte) (label path : String)
    (writable : Bool) : Except String AtariSio :=
  match driveOf drive with
  | .none => .error "Drive must be 1-4."
  | some n =>
    match AtrImage.load atrBytes with
    | .error err => .error err
    | .ok image =>
      .ok (s.setDrive n
        ⟨true, image, label, path, if path = "" then false else !writable, 0⟩)

def unmount (s : AtariSio) (drive : ℤ) : AtariSio :=
  match driveOf drive with
  | .none => s
  | some n => s.setDrive n .none

end AtariSio

/-- What happens to the bus: the command line, a byte of the computer, time, and the user. -/
inductive Event where
  | commandLine (level : Bool)
  | serialOut (byte : Byte) (host : Host)
  | tick (cycles : ℕ)
  | mount (drive : ℤ) (atrBytes : List Byte) (label path : String) (writable : Bool)
  | unmount (drive : ℤ)
  | reset

/-- A mount that fails leaves everything as it was. -/
def apply (s : AtariSio) : Event → AtariSio
  | .commandLine level => s.setCommandLine level
  | .serialOut byte host => s.serialOut byte host
  | .tick cycles => s.tick cycles
  | .mount drive atrBytes label path writable =>
    match s.mount drive atrBytes label path writable with
    | .ok s => s
    | .error _ => s
  | .unmount drive => s.unmount drive
  | .reset => s.reset

end Mmemu.Source.Sio
