import Mmemu.Source.MemoryBus
import Mmemu.Library.MemoryWrites

/-!
# PSID files

Source: src/libdebug/main/sid_file.cpp: header parsing, and the load of a tune and its play
driver onto a bus.
-/
namespace Mmemu.Source.SidFile
open Mmemu.Library.Splice Mmemu.Source.MemoryBus

abbrev Byte := BitVec 8

structure Info where
  magic : List Byte
  version : ℕ
  title : List Byte
  author : List Byte
  released : List Byte
  loadAddr : ℕ
  initAddr : ℕ
  playAddr : ℕ
  dataLen : ℕ
  songs : ℕ
  startSong : ℕ
  subtune : ℕ
  ciaSpeed : Bool
  clock : ℕ
  sidModel : ℕ
  driverAddr : ℕ

def be16 (d : List Byte) (off : ℕ) : ℕ := (d.getD off 0).toNat * 256 + (d.getD (off + 1) 0).toNat

def str32 (d : List Byte) (off : ℕ) : List Byte := (slice d off 32).takeWhile (· != 0)

def DRIVER_SIZE : ℕ := 64
def PAL_FRAME_LATCH : ℕ := 312 * 63 - 1
def CIA_DEFAULT_LATCH : ℕ := 0x4025

def overlaps (a aLen b bLen : ℕ) : Bool := a < b + bLen && b < a + aLen

def bankFor (addr : ℕ) : ℕ :=
  if addr < 0xA000 then 0x37
  else if addr < 0xD000 then 0x36
  else if addr ≥ 0xE000 then 0x35
  else 0x34

def PSID : List Byte := [0x50, 0x53, 0x49, 0x44]
def RSID : List Byte := [0x52, 0x53, 0x49, 0x44]

/-- The speed bit of a song; RSID tunes time themselves. -/
def timedByCia (file : List Byte) (song : ℕ) : Bool :=
  let speed := be16 file 0x12 * 65536 + be16 file 0x14
  file.take 4 == RSID || speed.testBit (min (song - 1) 31)

/-- A zero load address is in the first two data bytes. -/
def embedded (file : List Byte) : Bool := be16 file 0x08 == 0

def loadAddress (file : List Byte) : ℕ :=
  let data := be16 file 0x06
  if embedded file then (file.getD data 0).toNat + (file.getD (data + 1) 0).toNat * 256
  else be16 file 0x08

def dataLength (file : List Byte) : ℕ :=
  let len := file.length - be16 file 0x06
  if embedded file then len - 2 else len

def parse (file : List Byte) : Except String Info :=
  if file.length < 0x76 then .error "File too small for a PSID header."
  else
    let magic := file.take 4
    if magic ≠ PSID ∧ magic ≠ RSID then .error "Not a PSID/RSID file."
    else
      let version := be16 file 0x04
      let dataOffset := be16 file 0x06
      let startSong := max 1 (be16 file 0x10)
      let flags := if 2 ≤ version ∧ 0x78 ≤ file.length then be16 file 0x76 else 0
      if file.length ≤ dataOffset then .error "No data after the header."
      else
        let len := file.length - dataOffset
        if embedded file ∧ len < 2 then .error "No load address."
        else
          let loadAddr := loadAddress file
          if loadAddr + dataLength file > 0x10000 then .error "Data runs past $FFFF."
          else .ok
            { magic
              version
              title := str32 file 0x16
              author := str32 file 0x36
              released := str32 file 0x56
              loadAddr
              initAddr := if be16 file 0x0A = 0 then loadAddr else be16 file 0x0A
              playAddr := be16 file 0x0C
              dataLen := dataLength file
              songs := max 1 (be16 file 0x0E)
              startSong
              subtune := 1
              ciaSpeed := timedByCia file startSong
              clock := flags / 4 % 4
              sidModel := flags / 16 % 4
              driverAddr := 0 }

/-! ## The play driver -/

/-- LDA #lo, STA $DC04, LDA #hi, STA $DC05. -/
def setTimer (latch : ℕ) : List ℕ :=
  [0xA9, latch % 256, 0x8D, 0x04, 0xDC, 0xA9, latch / 256, 0x8D, 0x05, 0xDC]

def driver (info : Info) (at_ : ℕ) : List Byte :=
  let d := [0x78, 0xA9, 0x7F, 0x8D, 0x0D, 0xDC, 0xAD, 0x0D, 0xDC] ++
    (if info.ciaSpeed then setTimer CIA_DEFAULT_LATCH else []) ++
    [0xA9, bankFor info.initAddr, 0x85, 0x01, 0xA9, info.subtune - 1,
      0x20, info.initAddr % 256, info.initAddr / 256]
  let d := if info.playAddr = 0 then
      -- the tune drives itself from its own interrupt handler
      let self := (at_ + d.length + 1) % 0x10000
      d ++ [0x58, 0x4C, self % 256, self / 256]
    else
      let d := d ++ (if info.ciaSpeed then [] else setTimer PAL_FRAME_LATCH) ++
        [0xA9, 0x11, 0x8D, 0x0E, 0xDC]
      let loop := (at_ + d.length) % 0x10000
      d ++ [0xAD, 0x0D, 0xDC, 0x29, 0x01, 0xF0, 0xF9, 0xA9, bankFor info.playAddr, 0x85, 0x01,
        0x20, info.playAddr % 256, info.playAddr / 256, 0x4C, loop % 256, loop / 256]
  d.map (BitVec.ofNat 8)

/-- Candidates from an address up to another, a driver apart. -/
def steps (from_ upTo : ℕ) : List ℕ :=
  (List.range ((upTo - from_) / DRIVER_SIZE)).map fun i => from_ + i * DRIVER_SIZE

/-- Free RAM for the driver. -/
def findFree (info : Info) : Option ℕ :=
  let free (cand : ℕ) : Bool := !overlaps cand DRIVER_SIZE info.loadAddr info.dataLen
  ([0x0334, 0x0200].find? free).or <|
    ((steps 0xC000 0xD000).find? free).or ((steps 0x1000 0xA000).find? free)

/-! ## Loading -/

section Loading
variable {ω : Type} [IBus ω]

def writeBytes (bus : ω) (at_ : ℕ) : List Byte → ω
  | [] => bus
  | b :: rest => writeBytes (IBus.write8 bus (BitVec.ofNat 32 at_) b) (at_ + 1) rest

/-- What a load leaves: the bus, its answer, and the address the core is set to. -/
structure Loaded (ω : Type) where
  bus : ω
  answer : Except String Info
  pc : Option ℕ

/-- The bytes of the tune. -/
def tune (file : List Byte) (info : Info) : List Byte :=
  slice file (be16 file 0x06 + if embedded file then 2 else 0) info.dataLen

/-- The tune, then the driver where there is room. -/
def place (file : List Byte) (info : Info) (bus : ω) : Loaded ω :=
  let bus := writeBytes bus info.loadAddr (tune file info)
  match findFree info with
  | none => ⟨bus, .error "No free memory for the play driver.", none⟩
  | some at_ =>
    ⟨writeBytes bus at_ (driver info at_), .ok { info with driverAddr := at_ }, some at_⟩

/-- `machine`: there are a bus and a core. -/
def load (file : List Byte) (subtune : ℤ) (machine : Bool) (bus : ω) : Loaded ω :=
  match parse file with
  | .error err => ⟨bus, .error err, none⟩
  | .ok info =>
    if !machine then ⟨bus, .error "No machine.", none⟩
    else
      let song := if subtune < 1 then info.startSong else min subtune.toNat info.songs
      place file { info with subtune := song, ciaSpeed := timedByCia file song } bus

end Loading

end Mmemu.Source.SidFile
