import Mmemu.Library.WordBytes
import Mmemu.Library.MemoryWrites

/-!
# SD card on the SPI port

`sdcard_spi.cpp`: an image file behind the SPI commands of an SD card, one byte exchanged at a
time. An answer is kept as the bytes it points to: they change only where the answer does.
-/
namespace Mmemu.Source
open Mmemu.Library.LittleEndian Mmemu.Library.Splice

namespace SdCard

def R2_INIT : List Byte := [0x00, 0x00]
def R2_UNINIT : List Byte := [0x1F, 0xFF]
def R3 : List Byte := [0xC0, 0xFF, 0x80, 0x00]
def R7 : List Byte := [1, 0x00, 0x00, 0x01, 0xAA]
def BAD_LBA : List Byte := [0x00, 0x08]

/-- The fixed part of the CSD answer. -/
def base : List Byte :=
  [0xFF, 0xFF, 0x00, 0xFF, 0xFE, 0x40, 0x0E, 0x00, 0x32, 0x5B, 0x59, 0x00, 0x00, 0x00, 0x00, 0x7F,
    0x80, 0x0A, 0x40, 0x00, 0x01]

end SdCard

structure SdCardSpi where
  m_file : Option (List Byte)
  m_size : BitVec 64
  m_readOnly : Bool
  /-- The first `m_rxIdx` bytes of the receive buffer. -/
  m_rx : List Byte
  m_lba : BitVec 32
  m_lastCmd : Byte
  m_acmd : Bool
  m_idle : Bool
  m_initialized : Bool
  m_multiRead : Bool
  m_selected : Bool
  m_resp : Option (List Byte)
  m_respLen : ℕ
  m_respPos : ℕ
  m_readBlock : List Byte
  m_nextBlock : List Byte

namespace SdCardSpi
open SdCard

/-- Before a card is put in. -/
def new : SdCardSpi where
  m_file := none
  m_size := 0
  m_readOnly := false
  m_rx := []
  m_lba := 0
  m_lastCmd := 0
  m_acmd := false
  m_idle := true
  m_initialized := false
  m_multiRead := false
  m_selected := false
  m_resp := none
  m_respLen := 0
  m_respPos := 0
  m_readBlock := List.replicate 516 0
  m_nextBlock := List.replicate 515 0

/-- The file opens; it may be open for reading only. -/
def attach (s : SdCardSpi) (file : List Byte) (readOnly : Bool) : SdCardSpi :=
  { s with
    m_file := some file
    m_size := BitVec.ofNat 64 file.length
    m_readOnly := readOnly
    m_initialized := false
    m_idle := true
    m_resp := none
    m_rx := [] }

def select (s : SdCardSpi) (on : Bool) : SdCardSpi := { s with m_selected := on, m_rx := [] }

/-- What every answer but the two block answers is. -/
def respond (s : SdCardSpi) (resp : List Byte) : SdCardSpi :=
  { s with m_resp := some resp, m_respLen := resp.length }

def respondR1 (s : SdCardSpi) : SdCardSpi := s.respond [if s.m_idle then 1 else 0]

/-- The size in units of 512 KB, less one, in 22 bits of the CSD. -/
def respondCsd (s : SdCardSpi) : SdCardSpi :=
  let cSize := (s.m_size >>> 19) - 1
  s.respond (((base.set 12 ((cSize >>> 16).setWidth 8 &&& 0x3F)).set 13 ((cSize >>> 8).setWidth 8)).set 14
    (cSize.setWidth 8))

def outOfRange (s : SdCardSpi) : Bool := s.m_size.toNat ≤ s.m_lba.toNat * 512

/-- Data token, block and CRC over what `dest` held, and how many bytes are to be sent. At the end
of the file there may be less to read than a block. -/
def loadBlock (s : SdCardSpi) (dest : List Byte) : List Byte × ℕ :=
  if s.outOfRange then (dest.set 0 0x08, 1)
  else
    let read := slice (s.m_file.getD []) (s.m_lba.toNat * 512) 512
    (((splice (dest.set 0 0xFE) 1 read).set 513 0xFF).set 514 0xFF, 515)

def readCommand (s : SdCardSpi) (arg : BitVec 32) : SdCardSpi :=
  let s := { s with m_lba := arg }
  let (block, length) := s.loadBlock s.m_readBlock.tail
  { s with
    m_readBlock := 0 :: block
    m_resp := some (0 :: block)
    m_respLen := 1 + length
    m_multiRead := s.m_multiRead && 1 + length != 2 }

def writeCommand (s : SdCardSpi) (arg : BitVec 32) : SdCardSpi :=
  let s := { s with m_lba := arg }
  if s.outOfRange then s.respond BAD_LBA else s.respondR1

def command (s : SdCardSpi) (cmd : Byte) (arg : BitVec 32) : SdCardSpi :=
  match cmd.toNat with
  | 0 => { s with m_idle := true }.respondR1
  | 8 => s.respond R7
  | 9 => s.respondCsd
  -- ACMD41
  | 0xA9 => { s with m_idle := false, m_initialized := true }.respondR1
  | 12 => { s with m_multiRead := false }.respondR1
  | 13 => s.respond (if s.m_initialized then R2_INIT else R2_UNINIT)
  | 18 => { s with m_multiRead := true }.readCommand arg
  | 17 => s.readCommand arg
  | 24 => s.writeCommand arg
  | 55 => { s with m_acmd := true }.respondR1
  | 58 => s.respond R3
  | _ => s.respondR1

/-- Behind an answer there is none, or the next block of a read of many. -/
def answered (s : SdCardSpi) : SdCardSpi :=
  if s.m_multiRead then
    let s := { s with m_lba := s.m_lba + 1 }
    let (block, length) := s.loadBlock s.m_nextBlock
    { s with
      m_nextBlock := block
      m_respLen := length
      m_multiRead := length != 1
      m_resp := some block
      m_respPos := 0 }
  else { s with m_resp := none, m_multiRead := false }

/-- An idle byte takes the next byte of the answer. -/
def idle (s : SdCardSpi) : Byte × SdCardSpi :=
  match s.m_resp with
  | none => (0xFF, s)
  | some resp =>
    let out := resp.getD s.m_respPos 0
    let s := { s with m_respPos := s.m_respPos + 1 }
    (out, if s.m_respPos = s.m_respLen then s.answered else s)

def argument (rx : List Byte) : BitVec 32 :=
  (rx.getD 1 0).setWidth 32 <<< 24 ||| (rx.getD 2 0).setWidth 32 <<< 16 |||
    (rx.getD 3 0).setWidth 32 <<< 8 ||| (rx.getD 4 0).setWidth 32

/-- A command frame: command, argument and CRC. -/
def frame (s : SdCardSpi) (rx : List Byte) : SdCardSpi :=
  let cmd := rx.getD 0 0 &&& 0x3F
  let cmd := if s.m_acmd then cmd ||| 0x80 else cmd
  let s := { s with m_rx := [], m_acmd := false, m_lastCmd := cmd }
  { s.command cmd (argument rx) with m_respPos := 0 }

/-- A data block after CMD24: token 0xFE, 512 bytes and CRC. -/
def dataBlock (s : SdCardSpi) (rx : List Byte) : SdCardSpi :=
  let s := { s with m_rx := [] }
  if s.m_lastCmd = 24 ∧ rx.getD 0 0 = 0xFE ∧ !s.m_readOnly ∧ !s.outOfRange then
    { s with m_file := s.m_file.map fun file => splice file (s.m_lba.toNat * 512) (slice rx 1 512) }
  else s

/-- One byte exchanged. -/
def handle (s : SdCardSpi) (in_ : Byte) : Byte × SdCardSpi :=
  if !s.m_selected || s.m_file.isNone then (0xFF, s)
  else if s.m_rx = [] ∧ in_ = 0xFF then s.idle
  else
    let rx := s.m_rx ++ [in_]
    if rx.getD 0 0 &&& 0xC0 = 0x40 ∧ rx.length = 6 then (0xFF, s.frame rx)
    else if rx.length = 515 then (0xFF, s.dataBlock rx)
    else (0xFF, { s with m_rx := rx })

end SdCardSpi

end Mmemu.Source
