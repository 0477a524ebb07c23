import Mmemu.Source.CbmImageDos

/-!
# The virtual drive on the serial bus

Source: src/plugins/devices/virtual_iec/main/virtual_iec.cpp and virtual_iec.h.
The image behind the mounted path is what its parser reads from it; which path
opens as which image is an argument. A line is true when it is pulled low.
-/
namespace Mmemu.Source.VirtualIec
open Mmemu.Source.CbmDos

inductive State where
  | idle | attention | addressing | acknowledge | listening | turnaround | talkReady | talking
  | talkFrame | error
  deriving DecidableEq, Repr

/-- An image that was opened; `readFile` changes the buffer it is given. -/
structure DiskImage where
  entries : List CbmDirEntry
  diskName : Bytes
  diskId : Bytes
  freeBlocks : BitVec 16
  readFile : Bytes → Bytes → Bytes

structure VirtualIecBus where
  deviceNumber : Byte
  state : State
  nextState : State
  isAddressed : Bool
  readyToSample : Bool
  atnIn : Bool
  clkIn : Bool
  dataIn : Bool
  clkOut : Bool
  dataOut : Bool
  lastClkIn : Bool
  currentByte : Byte
  bitCount : ℕ
  stateTimer : BitVec 64
  isLastByte : Bool
  talkSubPhase : ℕ
  secondaryAddress : Byte
  filename : Bytes
  mountedPath : Bytes
  fileBuffer : Bytes
  fileIdx : ℕ
  isSendingDir : Bool
  led : Bool
  bytesSent : ℕ
  deriving DecidableEq, Repr

/-- A drive as constructed. -/
def constructed (deviceNumber : Byte) : VirtualIecBus where
  deviceNumber := deviceNumber
  state := .idle
  nextState := .idle
  isAddressed := false
  readyToSample := false
  atnIn := false
  clkIn := false
  dataIn := false
  clkOut := false
  dataOut := false
  lastClkIn := false
  currentByte := 0
  bitCount := 0
  stateTimer := 0
  isLastByte := false
  talkSubPhase := 0
  secondaryAddress := 0
  filename := []
  mountedPath := []
  fileBuffer := []
  fileIdx := 0
  isSendingDir := false
  led := false
  bytesSent := 0

/-! ## The directory -/

/-- What is listed: the entries, the name and id of the disk, the blocks free. -/
structure Listed where
  entries : List CbmDirEntry
  diskName : Bytes
  diskId : Bytes
  freeBlocks : BitVec 16
  deriving DecidableEq, Repr

/-- `while (s.length() < n) s += ' '` -/
def padRight (n : ℕ) (s : Bytes) : Bytes := s ++ List.replicate (n - s.length) (chr ' ')

def headerText (l : Listed) : Bytes :=
  let diskName := if l.diskName.isEmpty then str "UNNAMED" else l.diskName
  [0x12, chr '"'] ++ padRight 16 diskName ++ [chr '"'] ++
    match l.diskId with
    | a :: b :: _ => [a, b]
    | _ => str "00"

def fileText (e : CbmDirEntry) : Bytes :=
  let blocks := (Nat.toDigits 10 e.sizeBlocks.toNat).map chr
  List.replicate (5 - blocks.length) (chr ' ') ++ blocks ++ str " \"" ++
    padRight 16 (e.filename.take 16) ++ str "\" PRG"

/-- The lines of a listing: numbers and texts. -/
def listingLines (l : Listed) : List (BitVec 16 × Bytes) :=
  (0, headerText l) :: l.entries.map (fun e => (e.sizeBlocks, fileText e)) ++
    [(l.freeBlocks, str "BLOCKS FREE.             ")]

/-- A line with a link of zero, to be set later. -/
def addLine (buffer : Bytes) (line : BitVec 16 × Bytes) : Bytes :=
  buffer ++ [0, 0, line.1.setWidth 8, (line.1 >>> 8).setWidth 8] ++ line.2 ++ [0]

/-- Where the zero lies that ends a line, or the end of the buffer. -/
def lineEnd (buffer : Bytes) (start : ℕ) : ℕ := start + ((buffer.drop start).takeWhile (· ≠ 0)).length

def setLink (buffer : Bytes) (pos : ℕ) (link : BitVec 16) : Bytes :=
  (buffer.set pos (link.setWidth 8)).set (pos + 1) ((link >>> 8).setWidth 8)

/-- The loop that sets the links. Each turn goes on past a line, so as many turns
as bytes are enough. -/
def fixLinks : ℕ → Bytes → ℕ → Bytes
  | 0, buffer, _ => buffer
  | turns + 1, buffer, pos =>
    if buffer.length ≤ pos ∨ buffer.length < pos + 4 then buffer
    else
      let last := lineEnd buffer (pos + 4)
      let next := last + 1
      if buffer.length ≤ last then buffer
      else if buffer.length < next + 4 then setLink buffer pos 0
      else fixLinks turns (setLink buffer pos (0x0801 + BitVec.ofNat 16 next)) next

/-- The stream that `generateDirectoryListing` leaves in the buffer. -/
def listing (l : Listed) : Bytes :=
  let buffer := (listingLines l).foldl addLine [0x01, 0x08]
  fixLinks buffer.length buffer 2

/-- What is listed for a mounted image, or without one. -/
def listed (disks : Bytes → Option DiskImage) (path : Bytes) : Listed :=
  if path.isEmpty then { entries := [], diskName := [], diskId := str "00", freeBlocks := 9999 }
  else
    match disks path with
    | none => { entries := [], diskName := [], diskId := str "00", freeBlocks := 0 }
    | some p =>
      { entries := p.entries, diskName := p.diskName, diskId := p.diskId, freeBlocks := p.freeBlocks }

namespace VirtualIecBus

def generateDirectoryListing (disks : Bytes → Option DiskImage) (d : VirtualIecBus) : VirtualIecBus :=
  { d with fileBuffer := listing (listed disks d.mountedPath), fileIdx := 0, isSendingDir := true }

/-! ## Commands and bytes -/

section Protocol

variable (disks : Bytes → Option DiskImage)

def processCommand (d : VirtualIecBus) (cmd : Byte) : VirtualIecBus :=
  if cmd = 0x3F then { d with nextState := .idle, isAddressed := false }
  else if cmd = 0x5F then { d with nextState := .idle, isAddressed := false, clkOut := false }
  else if cmd &&& 0xE0 = 0x20 then
    if cmd &&& 0x1F = d.deviceNumber then
      { d with isAddressed := true, nextState := .listening, filename := [] }
    else { d with isAddressed := false }
  else if cmd &&& 0xE0 = 0x40 then
    if cmd &&& 0x1F = d.deviceNumber then
      let d := { d with isAddressed := true, nextState := .turnaround }
      if d.filename = str "$" ∨ d.filename = str "*" then generateDirectoryListing disks d
      else if d.filename.isEmpty then d
      else
        match if d.mountedPath.isEmpty then none else disks d.mountedPath with
        | none => { d with fileIdx := 0 }
        | some p => { d with fileBuffer := p.readFile d.filename d.fileBuffer, fileIdx := 0 }
    else { d with isAddressed := false }
  else if cmd &&& 0xF0 = 0xF0 then
    if d.isAddressed then { d with secondaryAddress := cmd &&& 0x0F, filename := [] } else d
  else if cmd &&& 0xF0 = 0xE0 then
    if d.isAddressed then
      { d with secondaryAddress := cmd &&& 0x0F, fileBuffer := [], fileIdx := 0, filename := [] }
    else d
  else if cmd &&& 0xE0 = 0x60 then
    if d.isAddressed then { d with secondaryAddress := cmd &&& 0x0F } else d
  else d

def handleByteReceived (d : VirtualIecBus) (byte : Byte) : VirtualIecBus :=
  if d.secondaryAddress = 0 ∨ d.secondaryAddress = 1 then { d with filename := d.filename ++ [byte] }
  else d

def handleBitTransfer (d : VirtualIecBus) : VirtualIecBus :=
  let d := if d.lastClkIn && !d.clkIn then
      { d with currentByte := d.currentByte >>> 1 ||| (if d.dataIn then 0 else 0x80)
               bitCount := d.bitCount + 1 }
    else d
  { d with lastClkIn := d.clkIn }

def getNextByte (d : VirtualIecBus) : Byte × VirtualIecBus :=
  match d.fileBuffer[d.fileIdx]? with
  | some byte => (byte, { d with fileIdx := d.fileIdx + 1 })
  | none => (0, d)

/-! ## Ticks -/

/-- A byte is received bit by bit: the phases of ADDRESSING and of LISTENING.
`whole` is what is done with it. -/
def receive (whole : VirtualIecBus → Byte → VirtualIecBus) (d : VirtualIecBus) : VirtualIecBus :=
  match d.talkSubPhase with
  | 0 => if !d.clkIn then { d with dataOut := false, talkSubPhase := 1, stateTimer := 0 } else d
  | 1 =>
    if d.clkIn then { d with lastClkIn := true, talkSubPhase := 2 }
    else if 250 < d.stateTimer then
      -- the last byte: acknowledged with a pulse
      { d with dataOut := true, talkSubPhase := 3, stateTimer := 0 }
    else d
  | 2 =>
    let d := handleBitTransfer d
    if d.bitCount = 8 then
      { whole d d.currentByte with
        dataOut := true, state := .acknowledge, bitCount := 0, currentByte := 0
        readyToSample := false, stateTimer := 0 }
    else d
  | 3 => if 60 < d.stateTimer then { d with dataOut := false, talkSubPhase := 4 } else d
  | 4 => if d.clkIn then { d with lastClkIn := true, talkSubPhase := 2 } else d
  | _ => d

/-- ATN, where a state looks for it; a talker lets CLK go as well. -/
def attend (d : VirtualIecBus) : VirtualIecBus := { d with state := .attention, dataOut := true, stateTimer := 0 }

def tickAttention (d : VirtualIecBus) : VirtualIecBus :=
  let d := { d with dataOut := true }
  if d.clkIn ∧ 20 < d.stateTimer then
    { d with state := .addressing, bitCount := 0, currentByte := 0, talkSubPhase := 0
             readyToSample := false, lastClkIn := true, stateTimer := 0 }
  else d

def tickAddressing (d : VirtualIecBus) : VirtualIecBus :=
  if !d.atnIn then { d with state := d.nextState, stateTimer := 0 }
  else receive (processCommand disks) d

def tickAcknowledge (d : VirtualIecBus) : VirtualIecBus :=
  if d.stateTimer ≤ 80 then d
  else if d.atnIn then
    { d with state := .addressing, bitCount := 0, currentByte := 0, talkSubPhase := 0
             readyToSample := false, lastClkIn := d.clkIn, stateTimer := 0 }
  else
    { d with state := d.nextState, bitCount := 0, currentByte := 0, readyToSample := false
             stateTimer := 0, talkSubPhase := 0 }

def tickTurnaround (d : VirtualIecBus) : VirtualIecBus :=
  if !d.clkIn then
    { d with clkOut := true, dataOut := false, state := .talkReady, talkSubPhase := 0
             stateTimer := 0, bytesSent := 0 }
  else d

/-- The first bit of the byte to send. -/
def startTalking (d : VirtualIecBus) : VirtualIecBus :=
  { d with state := .talking, bitCount := 0, clkOut := true, dataOut := !d.currentByte.getLsbD 0
           stateTimer := 0 }

def tickTalkReady (d : VirtualIecBus) : VirtualIecBus :=
  match d.talkSubPhase with
  | 0 =>
    let d := { d with clkOut := true, dataOut := false }
    if d.dataIn ∧ 100 ≤ d.stateTimer then { d with clkOut := false, talkSubPhase := 1, stateTimer := 0 }
    else d
  | 1 =>
    if !d.dataIn then
      let (byte, d) := getNextByte d
      let d := { d with currentByte := byte, isLastByte := d.fileBuffer.length ≤ d.fileIdx }
      if d.isLastByte then { d with talkSubPhase := 2, stateTimer := 0 } else startTalking d
    else d
  | 2 => if 250 ≤ d.stateTimer then { d with talkSubPhase := 3 } else d
  | 3 => if d.dataIn then { d with talkSubPhase := 4, stateTimer := 0 } else d
  | 4 => if !d.dataIn then startTalking d else d
  | _ => d

def tickTalking (d : VirtualIecBus) : VirtualIecBus :=
  if d.stateTimer ≤ 60 then d
  else if d.clkOut then { d with clkOut := false, stateTimer := 0 }
  else
    let d := { d with bitCount := d.bitCount + 1 }
    if d.bitCount = 8 then
      { d with state := .talkFrame, clkOut := true, dataOut := false, stateTimer := 0 }
    else { d with clkOut := true, dataOut := !d.currentByte.getLsbD d.bitCount, stateTimer := 0 }

def tickTalkFrame (d : VirtualIecBus) : VirtualIecBus :=
  if d.dataIn then
    let d := { d with bytesSent := d.bytesSent + 1 }
    if d.isLastByte then { d with state := .idle, clkOut := false, dataOut := false }
    else { d with state := .talkReady, talkSubPhase := 0, stateTimer := 0 }
  else if 1000 < d.stateTimer then { d with state := .error }
  else d

/-- The switch of `tick`. -/
def react (d : VirtualIecBus) : VirtualIecBus :=
  let letGo (d : VirtualIecBus) : VirtualIecBus := { attend d with clkOut := false }
  match d.state with
  | .idle => if d.atnIn then attend d else d
  | .attention => tickAttention d
  | .addressing => tickAddressing disks d
  | .acknowledge => tickAcknowledge d
  | .listening => if d.atnIn then attend d else receive handleByteReceived d
  | .turnaround => if d.atnIn then letGo d else tickTurnaround d
  | .talkReady => if d.atnIn then letGo d else tickTalkReady d
  | .talking => if d.atnIn then letGo d else tickTalking d
  | .talkFrame => if d.atnIn then letGo d else tickTalkFrame d
  | .error => d

def tick (d : VirtualIecBus) (cycles : BitVec 64) : VirtualIecBus :=
  let d := react disks { d with stateTimer := d.stateTimer + cycles }
  { d with led := d.state ≠ .idle }

end Protocol

/-! ## The other calls -/

def readPort (d : VirtualIecBus) : Byte :=
  (if d.clkIn || d.clkOut then 0 else 0x40) ||| (if d.dataIn || d.dataOut then 0 else 0x80) |||
    (if d.atnIn then 0x08 else 0)

def writePort (d : VirtualIecBus) (val : Byte) : VirtualIecBus :=
  { d with atnIn := val.getLsbD 3, clkIn := val.getLsbD 4, dataIn := val.getLsbD 5 }

def reset (d : VirtualIecBus) : VirtualIecBus :=
  { d with
    state := .idle, nextState := .idle, isAddressed := false, clkOut := false, dataOut := false
    lastClkIn := false, currentByte := 0, bitCount := 0, stateTimer := 0, fileIdx := 0
    isSendingDir := false, isLastByte := false, talkSubPhase := 0, filename := [], led := false }

def mountDisk (d : VirtualIecBus) (unit : ℤ) (path : Bytes) : VirtualIecBus :=
  if unit = d.deviceNumber.toNat then { d with mountedPath := path } else d

def ejectDisk (d : VirtualIecBus) (unit : ℤ) : VirtualIecBus :=
  if unit = d.deviceNumber.toNat then { d with mountedPath := [], fileBuffer := [] } else d

end VirtualIecBus

end Mmemu.Source.VirtualIec
