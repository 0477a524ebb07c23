import Mmemu.Library.WordBytes

/-!
# TAP archives

Source: src/plugins/cbm-loader/main/tap_parser.cpp and tap_parser.h. A file is
its bytes; a read from it fills as much of its buffer as the file holds and
leaves the rest. Offsets are 32 bits wide, as in the source.
-/
namespace Mmemu.Source.Tape
open Mmemu.Library.LittleEndian

def bytesOf (text : String) : List Byte := text.toList.map fun c => BitVec.ofNat 8 c.toNat

def signature64 : List Byte := bytesOf "C64-TAPE-RAW"
def signature16 : List Byte := bytesOf "C16-TAPE-RAW"

structure TapHeader where
  signature : List Byte
  version : Byte
  reserved : List Byte
  dataSize : BitVec 32
  deriving DecidableEq, Repr

structure TapArchive where
  header : TapHeader
  data : List Byte
  c16 : Bool
  recC16 : Bool
  recNtsc : Bool
  recording : Bool
  recordBuf : List Byte
  deriving DecidableEq, Repr

/-- An archive as constructed. -/
def empty : TapArchive :=
  { header := { signature := List.replicate 12 0, version := 0, reserved := List.replicate 3 0,
                dataSize := 0 }
    data := [], c16 := false, recC16 := false, recNtsc := false, recording := false
    recordBuf := [] }

/-- `f.read(buffer, count)` at an offset of the file, into a buffer of `count` bytes. -/
def readAt (file : List Byte) (offset count : ℕ) (buffer : List Byte) : List Byte :=
  let got := (file.drop offset).take count
  (got ++ buffer.drop got.length).take count

/-- `m_data.resize(n)` -/
def resize (data : List Byte) (n : ℕ) : List Byte := data.take n ++ List.replicate (n - data.length) 0

/-- `TapArchive::load` of a file that could be opened. `uninit` is what the
uninitialised `sizeBytes` held, seen only when the file is shorter than its header. -/
def load (t : TapArchive) (uninit file : List Byte) : Bool × TapArchive :=
  let signature := readAt file 0 12 t.header.signature
  let c16 := signature = signature16
  if !c16 ∧ signature ≠ signature64 then
    (false, { t with header.signature := signature, c16 := c16 })
  else
    let version := readAt file 12 1 [t.header.version]
    let reserved := readAt file 13 3 t.header.reserved
    let sizeBytes := readAt file 16 4 uninit
    let dataSize := BitVec.ofNat 32 (decode sizeBytes)
    (true, { t with
      header := { signature := signature, version := version.headD 0, reserved := reserved
                  dataSize := dataSize }
      c16 := c16
      data := readAt file 20 dataSize.toNat (resize t.data dataSize.toNat) })

/-! ## Recording -/

def startRecording (t : TapArchive) : TapArchive := { t with recordBuf := [], recording := true }

def stopRecording (t : TapArchive) : TapArchive := { t with recording := false }

/-- One byte for a pulse that fits it, else a zero and the raw count in 24 bits. -/
def pulseBytes (cycles : BitVec 32) : List Byte :=
  let val := cycles.toNat / 8
  if 0 < val ∧ val ≤ 0xFF then [BitVec.ofNat 8 val] else 0 :: encode 3 cycles.toNat

def appendPulse (t : TapArchive) (cycles : BitVec 32) : TapArchive :=
  { t with recordBuf := t.recordBuf ++ pulseBytes cycles }

/-- The file that `saveRecording` writes. -/
def saveRecording (t : TapArchive) : List Byte :=
  (if t.recC16 then signature16 else signature64) ++
    [if t.recC16 then 2 else 1] ++
    (if t.recC16 then [2, if t.recNtsc then 1 else 0, 0] else [0, 0, 0]) ++
    encode 4 (t.recordBuf.length % 2 ^ 32) ++ t.recordBuf

/-! ## Playing -/

/-- `TapArchive::nextPulse`: the pulse, 0 at the end, and the new offset. `none`
stands for an access outside the data. -/
def nextPulse (t : TapArchive) (offset : BitVec 32) : Option (BitVec 32 × BitVec 32) :=
  if t.data.length ≤ offset.toNat then some (0, offset)
  else do
    let val ← t.data[offset.toNat]?
    let offset := offset + 1
    if 0 < val then return (val.setWidth 32 * 8, offset)
    else if t.data.length < (offset + 3).toNat then return (0, offset)
    else
      let b0 ← t.data[offset.toNat]?
      let b1 ← t.data[(offset + 1).toNat]?
      let b2 ← t.data[(offset + 2).toNat]?
      return (BitVec.ofNat 32 (decode [b0, b1, b2]), offset + 3)

end Mmemu.Source.Tape

/-!
# Datasette

Source: src/plugins/devices/datasette/main/datasette.cpp and datasette.h. The
motor and write lines are inputs, with the level they have now; the sense line
and the levels put on the read line are outputs.
-/
namespace Mmemu.Source.Tape

structure Datasette where
  tape : TapArchive
  offset : BitVec 32
  pulseRemaining : BitVec 32
  playing : Bool
  motorOn : Bool
  buttonPressed : Bool
  halfWave : Bool
  readLevel : Bool
  secondHalf : Bool
  fullGap : BitVec 32
  recording : Bool
  lastWriteLevel : Bool
  writePulseStart : BitVec 64
  haveWriteEdge : Bool
  totalCycles : BitVec 64
  senseLine : Option Bool
  motorLine : Option Bool
  writeLine : Option Bool
  deriving DecidableEq, Repr

def setSense (level : Bool) (d : Datasette) : Datasette :=
  { d with senseLine := d.senseLine.map fun _ => level }

def reset (d : Datasette) : Datasette :=
  setSense true
    { d with
      offset := 0, pulseRemaining := 0, playing := false, motorOn := false, buttonPressed := false
      recording := false, lastWriteLevel := true, writePulseStart := 0, totalCycles := 0
      readLevel := true, secondHalf := false, fullGap := 0 }

def mount (d : Datasette) (uninit file : List (BitVec 8)) : Bool × Datasette :=
  let (ok, tape) := load d.tape uninit file
  (ok, if ok then
      setSense false
        { d with tape := tape, offset := 0, pulseRemaining := 0, secondHalf := false
                 playing := true, buttonPressed := true }
    else { d with tape := tape })

def play (d : Datasette) : Datasette := setSense false { d with playing := true, buttonPressed := true }

def stop (d : Datasette) : Datasette := { d with playing := false }

def rewind (d : Datasette) : Datasette :=
  { d with offset := 0, pulseRemaining := 0, secondHalf := false }

/-- `nextHalfWave`: the length of a half-wave, two for each value of an old tape. -/
def nextHalfWave (d : Datasette) : Option (BitVec 32 × Datasette) :=
  if 2 ≤ d.tape.header.version then do
    let (pulse, offset) ← nextPulse d.tape d.offset
    return (pulse * 2, { d with offset := offset })
  else if d.secondHalf then some (d.fullGap, { d with secondHalf := false })
  else do
    let (gap, offset) ← nextPulse d.tape d.offset
    if gap = 0 then return (0, { d with offset := offset, fullGap := gap })
    else return (gap, { d with offset := offset, fullGap := gap, secondHalf := true })

/-- False when no write line is attached. -/
def startRecord (d : Datasette) : Bool × Datasette :=
  match d.writeLine with
  | none => (false, d)
  | some level =>
    (true, setSense false
      { d with
        playing := false, tape := startRecording d.tape, recording := true, buttonPressed := true
        lastWriteLevel := level, writePulseStart := d.totalCycles, haveWriteEdge := false })

def stopRecord (d : Datasette) : Datasette :=
  if !d.recording then d
  else setSense true
    { d with tape := stopRecording d.tape, recording := false, buttonPressed := false }

/-- The cycles since the last edge that counted, as they are passed to the tape. -/
def sinceStart (d : Datasette) : BitVec 32 := (d.totalCycles - d.writePulseStart).setWidth 32

/-- The recording half of `tick`, for a motor that runs. -/
def recordEdge (d : Datasette) (level : Bool) : Datasette :=
  if level = d.lastWriteLevel then d
  else if d.halfWave then
    -- every edge ends a half-wave, from the first falling one on
    { d with
      tape := if d.haveWriteEdge then appendPulse d.tape (sinceStart d / 2) else d.tape
      writePulseStart := d.totalCycles
      haveWriteEdge := d.haveWriteEdge || !level
      lastWriteLevel := level }
  else if level then
    -- a pulse lies between two rising edges
    { d with
      tape := if d.haveWriteEdge then appendPulse d.tape (sinceStart d) else d.tape
      writePulseStart := d.totalCycles
      haveWriteEdge := true
      lastWriteLevel := level }
  else { d with lastWriteLevel := level }

/-- The next pulse to play, by the mode of the machine. -/
def nextGap (d : Datasette) : Option (BitVec 32 × Datasette) :=
  if d.halfWave then nextHalfWave d
  else do
    let (pulse, offset) ← nextPulse d.tape d.offset
    return (pulse, { d with offset := offset })

/-- The playing half of `tick`: the new state and the levels put on the read line. -/
def playPulse (d : Datasette) (cycles : BitVec 64) : Option (Datasette × List Bool) :=
  let d := { d with pulseRemaining := d.pulseRemaining - cycles.setWidth 32 }
  if (0#32).slt d.pulseRemaining then some (d, [])
  else do
    let (pulse, d) ← nextGap d
    if pulse = 0 then return (setSense true { d with playing := false, buttonPressed := false }, [])
    else
      let d := { d with pulseRemaining := d.pulseRemaining + pulse }
      if d.halfWave then return ({ d with readLevel := !d.readLevel }, [!d.readLevel])
      else return (d, [false, true])

/-- `tick`; `none` when the tape is read outside its data. -/
def tick (d : Datasette) (cycles : BitVec 64) : Option (Datasette × List Bool) :=
  let d := { d with totalCycles := d.totalCycles + cycles }
  let d := match d.motorLine with
    | none => d
    | some level => { d with motorOn := !level }
  let d := match d.writeLine with
    | none => d
    | some level => if d.recording && d.motorOn then recordEdge d level else d
  if !d.playing || !d.motorOn then some (d, []) else playPulse d cycles

end Mmemu.Source.Tape
