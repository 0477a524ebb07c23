import Mathlib.Data.BitVec
import Mathlib.Logic.Function.Basic
import Mathlib.Data.List.Rotate

/-!
# Disk II: disk images and their nibbles

Source: `src/plugins/machines/apple2/main/disk2.cpp`, class `Disk2Image`. A track
of a sector image is 4096 bytes, and 6384 nibbles on the disk; a `.nib` image holds
the nibbles as recorded. The image file behind `writeTrack` is not modelled, nor the
choice of an order from the file's contents.
-/
namespace Mmemu.Source.Disk2

/-- Valid disk bytes for the 6-bit values. -/
def diskBytes : List (BitVec 8) :=
  [0x96, 0x97, 0x9A, 0x9B, 0x9D, 0x9E, 0x9F, 0xA6, 0xA7, 0xAB, 0xAC, 0xAD, 0xAE, 0xAF, 0xB2, 0xB3,
   0xB4, 0xB5, 0xB6, 0xB7, 0xB9, 0xBA, 0xBB, 0xBC, 0xBD, 0xBE, 0xBF, 0xCB, 0xCD, 0xCE, 0xCF, 0xD3,
   0xD6, 0xD7, 0xD9, 0xDA, 0xDB, 0xDC, 0xDD, 0xDE, 0xDF, 0xE5, 0xE6, 0xE7, 0xE9, 0xEA, 0xEB, 0xEC,
   0xED, 0xEE, 0xEF, 0xF2, 0xF3, 0xF4, 0xF5, 0xF6, 0xF7, 0xF9, 0xFA, 0xFB, 0xFC, 0xFD, 0xFE, 0xFF]

def diskByte (i : ℕ) : BitVec 8 := diskBytes.getD i 0

inductive Order
  | proDOS | dos | nib
  deriving DecidableEq, Repr

/-- The image's sector for each physical sector, in ProDOS and in DOS order. -/
def sectorNumber (order : Order) (s : ℕ) : BitVec 4 :=
  (if order = .proDOS then
    [0x0, 0x8, 0x1, 0x9, 0x2, 0xA, 0x3, 0xB, 0x4, 0xC, 0x5, 0xD, 0x6, 0xE, 0x7, 0xF]
  else
    [0x0, 0x7, 0xE, 0x6, 0xD, 0x5, 0xC, 0x4, 0xB, 0x3, 0xA, 0x2, 0x9, 0x1, 0x8, 0xF]).getD s 0

/-- The volume every track is formatted with. -/
def defaultVolume : BitVec 8 := 254

def nibTrack : ℕ := 0x1A00
def trackBytes : ℕ := 4096

/-- 256 bytes, by their offset. -/
abbrev Sector := BitVec 8 → BitVec 8

/-- The 16 sectors of a track. -/
abbrev Track := BitVec 12 → BitVec 8

def Track.sector (t : Track) (n : BitVec 4) : Sector := fun offset => t (n ++ offset)

def Track.setSector (t : Track) (n : BitVec 4) (sector : Sector) : Track := fun i =>
  if (i >>> 8).setWidth 4 = n then sector (i.setWidth 8) else t i

/-! ## 6-and-2 coding of a sector -/

/-- Two more low bits, mirrored. -/
def add (value a : BitVec 8) : BitVec 8 := (value <<< 2) ||| ((a &&& 0x01) <<< 1) ||| ((a &&& 0x02) >>> 1)

/-- The low two bits of three bytes. -/
def lowBits (sector : Sector) (offset : BitVec 8) : BitVec 8 :=
  add (add (add 0 (sector offset)) (sector (offset - 0x56))) (sector (offset - 0x56 - 0x56)) <<< 2

/-- `while (offset != 0x02)`: the offset grows by one a round, so 256 rounds suffice. -/
def lowLoop (sector : Sector) : ℕ → BitVec 8 → List (BitVec 8)
  | 0, _ => []
  | rounds + 1, offset =>
    if offset = 0x02 then []
    else lowBits sector offset :: lowLoop sector rounds (offset - 0x56 - 0x56 - 0x53)

/-- The last two values, whose first byte lies behind the sector, lose its bits. -/
def maskLast (low : List (BitVec 8)) : List (BitVec 8) :=
  low.mapIdx fun k value => if low.length ≤ k + 2 then value &&& 0x3F else value

/-- The 342 values of a sector in the upper six bits: the low bits, then the bytes. -/
def sixOf (sector : Sector) : List (BitVec 8) :=
  maskLast (lowLoop sector 256 0xAC) ++ (List.range 0x100).map fun i => sector (BitVec.ofNat 8 i)

/-- Each value XORed with the one before, and the last as a checksum. -/
def chain (saved : BitVec 8) : List (BitVec 8) → List (BitVec 8)
  | [] => [saved]
  | value :: rest => (saved ^^^ value) :: chain value rest

def nibblizeSector (sector : Sector) : List (BitVec 8) :=
  (chain 0 (sixOf sector)).map fun value : BitVec 8 => diskByte (value >>> 2).toNat

/-- The table from disk bytes, less `$80`, back to values. -/
def sixBit : BitVec 8 → BitVec 8 :=
  (List.range 0x40).foldl (fun table i => Function.update table (diskByte i - 0x80) (BitVec.ofNat 8 i <<< 2))
    fun _ => 0

def unchain (saved : BitVec 8) : List (BitVec 8) → List (BitVec 8)
  | [] => []
  | value :: rest => (saved ^^^ value) :: unchain (saved ^^^ value) rest

/-- The loop of the decoder over the low bits; `high` are the 256 upper values. -/
def decodeLoop (high : Sector) : List (BitVec 8) → BitVec 8 → Sector → Sector
  | [], _, sector => sector
  | low :: lows, offset, sector =>
    if offset = 0x02 then sector
    else
      let sector :=
        if 0xAC ≤ offset then
          Function.update sector offset
            ((high offset &&& 0xFC#8) ||| ((low &&& 0x80) >>> 7) ||| ((low &&& 0x40) >>> 5))
        else sector
      let offset := offset - 0x56
      let sector := Function.update sector offset
        ((high offset &&& 0xFC#8) ||| ((low &&& 0x20) >>> 5) ||| ((low &&& 0x10) >>> 3))
      let offset := offset - 0x56
      let sector := Function.update sector offset
        ((high offset &&& 0xFC#8) ||| ((low &&& 0x08) >>> 3) ||| ((low &&& 0x04) >>> 1))
      decodeLoop high lows (offset - 0x53) sector

/-- Decodes into a sector; the checksum is read but not checked. -/
def denibblizeSector (input : List (BitVec 8)) (sector : Sector) : Sector :=
  let six := (input.take 343).map fun nibble => sixBit (nibble &&& 0x7F)
  let buf := unchain 0 (six.take 342)
  decodeLoop (fun offset => buf.getD (0x56 + offset.toNat) 0) buf 0xAC sector

/-! ## Tracks -/

/-- The two bytes of 4-and-4 coding. -/
def a44 (v : BitVec 8) : BitVec 8 := ((v >>> 1) &&& 0x55) ||| 0xAA
def b44 (v : BitVec 8) : BitVec 8 := (v &&& 0x55) ||| 0xAA

def addressField (volume t sec : BitVec 8) : List (BitVec 8) :=
  let chk := volume ^^^ t ^^^ sec
  [0xD5, 0xAA, 0x96, a44 volume, b44 volume, a44 t, b44 t, a44 sec, b44 sec, a44 chk, b44 chk,
    0xDE, 0xAA, 0xEB]

def dataField (sector : Sector) : List (BitVec 8) :=
  [0xD5, 0xAA, 0xAD] ++ nibblizeSector sector ++ [0xDE, 0xAA, 0xEB]

/-- A sector with its gaps 2 and 3. -/
def sectorFields (volume t sec : BitVec 8) (sector : Sector) : List (BitVec 8) :=
  addressField volume t sec ++ List.replicate 6 0xFF ++ dataField sector ++ List.replicate 27 0xFF

/-- `nibblize`, for any volume. -/
def nibblize (order : Order) (volume t : BitVec 8) (data : Track) : List (BitVec 8) :=
  List.replicate 48 0xFF ++ (List.range 16).flatMap fun s =>
    sectorFields volume t (BitVec.ofNat 8 s) (data.sector (sectorNumber order s))

/-- The position behind `offset` in a circular track. -/
def next (nibbles offset : ℕ) : ℕ := if nibbles ≤ offset + 1 then 0 else offset + 1

/-- The search for `$D5` and the two nibbles behind it, which `v` collects. -/
def search (track : List (BitVec 8)) : ℕ → ℕ → List (BitVec 8) → ℕ × List (BitVec 8)
  | 0, offset, v => (offset, v)
  | loop + 1, offset, v =>
    if v.length < 3 then
      let nibble := track.getD offset 0
      let v := if v ≠ [] then v ++ [nibble] else if nibble = 0xD5 then [nibble] else []
      search track loop (next track.length offset) v
    else (offset, v)

/-- The `count` nibbles from `temp` on. -/
def window (track : List (BitVec 8)) : ℕ → ℕ → List (BitVec 8)
  | 0, _ => []
  | count + 1, temp => track.getD temp 0 :: window track count (next track.length temp)

/-- Where `denibblize` stands; the sector is `none` for the source's -1. -/
structure Decoder where
  offset : ℕ
  sector : Option (BitVec 8)
  out : Track

/-- The next field of a track. -/
def decodePart (order : Order) (track : List (BitVec 8)) (d : Decoder) : Decoder :=
  let (offset, v) := search track track.length d.offset []
  let d := { d with offset := offset }
  if v.length = 3 ∧ v.getD 1 0 = 0xAA then
    let work := window track 384 offset
    if v.getD 2 0 = 0x96 then
      { d with sector := some (((work.getD 4 0 &&& 0x55) <<< 1) ||| (work.getD 5 0 &&& 0x55)) }
    else if v.getD 2 0 = 0xAD then
      let out :=
        match d.sector with
        | none => d.out
        | some sector =>
          if sector < 16 then
            let n := sectorNumber order sector.toNat
            d.out.setSector n (denibblizeSector work (d.out.sector n))
          else d.out
      { d with sector := some 0, out := out }
    else d
  else d

def denibblize (order : Order) (track : List (BitVec 8)) : Track :=
  ((decodePart order track)^[16 * 2 + 1] { offset := 0, sector := none, out := fun _ => 0 }).out

/-! ## Images -/

structure Disk2Image where
  data : ℕ → BitVec 8
  order : Order
  tracks : ℕ
  protect : Bool

/-- The bytes of a sector image's track. -/
def Disk2Image.track (img : Disk2Image) (t : ℕ) : Track := fun i => img.data (trackBytes * t + i.toNat)

/-- The track's nibbles; none for a track the image does not have. -/
def readTrack (img : Disk2Image) (track : ℕ) (skew : Bool) : List (BitVec 8) :=
  if img.tracks ≤ track then []
  else if img.order = .nib then (List.range nibTrack).map fun i => img.data (nibTrack * track + i)
  else
    let out := nibblize img.order defaultVolume (BitVec.ofNat 8 track) (img.track track)
    if skew then out.rotate ((track * 768) % out.length) else out

/-- Nibbles back into the image. -/
def writeTrack (img : Disk2Image) (track : ℕ) (nibbles : List (BitVec 8)) : Disk2Image :=
  if img.tracks ≤ track ∨ img.protect then img
  else if img.order = .nib then
    { img with
      data := fun i =>
        let k := i - nibTrack * track
        if nibTrack * track ≤ i ∧ k < min nibbles.length nibTrack then nibbles.getD k 0 else img.data i }
  else
    let out := denibblize img.order nibbles
    { img with
      data := fun i =>
        let k := i - trackBytes * track
        if trackBytes * track ≤ i ∧ k < trackBytes then out (BitVec.ofNat 12 k) else img.data i }

end Mmemu.Source.Disk2

/-!
# Disk II: the interface card

Source: `src/plugins/machines/apple2/main/disk2.cpp`, class `Disk2Card`. A drive holds the
track under its head in a buffer of nibbles; `flush` takes a buffer that was written to
back to the image. A buffer is as long as the nibbles of the track in it. The boot ROM,
`getDiskStatus` and the names of the images' files are not modelled. An operation answers
with the value that it returns and with the image that it destroys.
-/
namespace Mmemu.Source.Disk2

/-- The motor runs on for about a second after it is turned off. -/
def spinningCycles : ℕ := 1000 * 1000

def motorOnUntilLssStableCycles : BitVec 64 := 0x2EC

structure Floppy where
  image : Option Disk2Image := none
  track : List (BitVec 8) := []
  byte : ℕ := 0
  trackData : Bool := false
  dirty : Bool := false

structure Drive where
  disk : Floppy := {}
  /-- Half tracks 0-79. -/
  phase : ℕ := 0
  spinning : ℕ := 0
  writeLight : ℕ := 0
  motorOnCycle : BitVec 64 := 0

/-- The two drives are `false` and `true`. A change of the stepper takes effect ten cycles
later. -/
structure Disk2Card where
  drive : Bool → Drive := fun _ => {}
  curr : Bool := false
  motorOn : Bool := false
  magnets : BitVec 4 := 0
  writeMode : Bool := false
  loadMode : Bool := false
  latch : BitVec 8 := 0
  lastCycle : BitVec 64 := 0
  lastReadLatch : BitVec 64 := 0
  now : BitVec 64 := 0
  deferred : Bool := false
  deferredAddr : BitVec 16 := 0
  deferredAt : BitVec 64 := 0
  rand : BitVec 32 := 0x1234567

/-! ## Drives -/

/-- The track under the head. -/
def Drive.head (d : Drive) : ℕ := d.phase / 2

/-- The buffer back into the image, if it was written to. -/
def Drive.flush (d : Drive) : Drive :=
  { d with
    disk :=
      { d.disk with
        image := if d.disk.dirty then d.disk.image.map fun img => writeTrack img d.head d.disk.track
          else d.disk.image
        dirty := false } }

/-- The track under the head into the buffer, if the disk has it. -/
def Drive.readTrack (d : Drive) : Drive :=
  match d.disk.image with
  | none => { d with disk := { d.disk with trackData := false } }
  | some img =>
    if img.tracks ≤ d.head then { d with disk := { d.disk with trackData := false } }
    else
      let nibbles := Disk2.readTrack img d.head true
      { d with disk := { d.disk with track := nibbles, byte := 0, trackData := !nibbles.isEmpty } }

/-- The head on a half track: the buffer goes back and is to be read again. -/
def Drive.moveTo (d : Drive) (np : ℕ) : Drive :=
  if np ≠ d.phase then
    let d := d.flush
    { d with phase := np, disk := { d.disk with trackData := false } }
  else d

/-- The disk has turned a nibble every 32 cycles. -/
def Drive.turn (d : Drive) (diff : BitVec 64) : Drive :=
  if 40 < diff then
    let byte := d.disk.byte + (diff >>> 5).toNat % d.disk.track.length
    { d with
      disk := { d.disk with
        byte := if d.disk.track.length ≤ byte then byte - d.disk.track.length else byte } }
  else d

/-- The next nibble under the head. -/
def Drive.advance (d : Drive) : Drive :=
  { d with
    disk := { d.disk with
      byte := if d.disk.track.length ≤ d.disk.byte + 1 then 0 else d.disk.byte + 1 } }

/-- The motor runs down. -/
def Drive.runDown (d : Drive) (motorOn : Bool) (cycles : BitVec 64) : Drive :=
  if d.spinning ≠ 0 ∧ !motorOn then { d with spinning := d.spinning - min d.spinning cycles.toNat } else d

/-- The light is on while the drive is written to, and goes out behind it. -/
def Drive.shine (d : Drive) (writing : Bool) (cycles : BitVec 64) : Drive :=
  if writing ∧ d.spinning ≠ 0 then { d with writeLight := spinningCycles }
  else { d with writeLight := d.writeLight - min d.writeLight cycles.toNat }

/-- A nibble where the head is. -/
def Drive.writeNibble (d : Drive) (latch : BitVec 8) : Drive :=
  { d with disk := { d.disk with track := d.disk.track.set d.disk.byte latch, dirty := true } }

/-- Another disk, or none. -/
def Drive.load (d : Drive) (image : Option Disk2Image) : Drive :=
  { d with disk := { d.disk with image := image, trackData := false, dirty := false, byte := 0 } }

/-- The disk taken out, behind `flush`. -/
def Drive.release (d : Drive) : Drive :=
  { d with disk := { d.disk with image := none, trackData := false } }

namespace Disk2Card

def modify (c : Disk2Card) (i : Bool) (f : Drive → Drive) : Disk2Card :=
  { c with drive := Function.update c.drive i (f (c.drive i)) }

def flush (c : Disk2Card) (i : Bool) : Disk2Card := c.modify i Drive.flush

/-! ## The stepper -/

/-- The half track that the magnets pull the head to: toward an adjacent magnet that is on,
unless both are. -/
def pulled (magnets : BitVec 4) (phase : ℕ) : ℕ :=
  let dir : ℤ := (if magnets.getLsbD ((phase + 1) % 4) then 1 else 0) -
    (if magnets.getLsbD ((phase + 3) % 4) then 1 else 0)
  (max 0 (min 79 ((phase : ℤ) + dir))).toNat

def stepperDeferred (c : Disk2Card) : Disk2Card :=
  { c with deferred := false }.modify c.curr fun d => d.moveTo (pulled c.magnets d.phase)

def syncStepper (c : Disk2Card) (now : BitVec 64) : Disk2Card :=
  let c := if c.now < now then { c with now := now } else c
  if c.deferred ∧ c.deferredAt + 10 ≤ c.now then c.stepperDeferred else c

/-- Two adjacent magnets off in quick succession do not move the cog. -/
def adjacentOff (deferredAddr addr : BitVec 16) : Bool :=
  let delta := ((deferredAddr &&& 7).toNat : ℤ) - (addr &&& 7).toNat
  (delta.natAbs == 2 || delta.natAbs == 6) && !addr.getLsbD 0

def setMagnet (c : Disk2Card) (addr : BitVec 16) : Disk2Card :=
  let bit : BitVec 4 := 1 <<< ((addr >>> 1) &&& 3).toNat
  { c with magnets := if addr.getLsbD 0 then c.magnets ||| bit else c.magnets &&& ~~~bit }

def defer (c : Disk2Card) (addr : BitVec 16) (now : BitVec 64) : Disk2Card :=
  { c with deferredAddr := addr, deferredAt := now, deferred := true }

def controlStepper (c : Disk2Card) (addr : BitVec 16) (now : BitVec 64) : Disk2Card :=
  if !c.motorOn ∧ (c.drive c.curr).spinning = 0 then c
  else
    let c := c.setMagnet addr
    if c.deferred then
      if adjacentOff c.deferredAddr addr then { c with deferred := false }
      else (c.stepperDeferred).defer addr now
    else c.defer addr now

/-! ## Motor and drive select -/

def checkSpinning (c : Disk2Card) (stateChanged : Bool) (now : BitVec 64) : Disk2Card :=
  let modeChanged := c.motorOn && (c.drive c.curr).spinning == 0
  let c := if c.motorOn then c.modify c.curr fun d => { d with spinning := spinningCycles } else c
  let c := if modeChanged then { c with lastCycle := now } else c
  if c.motorOn ∧ stateChanged then c.modify c.curr fun d => { d with motorOnCycle := now } else c

def controlMotor (c : Disk2Card) (addr : BitVec 16) (now : BitVec 64) : Disk2Card :=
  let on := addr.getLsbD 0
  let changed := on != c.motorOn
  { c with magnets := if !on then 0 else c.magnets, motorOn := on }.checkSpinning changed now

def enable (c : Disk2Card) (addr : BitVec 16) (now : BitVec 64) : Disk2Card :=
  let nd := addr.getLsbD 0
  let changed := nd != c.curr
  let c := { c with curr := nd }.modify (!nd) fun d => { d with spinning := 0, writeLight := 0 }
  c.checkSpinning changed now

/-! ## The data latch -/

/-- An empty drive: noise once the sequencer settles. -/
def noise (c : Disk2Card) (now : BitVec 64) : Disk2Card :=
  if now - (c.drive c.curr).motorOnCycle < motorOnUntilLssStableCycles then { c with latch := 0x80 }
  else
    let rand := c.rand * 1103515245 + 12345
    { c with rand := rand, latch := (rand >>> 16).setWidth 8 }

/-- The latch behind a read or a write of the nibble under the head. -/
def transfer (c : Disk2Card) (now : BitVec 64) : Disk2Card :=
  let d := c.drive c.curr
  if !c.writeMode then
    if d.spinning = 0 then c
    else
      let rd := now - c.lastReadLatch
      let nibble := d.disk.track.getD d.disk.byte 0
      if rd ≤ 6 then { c with latch := nibble >>> (8 - rd.toNat / 4) }
      else { c with latch := nibble, lastReadLatch := now }.modify c.curr Drive.advance
  else
    match d.disk.image with
    | none => c
    | some img =>
      if !img.protect then
        if d.spinning = 0 then c
        else c.modify c.curr fun d => (d.writeNibble c.latch).advance
      else c.modify c.curr Drive.advance

/-- `ReadWrite` (`$C08C`). -/
def readWrite (c : Disk2Card) (now : BitVec 64) : Disk2Card :=
  let disk := (c.drive c.curr).disk
  let c := if !disk.trackData ∧ disk.image.isSome then c.modify c.curr Drive.readTrack else c
  if !(c.drive c.curr).disk.trackData then c.noise now
  else
    let c :=
      if (c.drive c.curr).spinning ≠ 0 then
        { c with lastCycle := now }.modify c.curr (Drive.turn · (now - c.lastCycle))
      else c
    c.transfer now

/-- `$C08D`: the write-protect switch in the latch. -/
def loadWriteProtect (c : Disk2Card) : Disk2Card :=
  let d := c.drive c.curr
  if d.spinning = 0 then c
  else { c with latch := if d.disk.image.any Disk2Image.protect then 0xFF else 0x00 }

/-- `SetSequencerFunction`. -/
def setSequencer (c : Disk2Card) (addr : BitVec 16) : Disk2Card :=
  match (addr &&& 0xF).toNat with
  | 0xC => { c with loadMode := false }
  | 0xD => { c with loadMode := true }
  | 0xE => { c with writeMode := false }
  | 0xF => { c with writeMode := true }
  | _ => c

/-! ## Operations -/

/-- The switch at an address. -/
def switch (c : Disk2Card) (addr : BitVec 16) : Disk2Card :=
  match (addr &&& 0xF).toNat with
  | 0x8 | 0x9 => c.controlMotor addr c.now
  | 0xA | 0xB => c.enable addr c.now
  | 0xC => c.readWrite c.now
  | 0xD => c.loadWriteProtect
  | 0xE => c
  | 0xF => c.modify c.curr fun d => { d with writeLight := spinningCycles }
  | _ => c.controlStepper addr c.now

/-- `$C0n0-$C0nF`: a read answers with the latch, or with the floating bus (`none`). -/
def io (c : Disk2Card) (addr : BitVec 16) (wr : Option (BitVec 8)) (now : BitVec 64) :
    Disk2Card × Option (BitVec 8) :=
  let c := ((c.syncStepper now).setSequencer addr).switch addr
  match wr with
  | some v => (if c.writeMode ∧ c.loadMode then { c with latch := v } else c, some 0)
  | none => (c, if addr.getLsbD 0 then none else some c.latch)

/-- A drive as time passes. -/
def updateDrive (c : Disk2Card) (cycles : BitVec 64) (i : Bool) : Disk2Card :=
  let c := c.modify i (Drive.runDown · c.motorOn cycles)
  let c := c.modify i (Drive.shine · (c.writeMode && c.curr == i) cycles)
  if !c.motorOn ∧ (c.drive i).spinning = 0 then c.flush i else c

def update (c : Disk2Card) (now cycles : BitVec 64) : Disk2Card :=
  ((c.syncStepper now).updateDrive cycles false).updateDrive cycles true

/-- RESET turns the switches off; a power cycle also stops the drives. -/
def reset (c : Disk2Card) (powerCycle : Bool) : Disk2Card :=
  let c := { c with
    curr := false, motorOn := false, magnets := 0, writeMode := false, loadMode := false
    deferred := false }
  if powerCycle then
    let stop (c : Disk2Card) (i : Bool) : Disk2Card :=
      (c.flush i).modify i fun d => { d with spinning := 0, writeLight := 0, motorOnCycle := 0 }
    { stop (stop c false) true with lastCycle := 0, lastReadLatch := 0, now := 0 }
  else c

def ejectDisk (c : Disk2Card) (unit : ℕ) : Disk2Card × Option Disk2Image :=
  if unit ≠ 1 ∧ unit ≠ 2 then (c, none)
  else
    let i := unit == 2
    let c := c.flush i
    (c.modify i Drive.release, (c.drive i).disk.image)

def insert (c : Disk2Card) (drive : ℕ) (image : Option Disk2Image) :
    Disk2Card × Bool × Option Disk2Image :=
  let i := drive.testBit 0
  let taken := c.ejectDisk (drive % 2 + 1)
  (taken.1.modify i (Drive.load · image), image.isSome, taken.2)

/-- `image` is what `Disk2Image::open` makes of the file, before anything else is done. -/
def mountDisk (c : Disk2Card) (unit : ℕ) (image : Option Disk2Image) :
    Disk2Card × Bool × Option Disk2Image :=
  if unit ≠ 1 ∧ unit ≠ 2 then (c, false, none)
  else if image.isNone then (c, false, none)
  else c.insert (unit - 1) image

/-- What the destructor leaves of the drives' images. -/
def destroy (c : Disk2Card) : Disk2Card := (c.flush false).flush true

end Disk2Card

/-- What can be done to a card. -/
inductive Operation
  | io (addr : BitVec 16) (wr : Option (BitVec 8)) (now : BitVec 64)
  | update (now cycles : BitVec 64)
  | reset (powerCycle : Bool)
  | insert (drive : ℕ) (image : Option Disk2Image)
  | mount (unit : ℕ) (image : Option Disk2Image)
  | eject (unit : ℕ)

/-- The byte, or whether it succeeded, and the image that was taken out of a drive. -/
structure Answer where
  value : Option (BitVec 8) := none
  ok : Bool := true
  ejected : Option Disk2Image := none

def Disk2Card.step (c : Disk2Card) : Operation → Disk2Card × Answer
  | .io addr wr now => let done := c.io addr wr now; (done.1, { value := done.2 })
  | .update now cycles => (c.update now cycles, {})
  | .reset powerCycle => (c.reset powerCycle, {})
  | .insert drive image =>
    let done := c.insert drive image
    (done.1, { ok := done.2.1, ejected := done.2.2 })
  | .mount unit image =>
    let done := c.mountDisk unit image
    (done.1, { ok := done.2.1, ejected := done.2.2 })
  | .eject unit => let done := c.ejectDisk unit; (done.1, { ejected := done.2 })

end Mmemu.Source.Disk2
