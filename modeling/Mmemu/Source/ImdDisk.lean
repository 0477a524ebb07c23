import Mathlib.Data.BitVec
import Mmemu.Library.Framing
import Mmemu.Source.CbmImageDos

/-!
# ImageDisk files

Source: src/plugins/devices/ieee488/main/imd_disk.cpp and imd_disk.h. An image is
the list of its bytes; the path is left out, and whether the host lets the file
be written is an argument.
-/
namespace Mmemu.Source.Imd
open Mmemu.Library.Framing

abbrev Byte := BitVec 8

structure Sector where
  id : Byte
  cyl : Byte
  head : Byte
  type : Byte
  data : List Byte
  deriving DecidableEq, Repr

structure Track where
  mode : Byte
  cyl : Byte
  head : Byte
  sizeCode : Byte
  cylMap : Bool
  headMap : Bool
  sectors : List Sector
  deriving DecidableEq, Repr

structure ImdDisk where
  header : List Byte
  tracks : List Track
  writable : Bool
  deriving DecidableEq, Repr

/-- `128u << sizeCode` -/
def bytesPerSector (sizeCode : Byte) : ℕ := 128 <<< sizeCode.toNat

/-! ## Reading a file -/

/-- The record of a sector whose header is known. -/
def readRecord (size : ℕ) (s : Sector) : List Byte → Option (Sector × List Byte)
  | [] => none
  | type :: bytes =>
    if type = 0 then some ({ s with type := type }, bytes)
    else if 8 < type then none
    else if type.toNat % 2 = 0 then
      match bytes with
      | [] => none
      | fill :: bytes => some ({ s with type := type, data := List.replicate size fill }, bytes)
    else do
      let (data, bytes) ← take size bytes
      return ({ s with type := type, data := data }, bytes)

/-- The bytes of a map of the sectors, or the track's own byte for each. -/
def readMap (given : Bool) (n : ℕ) (own : Byte) (bytes : List Byte) : List Byte × List Byte :=
  if given then (bytes.take n, bytes.drop n) else (List.replicate n own, bytes)

def readTrack : List Byte → Option (Track × List Byte)
  | mode :: cyl :: hd :: n :: sizeCode :: bytes =>
    let n := n.toNat
    let head := hd &&& 1
    let cylMap := hd &&& 0x80 != 0
    let headMap := hd &&& 0x40 != 0
    if 6 < sizeCode then none
    else if bytes.length < n * (1 + cylMap.toNat + headMap.toNat) then none
    else do
      let (ids, bytes) := (bytes.take n, bytes.drop n)
      let (cyls, bytes) := readMap cylMap n cyl bytes
      let (heads, bytes) := readMap headMap n head bytes
      let headers := (ids.zip (cyls.zip heads)).map fun (id, cyl, head) =>
        { id := id, cyl := cyl, head := head, type := 1, data := [] }
      let (sectors, bytes) ← readEach (readRecord (bytesPerSector sizeCode)) headers bytes
      return ({ mode, cyl, head, sizeCode, cylMap, headMap, sectors }, bytes)
  | _ => none

/-- `ImdDisk::open`, for a file that can be read. -/
def openFile (writable : Bool) (d : List Byte) : Option ImdDisk :=
  if d.length < 4 ∨ d.take 3 ≠ [0x49, 0x4D, 0x44] then none
  else
    match d.dropWhile (· ≠ 0x1A) with
    | [] => none
    | _ :: bytes => do
      let tracks ← readAll readTrack bytes.length bytes
      return { header := d.takeWhile (· ≠ 0x1A), tracks := tracks, writable := writable }

/-! ## Writing it back -/

/-- The record of a sector: one byte of data when all are the same. -/
def record (s : Sector) : List Byte :=
  if s.type = 0 ∨ s.data.isEmpty then [0]
  else
    -- 0 plain, 2 deleted, 4 error, 6 both
    let base := (s.type - 1) &&& ~~~1
    if s.data.all (· = s.data.headD 0) then [base + 2, s.data.headD 0] else (base + 1) :: s.data

def trackBytes (t : Track) : List Byte :=
  [t.mode, t.cyl, t.head ||| (if t.cylMap then 0x80 else 0) ||| (if t.headMap then 0x40 else 0),
    BitVec.ofNat 8 t.sectors.length, t.sizeCode] ++
  t.sectors.map Sector.id ++
  (if t.cylMap then t.sectors.map Sector.cyl else []) ++
  (if t.headMap then t.sectors.map Sector.head else []) ++
  t.sectors.flatMap record

/-- The file that `ImdDisk::save` writes. -/
def image (d : ImdDisk) : List Byte := d.header ++ 0x1A :: d.tracks.flatMap trackBytes

/-- `ImdDisk::save`: whether the file was written. -/
def save (d : ImdDisk) (taken : Bool) : Bool := d.writable && taken

/-! ## Sectors -/

def track (d : ImdDisk) (cyl side : ℕ) : Option Track :=
  d.tracks.find? fun t => t.cyl.toNat = cyl ∧ t.head.toNat = side

def Track.sector (t : Track) (id : ℕ) : Option Sector := t.sectors.find? fun s => s.id.toNat = id

def sector (d : ImdDisk) (cyl side id : ℕ) : Option Sector :=
  (track d cyl side).bind fun t => t.sector id

/-- 0 when there is no such track. -/
def sectorSize (d : ImdDisk) (cyl side : ℕ) : ℕ :=
  ((track d cyl side).map fun t => bytesPerSector t.sizeCode).getD 0

/-- The first of a list that satisfies a test, changed in place. -/
def modifyFirst {α : Type*} (p : α → Bool) (f : α → α) : List α → List α
  | [] => []
  | a :: rest => if p a then f a :: rest else a :: modifyFirst p f rest

/-- A change of the sector that `sector` finds. -/
def modifySector (d : ImdDisk) (cyl side id : ℕ) (f : Sector → Sector) : ImdDisk :=
  { d with
    tracks := modifyFirst (fun t => t.cyl.toNat = cyl ∧ t.head.toNat = side)
      (fun t => { t with sectors := modifyFirst (fun s => s.id.toNat = id) f t.sectors }) d.tracks }

/-! ## Formatting -/

/-- The first free place from one on, round the track. -/
def firstFree (used : List Bool) (sectors : ℕ) : ℕ → ℕ → ℕ
  | 0, pos => pos
  | fuel + 1, pos =>
    if used.getD pos false then firstFree used sectors fuel ((pos + 1) % sectors) else pos

/-- The sectors of a track being laid out, the places used and the next one. -/
structure Layout where
  placed : List Sector
  used : List Bool
  pos : ℕ
  deriving DecidableEq, Repr

section Format

variable (sectors sizeCode firstSector interleave : ℕ) (fill : Byte) (table : List Byte)

/-- One turn of the loop over the sectors. -/
def place (logical head : Byte) (l : Layout) (i : ℕ) : Layout :=
  let pos := if sectors ≤ table.length then i else firstFree l.used sectors sectors l.pos
  let s : Sector :=
    { id := if sectors ≤ table.length then table.getD i 0 else BitVec.ofNat 8 (firstSector + i)
      cyl := logical
      head := head
      type := 1
      data := List.replicate (128 <<< sizeCode) fill }
  { placed := l.placed.set pos s, used := l.used.set pos true, pos := (pos + interleave) % sectors }

/-- The places before any sector is laid out. -/
def blank : Layout where
  placed := List.replicate sectors { id := 0, cyl := 0, head := 0, type := 1, data := [] }
  used := List.replicate sectors false
  pos := 0

def formatTrack (cyl logical : ℕ) (head : Byte) : Track where
  mode := 5
  cyl := BitVec.ofNat 8 cyl
  head := head
  sizeCode := BitVec.ofNat 8 sizeCode
  cylMap := BitVec.ofNat 8 logical != BitVec.ofNat 8 cyl
  headMap := false
  sectors := ((List.range sectors).foldl
    (place sectors sizeCode firstSector interleave fill table (BitVec.ofNat 8 logical) head)
    (blank sectors)).placed

end Format

/-- `ImdDisk::format`; the arguments are never negative. -/
def format (d : ImdDisk) (taken : Bool)
    (lastTrack sectors sizeCode firstSector interleave logicalTrack trackOffset : ℕ) (fill : Byte)
    (doubleSided : Bool) (side : ℕ) (table : List Byte) : Bool × ImdDisk :=
  if !d.writable ∨ sectors = 0 ∨ 64 < sectors ∨ 3 < sizeCode then (false, d)
  else
    let interleave := if interleave = 0 then 1 else interleave
    let cyls := (List.range' trackOffset (lastTrack + 1)).takeWhile (· < 256)
    let heads := [0, 1].filter fun h => doubleSided || h = side
    let tracks := cyls.flatMap fun cyl => heads.map fun h =>
      formatTrack sectors sizeCode firstSector interleave fill table cyl
        (logicalTrack + cyl - trackOffset) (BitVec.ofNat 8 h)
    let d := { d with tracks := tracks }
    (save d taken, d)

end Mmemu.Source.Imd

/-!
# Burst commands on an MFM disk

Source: src/plugins/devices/ieee488/main/cbm_image_dos.cpp and cbm_image_dos.h,
the commands of an image that `ImdDisk` holds. What they share with the other
images is in `CbmImageDos`; its `disk` is not used here.
-/
namespace Mmemu.Source.Imd
open Mmemu.Source.CbmDos (Bytes CbmImageDos CbmSectorDisk)

structure MfmDos (δ : Type) where
  dos : CbmImageDos δ
  mfm : ImdDisk
  bwSide : ℕ
  bwSize : ℕ

/-- `CbmImageDos::mfmStatus` -/
def mfmStatus (d : ImdDisk) (cyl side : ℕ) (controller : Byte) : Byte :=
  let t := track d cyl side
  -- nothing there: no address mark
  let controller := if t.isNone ∧ controller = 0 then 0x03 else controller
  let size : Byte := match t with
    | some t => t.sizeCode &&& 3
    | none => 1
  0x80 ||| size <<< 4 ||| controller &&& 0x0F

/-- What a sector becomes when data is written to it. -/
def Sector.store (data : List Byte) (s : Sector) : Sector :=
  { s with data := data, type := if s.type = 0 then 1 else s.type }

namespace MfmDos

variable {δ : Type} [CbmSectorDisk δ]

/-- `CbmImageDos::open` of a readable .imd file. -/
def openImage (d : MfmDos δ) (writable : Bool) (file : List Byte) : Option (MfmDos δ) := do
  let mfm ← openFile writable file
  return { d with mfm := mfm, dos := d.dos.reset }

/-- Queue a status byte for the disk and keep it. -/
def pushStatus (d : MfmDos δ) (cyl side : ℕ) (controller : Byte) : MfmDos δ :=
  { d with dos := d.dos.pushStatus (mfmStatus d.mfm cyl side controller) }

def burstRead (t side : ℕ) (noTransfer ignoreError : Bool) : ℕ → ℕ → MfmDos δ → MfmDos δ
  | 0, _, d => d
  | n + 1, s, d =>
    match (sector d.mfm t side s).filter fun sec => sec.type ≠ 0 with
    | none => d.pushStatus t side (if (track d.mfm t side).isSome then 0x02 else 0x03)
    | some sec =>
      let crc := 5 ≤ sec.type
      let d := d.pushStatus t side (if crc then 0x05 else 0)
      if crc ∧ !ignoreError then d
      else
        let d := if noTransfer then d
          else { d with dos := { d.dos with burstOut := d.dos.burstOut ++ sec.data } }
        burstRead t side noTransfer ignoreError n (s + 1) d

/-- The lowest sector number and its place, the highest, and the place of the one
after the lowest. -/
def sectorOrder (t : Track) : ℕ × ℕ × ℕ × Option ℕ :=
  let ids := t.sectors.zipIdx.map fun (s, i) => (s.id.toNat, i)
  let (lo, plo) := ids.foldl (fun (lo, plo) (id, i) => if id < lo then (id, i) else (lo, plo)) (255, 0)
  let hi := ids.foldl (fun hi (id, _) => max hi id) 0
  let pnext := ids.foldl (fun pnext (id, i) => if id = lo + 1 then some i else pnext) none
  (lo, plo, hi, pnext)

/-- The answer to QUERY DISK FORMAT for a track with sectors. -/
def trackReport (t : Track) : List Byte :=
  let (lo, plo, hi, pnext) := sectorOrder t
  let n := t.sectors.length
  let interleave := match pnext with
    | none => 1
    | some pnext => (pnext + n - plo) % n
  [BitVec.ofNat 8 n, (t.sectors.head?.map Sector.cyl).getD 0, BitVec.ofNat 8 lo, BitVec.ofNat 8 hi,
    BitVec.ofNat 8 interleave]

def queryFormat (d : MfmDos δ) (cyl side : ℕ) : MfmDos δ :=
  let d := { d with dos := { d.dos with loggedIn := true } }
  let st0 := mfmStatus d.mfm 0 side 0
  let d := d.pushStatus 0 side 0
  if st0 &&& 0x0E != 0 then d
  else
    match (track d.mfm cyl side).filter fun t => !t.sectors.isEmpty with
    | none => d.pushStatus cyl side 0x03
    | some t =>
      let d := d.pushStatus cyl side 0
      { d with dos := { d.dos with burstOut := d.dos.burstOut ++ trackReport t } }

/-- FORMAT; `b` begins with the command. -/
def formatDisk (d : MfmDos δ) (taken : Bool) (c : Byte) (side : ℕ) (b : Bytes) : MfmDos δ :=
  let operand (i : ℕ) (default : ℕ) : ℕ := (b[i]?.map BitVec.toNat).getD default
  let keep (d : MfmDos δ) (controller : Byte) : MfmDos δ :=
    { d with dos := { d.dos with burstLast := mfmStatus d.mfm 0 side controller } }
  let b1 := b.getD 1 0x80
  if b1 &&& 0x80 = 0 then keep d 0x06
  else if !d.mfm.writable then keep d 0x08
  else
    let sizeCode := operand 3 1 % 4
    let sectors := operand 5 ([26, 16, 9, 5].getD sizeCode 0)
    let table := if b1 &&& 0x40 != 0 then (b.drop 9).take sectors else []
    let (ok, mfm) := format d.mfm taken (operand 4 39) sectors sizeCode (b1 &&& 0x3F).toNat
      (operand 2 0) (operand 6 0) (operand 7 0) (b.getD 8 0xE5) (c &&& 0x20 != 0) side table
    let d := keep { d with mfm := mfm } (if ok then 0 else 0x06)
    { d with dos := { d.dos with loggedIn := false } }

/-- `CbmImageDos::mfmBurst`; `none` for the commands that are as on other disks. -/
def mfmBurst (d : MfmDos δ) (taken : Bool) (b : Bytes) : Option (MfmDos δ) :=
  let operand (i : ℕ) (default : ℕ) : ℕ := (b[i]?.map BitVec.toNat).getD default
  let c := b.getD 0 0
  let side := (c >>> 4 &&& 1).toNat
  match (c >>> 1 &&& 7).toNat with
  | 0 => some (burstRead (operand 1 0) side (c &&& 0x80 != 0) (c &&& 0x40 != 0) (operand 3 1)
      (operand 2 1) d)
  | 1 =>
    let size := sectorSize d.mfm (operand 1 0) side
    some { d with
      dos := { d.dos with bwTrack := operand 1 0, bwSector := operand 2 1, bwLeft := operand 3 1
                          bwBuf := [] }
      bwSide := side
      bwSize := if size = 0 then 256 else size }
  | 2 => some ({ d with dos := { d.dos with loggedIn := true } }.pushStatus 0 side 0)
  | 3 => some (d.formatDisk taken c side b)
  | 5 => some (d.queryFormat (if c &&& 0x80 != 0 then operand 1 0 else 0) side)
  | _ => none

/-- `CbmImageDos::burst` -/
def burst (d : MfmDos δ) (taken : Bool) (b : Bytes) : MfmDos δ :=
  let d := { d with dos := { d.dos with burstOut := [], bwLeft := 0 }, bwSize := 256 }
  if b.isEmpty then { d with dos := d.dos.burst b }
  else if (b.getD 0 0 >>> 1 &&& 7) ≤ 1 ∧ !d.dos.loggedIn then
    let d := d.pushStatus 0 0 0x0B
    { d with dos := d.dos.setError 0 " OK" }
  else
    match d.mfmBurst taken b with
    | some d => { d with dos := d.dos.setError 0 " OK" }
    | none => { d with dos := d.dos.burst b }

/-- A byte of a sector, and whether the sector is complete. -/
def burstWriteByte (d : MfmDos δ) (b : Byte) : Bool × MfmDos δ :=
  if d.dos.bwLeft ≤ 0 then (false, d)
  else
    let d := { d with dos := { d.dos with bwBuf := d.dos.bwBuf ++ [b] } }
    (d.bwSize ≤ d.dos.bwBuf.length, d)

def burstFinishSector (d : MfmDos δ) (taken : Bool) : MfmDos δ :=
  if d.dos.bwLeft ≤ 0 then d
  else
    let (status, mfm) : Byte × ImdDisk :=
      if (sector d.mfm d.dos.bwTrack d.bwSide d.dos.bwSector).isNone ∨
          d.dos.bwBuf.length < d.bwSize then (0x02, d.mfm)
      else if !d.mfm.writable then (0x08, d.mfm)
      else
        let mfm := modifySector d.mfm d.dos.bwTrack d.bwSide d.dos.bwSector (Sector.store d.dos.bwBuf)
        (if save mfm taken then 0 else 0x07, mfm)
    let d := { d with mfm := mfm }.pushStatus d.dos.bwTrack d.bwSide status
    { d with
      dos := { d.dos with
        bwBuf := []
        bwSector := d.dos.bwSector + 1
        bwLeft := if d.dos.bwLeft - 1 < 0 ∨ status ≠ 0 then 0 else d.dos.bwLeft - 1 } }

/-! ## A session -/

/-- Bytes of one sector as the drive passes them on: from the one that completes the
sector it takes no more, and the computer's clock ends the sector. -/
def sendSector (taken : Bool) : Bytes → MfmDos δ → MfmDos δ
  | [], d => d
  | b :: rest, d =>
    let (complete, d) := d.burstWriteByte b
    if complete then d.burstFinishSector taken else sendSector taken rest d

/-- What the drive passes to its DOS; `taken` says whether the host lets the file
be written. -/
inductive Event where
  | command (b : Bytes) (taken : Bool)
  | sector (bytes : Bytes) (taken : Bool)
  | cancel
  | reset
  deriving DecidableEq, Repr

def step (d : MfmDos δ) : Event → MfmDos δ
  | .command b taken => d.burst taken b
  | .sector bytes taken => sendSector taken bytes d
  | .cancel => { d with dos := d.dos.burstCancel }
  | .reset => { d with dos := d.dos.reset }

def run (d : MfmDos δ) (events : List Event) : MfmDos δ := events.foldl step d

end MfmDos

end Mmemu.Source.Imd
