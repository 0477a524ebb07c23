import Mathlib.Data.BitVec
import Mathlib.Data.List.Basic
import Mathlib.Logic.Function.Basic
import Mmemu.Library.Literals

/-!
# Commodore DOS on a disk image

Source: src/plugins/devices/ieee488/main/cbm_image_dos.cpp, cbm_image_dos.h and cbm_dos.h, for
an image of a Commodore disk (D64, D71, D80, D81, D82); an MFM image holds no files. The disk
behind it is what `CbmSectorDisk` offers. A `std::string` is the list of its bytes.
-/
namespace Mmemu.Source.CbmDos

abbrev Byte := BitVec 8

abbrev Bytes := List Byte

def chr (c : Char) : Byte := BitVec.ofNat 8 c.toNat

def str (s : String) : Bytes := s.toList.map chr

structure CbmDirEntry where
  filename : Bytes
  type : Byte
  sizeBlocks : BitVec 16
  deriving DecidableEq, Repr

/-- The operations of a disk image; a sector has 256 bytes. -/
class CbmSectorDisk (δ : Type) where
  getDirectory : δ → List CbmDirEntry
  readFile : δ → Bytes → Option Bytes
  getDiskName : δ → Bytes
  getDiskId : δ → Bytes
  getDosType : δ → Bytes
  getFreeBlocks : δ → BitVec 16
  size : δ → ℕ
  byteAt : δ → ℕ → Byte
  sectorOffset : δ → ℕ → ℕ → Option ℕ
  writable : δ → Bool
  writeSector : δ → ℕ → ℕ → Bytes → Bool × δ
  formatSectors : δ → Bool × δ
  writeFile : δ → Bytes → ℕ → Bytes → Bool → ℕ × δ
  scratch : δ → Bytes → ℕ × δ
  rename : δ → Bytes → Bytes → ℕ × δ

structure Channel where
  data : Bytes
  pos : ℕ
  opened : Bool
  buffer : Bool
  writing : Bool
  replace : Bool
  wname : Bytes
  wtype : ℕ
  buf : Byte → Byte
  ptr : Byte
  last : Byte

/-- `Channel{}` -/
def Channel.closed : Channel where
  data := []
  pos := 0
  opened := false
  buffer := false
  writing := false
  replace := false
  wname := []
  wtype := 2
  buf := fun _ => 0
  ptr := 0
  last := 255

structure CbmImageDos (δ : Type) where
  disk : δ
  unit : ℕ
  listening : Bool
  talking : Bool
  opening : Bool
  active : Bool
  channel : Fin 16
  name : Bytes
  cmd : Bytes
  ch : Fin 16 → Channel
  error : Bytes
  errorPos : ℕ
  burstOut : Bytes
  fastload : Bytes
  fastloadPending : Bool
  bwLeft : ℤ
  bwTrack : ℕ
  bwSector : ℕ
  bwBuf : Bytes
  burstLast : Byte
  loggedIn : Bool
  burstInterleave : ℕ

/-- `%02d` -/
def twoDigits (n : ℕ) : Bytes :=
  let digits := (Nat.toDigits 10 n).map chr
  List.replicate (2 - digits.length) (chr '0') ++ digits

def isDigit (c : Byte) : Bool := chr '0' ≤ c && c ≤ chr '9'

/-- The numbers in a text after one begun with, whatever separates them. -/
def numbersFrom : Option ℕ → Bytes → List ℕ
  | cur, [] => cur.toList
  | cur, c :: rest =>
    if isDigit c then numbersFrom (some (cur.getD 0 * 10 + (c - chr '0').toNat)) rest
    else cur.toList ++ numbersFrom none rest

def numbers (s : Bytes) : List ℕ := numbersFrom none s

def startsWith (s : Bytes) (start : String) : Bool := (str start).isPrefixOf s

/-- `find` gives a position. -/
def contains (s : Bytes) (part : String) : Bool := s.tails.any (startsWith · part)

/-- What follows the first `c`, if there is one. -/
def after (c : Char) (s : Bytes) : Option Bytes :=
  match s.dropWhile (· != chr c) with
  | [] => none
  | _ :: rest => some rest

/-- Without a drive prefix `0:`. -/
def dropDrive (s : Bytes) : Bytes :=
  if 2 ≤ s.length && s.getD 1 0 == chr ':' && isDigit (s.getD 0 0) then s.drop 2 else s

/-- Without `0:` or a colon alone. -/
def dropPrefix (s : Bytes) : Bytes :=
  if 2 ≤ s.length && s.getD 1 0 == chr ':' && isDigit (s.getD 0 0) then s.drop 2
  else if s.head? == some (chr ':') then s.drop 1
  else s

/-- CBM wildcards: `*` ends the comparison, `?` matches one character. -/
def wildcard : Bytes → Bytes → Bool
  | [], name => name.isEmpty
  | p :: pattern, name =>
    if p == chr '*' then true
    else match name with
      | [] => false
      | c :: name => (p == chr '?' || p == c) && wildcard pattern name

/-- The channel a secondary address names. -/
def channelOf (a : Byte) : Fin 16 := Fin.ofNat 16 a.toNat

namespace CbmImageDos
variable {δ : Type} [CbmSectorDisk δ]

def setError (d : CbmImageDos δ) (code : ℕ) (text : String) (track : ℕ := 0) (sector : ℕ := 0) :
    CbmImageDos δ :=
  { d with
    error := twoDigits code ++ str "," ++ str text ++ str "," ++ twoDigits track ++ str "," ++
      twoDigits sector ++ str "\r"
    errorPos := 0 }

def reset (d : CbmImageDos δ) : CbmImageDos δ :=
  { d with
    ch := fun _ => .closed
    listening := false, talking := false, opening := false, active := false
    name := [], cmd := []
    bwLeft := 0
    burstLast := 0x10
    loggedIn := false
    burstInterleave := 5 }.setError 0 " OK"

def dosResult (d : CbmImageDos δ) (code : ℕ) (track : ℕ := 0) : CbmImageDos δ :=
  match code with
  | 0 => d.setError 0 " OK"
  | 1 => d.setError 1 "FILES SCRATCHED" track
  | 25 => d.setError 25 "WRITE ERROR"
  | 26 => d.setError 26 "WRITE PROTECT ON"
  | 33 => d.setError 33 "SYNTAX ERROR"
  | 62 => d.setError 62 "FILE NOT FOUND"
  | 63 => d.setError 63 "FILE EXISTS"
  | 72 => d.setError 72 "DISK FULL"
  | code => d.setError code "ERROR"

/-! ## The directory -/

/-- One BASIC line after what is there: the link to the next, the number and the text. -/
def directoryLine (state : BitVec 16 × Bytes) (number : BitVec 16) (text : Bytes) :
    BitVec 16 × Bytes :=
  let next := state.1 + BitVec.ofNat 16 (2 + 2 + text.length + 1)
  (next, state.2 ++ [next.setWidth 8, (next >>> 8).setWidth 8, number.setWidth 8,
    (number >>> 8).setWidth 8] ++ text ++ [0])

def types : List String := ["DEL", "SEQ", "PRG", "USR", "REL"]

def entryText (e : CbmDirEntry) : Bytes :=
  let indent := if e.sizeBlocks < 10 then "   " else if e.sizeBlocks < 100 then "  "
    else if e.sizeBlocks < 1000 then " " else ""
  str indent ++ str "\"" ++ e.filename ++ str "\"" ++
    List.replicate (16 - min 16 e.filename.length) (chr ' ') ++
    [if e.type &&& 0x80 != 0 then chr ' ' else chr '*'] ++
    str (types.getD (e.type &&& 0x07).toNat "???") ++
    (if e.type &&& 0x40 != 0 then str "<" else [])

def directory (d : CbmImageDos δ) (pattern : Bytes) : Bytes :=
  let addr : BitVec 16 := 0x0401
  let name := (CbmSectorDisk.getDiskName d.disk ++ List.replicate 16 (chr ' ')).take 16
  let header := [0x12] ++ str "\"" ++ name ++ str "\" " ++ CbmSectorDisk.getDiskId d.disk ++
    str " " ++ CbmSectorDisk.getDosType d.disk
  let shown := (CbmSectorDisk.getDirectory d.disk).filter fun e =>
    pattern.isEmpty || wildcard pattern e.filename
  let entries := shown.foldl (fun state e => directoryLine state e.sizeBlocks (entryText e))
    (directoryLine (addr, [addr.setWidth 8, (addr >>> 8).setWidth 8]) 0 header)
  (directoryLine entries (CbmSectorDisk.getFreeBlocks d.disk) (str "BLOCKS FREE.             ")).2
    ++ [0, 0]

/-! ## Direct access -/

/-- The 256 bytes at an offset of the image. -/
def block (disk : δ) (offset : ℕ) : Bytes :=
  (List.range 256).map fun i => CbmSectorDisk.byteAt disk (offset + i)

/-- A sector that lies in the image. -/
def sectorIn (disk : δ) (track sector : ℕ) : Option ℕ :=
  match CbmSectorDisk.sectorOffset disk track sector with
  | some offset => if offset + 256 ≤ CbmSectorDisk.size disk then some offset else none
  | none => none

/-- The buffer channel a block command names. -/
def bufferChannel (d : CbmImageDos δ) (n : ℕ) : Option (Fin 16) :=
  if n > 14 then none
  else if (d.ch (Fin.ofNat 16 n)).buffer then some (Fin.ofNat 16 n)
  else none

/-- Change one channel. -/
def setCh (d : CbmImageDos δ) (k : Fin 16) (c : Channel) : CbmImageDos δ :=
  { d with ch := Function.update d.ch k c }

def blockRead (d : CbmImageDos δ) (args : Bytes) (u1 : Bool) : CbmImageDos δ :=
  match numbers args with
  | chn :: _ :: t :: sec :: _ =>
    match d.bufferChannel chn with
    | none => d.setError 70 "NO CHANNEL"
    | some k =>
      match sectorIn d.disk t sec with
      | none => d.setError 66 "ILLEGAL TRACK OR SECTOR" t sec
      | some offset =>
        let bytes := block d.disk offset
        let c := { d.ch k with buf := fun i => bytes.getD i.toNat 0 }
        let c := if u1 then { c with ptr := 0, last := 255 }
          else { c with ptr := 1, last := if c.buf 0 = 0 then 255 else c.buf 0 }
        (d.setCh k c).setError 0 " OK"
  | _ => d.setError 30 "SYNTAX ERROR"

def blockWrite (d : CbmImageDos δ) (args : Bytes) (u2 : Bool) : CbmImageDos δ :=
  match numbers args with
  | chn :: _ :: t :: sec :: _ =>
    match d.bufferChannel chn with
    | none => d.setError 70 "NO CHANNEL"
    | some k =>
      if (CbmSectorDisk.sectorOffset d.disk t sec).isNone then
        d.setError 66 "ILLEGAL TRACK OR SECTOR" t sec
      else if !CbmSectorDisk.writable d.disk then d.setError 26 "WRITE PROTECT ON" t sec
      else
        let c := d.ch k
        let c := if u2 then c else { c with buf := Function.update c.buf 0 c.ptr }
        let d := d.setCh k c
        let (written, disk) := CbmSectorDisk.writeSector d.disk t sec
          ((List.range 256).map fun i => c.buf (BitVec.ofNat 8 i))
        let d := { d with disk := disk }
        if written then d.setError 0 " OK" else d.setError 25 "WRITE ERROR" t sec
  | _ => d.setError 30 "SYNTAX ERROR"

def bufferPointer (d : CbmImageDos δ) (args : Bytes) : CbmImageDos δ :=
  match numbers args with
  | chn :: value :: _ =>
    match d.bufferChannel chn with
    | none => d.setError 70 "NO CHANNEL"
    | some k =>
      (d.setCh k { d.ch k with ptr := BitVec.ofNat 8 value, last := 255 }).setError 0 " OK"
  | _ => d.setError 30 "SYNTAX ERROR"

/-! ## Burst commands -/

def burstStatus (controller : Byte) : Byte := 0x10 ||| controller &&& 0x0F

/-- The sectors of a track, counted until one is out of range. -/
def sectorsOf (disk : δ) (track : ℕ) : ℕ :=
  ((List.range 64).takeWhile fun s => (CbmSectorDisk.sectorOffset disk track s).isSome).length

def nextBurstSector (d : CbmImageDos δ) (track sector : ℕ) : ℕ :=
  let spt := sectorsOf d.disk track
  if spt = 0 then 0 else (sector + d.burstInterleave) % spt

/-- Queue a status byte and keep it. -/
def pushStatus (d : CbmImageDos δ) (status : Byte) : CbmImageDos δ :=
  { d with burstOut := d.burstOut ++ [status], burstLast := status }

def burstRead (t : ℕ) (noTransfer : Bool) : ℕ → ℕ → CbmImageDos δ → CbmImageDos δ
  | 0, _, d => d
  | n + 1, s, d =>
    match sectorIn d.disk t s with
    | none => d.pushStatus (burstStatus 0x02)
    | some offset =>
      let d := d.pushStatus (burstStatus 0)
      let d := if noTransfer then d else { d with burstOut := d.burstOut ++ block d.disk offset }
      burstRead t noTransfer n (d.nextBurstSector t s) d

def burstUtility (d : CbmImageDos δ) (a : Bytes) : CbmImageDos δ :=
  match a with
  | [] => d.setError 31 "SYNTAX ERROR"
  | u :: _ =>
    if u ∈ str "SRTMH" then d.setError 0 " OK"
    else if 4 ≤ u ∧ u ≤ 30 then { d with unit := u.toNat }.setError 0 " OK"
    else d.setError 31 "SYNTAX ERROR"

def burst (d : CbmImageDos δ) (b : Bytes) : CbmImageDos δ :=
  let d := { d with burstOut := [], bwLeft := 0 }
  match b with
  | [] => { d with burstOut := d.burstOut ++ [burstStatus 0x0E] }
  | c :: args =>
    -- `at(i, def)` with `i` counted from 1
    let operand (i : ℕ) (default : ℕ) : ℕ := (args[i - 1]?.map BitVec.toNat).getD default
    if (c >>> 1 &&& 7) ≤ 1 ∧ !d.loggedIn then (d.pushStatus (burstStatus 0x0B)).setError 0 " OK"
    else match (c >>> 1 &&& 7).toNat with
      | 0 => (burstRead (operand 1 1) (c &&& 0x80 != 0) (operand 3 1) (operand 2 0) d).setError 0 " OK"
      | 1 =>
        { d with
          bwTrack := operand 1 1, bwSector := operand 2 0, bwLeft := operand 3 1
          bwBuf := [] }.setError 0 " OK"
      | 2 | 5 => ({ d with loggedIn := true }.pushStatus (burstStatus 0)).setError 0 " OK"
      | 3 =>
        let d :=
          if (args.head?.getD 0) &&& 0x80 != 0 then { d with burstLast := burstStatus 0x06 }
          else if !CbmSectorDisk.writable d.disk then { d with burstLast := burstStatus 0x08 }
          else
            let (formatted, disk) := CbmSectorDisk.formatSectors d.disk
            { d with disk := disk, burstLast := burstStatus (if formatted then 0 else 0x06) }
        { d with loggedIn := false }.setError 0 " OK"
      | 4 =>
        (if c &&& 0x80 != 0 then
          { d with burstOut := d.burstOut ++ [BitVec.ofNat 8 d.burstInterleave] }
        else { d with burstInterleave := operand 1 d.burstInterleave }).setError 0 " OK"
      | 6 =>
        (if c &&& 0x80 = 0 then
          let d := { d with burstLast := args.head?.getD d.burstLast }
          if c &&& 0x40 != 0 then { d with loggedIn := true } else d
        else if c &&& 0x40 != 0 ∧ !d.loggedIn then
          { d with burstOut := d.burstOut ++ [burstStatus 0x0B] }
        else { d with burstOut := d.burstOut ++ [d.burstLast] }).setError 0 " OK"
      | _ =>
        if c &&& 0x1F = 0x1F then
          { d with fastload := args, fastloadPending := true }.setError 0 " OK"
        else if c &&& 0x10 != 0 then d.burstUtility args
        else { d with burstOut := d.burstOut ++ [burstStatus 0x0E] }.setError 0 " OK"

def burstWriting (d : CbmImageDos δ) : Bool := 0 < d.bwLeft

/-- A byte of burst write data, and whether the sector is complete. -/
def burstWriteByte (d : CbmImageDos δ) (b : Byte) : Bool × CbmImageDos δ :=
  if d.bwLeft ≤ 0 then (false, d)
  else
    let d := { d with bwBuf := d.bwBuf ++ [b] }
    (256 ≤ d.bwBuf.length, d)

def burstFinishSector (d : CbmImageDos δ) : CbmImageDos δ :=
  if d.bwLeft ≤ 0 then d
  else
    let (status, disk) : Byte × δ :=
      if d.bwBuf.length < 256 ∨ (CbmSectorDisk.sectorOffset d.disk d.bwTrack d.bwSector).isNone then
        (0x02, d.disk)
      else if !CbmSectorDisk.writable d.disk then (0x08, d.disk)
      else
        let (written, disk) := CbmSectorDisk.writeSector d.disk d.bwTrack d.bwSector (d.bwBuf.take 256)
        (if written then 0 else 0x07, disk)
    let d := { d with disk := disk }.pushStatus (burstStatus status)
    { d with
      bwBuf := []
      bwSector := d.nextBurstSector d.bwTrack d.bwSector
      bwLeft := if d.bwLeft - 1 < 0 ∨ status ≠ 0 then 0 else d.bwLeft - 1 }

def burstCancel (d : CbmImageDos δ) : CbmImageDos δ := { d with burstOut := [], bwLeft := 0 }

/-- The name of a burst fastload to serve. -/
def takeFastload (d : CbmImageDos δ) : Option Bytes × CbmImageDos δ :=
  if d.fastloadPending then (some d.fastload, { d with fastloadPending := false }) else (none, d)

/-! ## The command channel -/

/-- Scratch each pattern of a list and count the files. -/
def scratchAll : List Bytes → ℕ → CbmImageDos δ → ℕ × CbmImageDos δ
  | [], total, d => (total, d)
  | pat :: rest, total, d =>
    if (dropDrive pat).isEmpty then scratchAll rest total d
    else
      let (n, disk) := CbmSectorDisk.scratch d.disk (dropDrive pat)
      scratchAll rest (total + n) { d with disk := disk }

def dropLineEnds (s : Bytes) : Bytes :=
  (s.reverse.dropWhile fun c => c == chr '\r' || c == chr '\n').reverse

def command (d : CbmImageDos δ) (raw : Bytes) : CbmImageDos δ :=
  if 2 < raw.length && startsWith raw "U0" then d.burst (raw.drop 2)
  else
    let cmd := dropLineEnds raw
    match cmd with
    | [] => d
    | c :: _ =>
      if c = chr 'I' || startsWith cmd "UJ" || startsWith cmd "UI" || startsWith cmd "U9" then
        d.setError 0 " OK"
      else if startsWith cmd "U1" || startsWith cmd "UA" then d.blockRead (cmd.drop 2) true
      else if startsWith cmd "B-R" then d.blockRead (cmd.drop 3) false
      else if startsWith cmd "B-P" then d.bufferPointer (cmd.drop 3)
      else if startsWith cmd "U2" || startsWith cmd "UB" then d.blockWrite (cmd.drop 2) true
      else if startsWith cmd "B-W" then d.blockWrite (cmd.drop 3) false
      else match after ':' cmd with
        | some arg =>
          if (c = chr 'S' || c = chr 'R') && !startsWith cmd "S-" then
            if !CbmSectorDisk.writable d.disk then d.setError 26 "WRITE PROTECT ON"
            else if c = chr 'S' then
              let (total, d) := scratchAll (arg.splitOn (chr ',')) 0 d
              d.dosResult 1 total
            else match after '=' arg with
              | none => d.setError 30 "SYNTAX ERROR"
              | some source =>
                let (code, disk) := CbmSectorDisk.rename d.disk (arg.takeWhile (· != chr '='))
                  (dropDrive source)
                { d with disk := disk }.dosResult code
          else if c = chr 'N' || c = chr 'C' || c = chr 'V' || startsWith cmd "M-W" then
            d.setError 26 "WRITE PROTECT ON"
          else d.setError 31 "SYNTAX ERROR"
        | none =>
          if c = chr 'N' || c = chr 'C' || c = chr 'V' || startsWith cmd "M-W" then
            d.setError 26 "WRITE PROTECT ON"
          else d.setError 31 "SYNTAX ERROR"

/-! ## Channels -/

/-- The name, its options and whether it replaces, as a channel is opened for writing. -/
def openWrite (d : CbmImageDos δ) (k : Fin 16) (name opts : Bytes) (append : Bool) :
    CbmImageDos δ :=
  if !CbmSectorDisk.writable d.disk then (d.setCh k .closed).setError 26 "WRITE PROTECT ON"
  else
    let replace := name.head? == some (chr '@')
    let name := if replace then dropPrefix (name.drop 1) else name
    let type := if k = 1 then 2 else 1
    let type := if contains opts ",P" then 2 else type
    let type := if contains opts ",U" then 3 else type
    let type := if contains opts ",S" then 1 else type
    let c : Channel :=
      { Channel.closed with
        opened := true, writing := true
        replace := replace || append
        wname := name, wtype := type }
    if append then
      match CbmSectorDisk.readFile d.disk name with
      | none => (d.setCh k .closed).setError 62 "FILE NOT FOUND"
      | some data => (d.setCh k { c with data := data }).setError 0 " OK"
    else if (CbmSectorDisk.getDirectory d.disk).any fun e =>
        e.filename == name && e.type &&& 0x07 != 0 && !replace then
      (d.setCh k .closed).setError 63 "FILE EXISTS"
    else (d.setCh k c).setError 0 " OK"

/-- The first entry that matches and is not deleted; the file is then read by its name. -/
def openRead (d : CbmImageDos δ) (k : Fin 16) (name : Bytes) : CbmImageDos δ :=
  let found := (CbmSectorDisk.getDirectory d.disk).find? fun e =>
    wildcard name e.filename && e.type &&& 0x07 != 0
  match found.bind fun e => CbmSectorDisk.readFile d.disk e.filename with
  | some data => (d.setCh k { Channel.closed with opened := true, data := data }).setError 0 " OK"
  | none => (d.setCh k .closed).setError 62 "FILE NOT FOUND"

def openChannel (d : CbmImageDos δ) (k : Fin 16) (spec : Bytes) : CbmImageDos δ :=
  if k = 15 then
    let d := d.setCh k .closed
    if spec.isEmpty then d else d.command spec
  else if spec.head? == some (chr '#') then
    (d.setCh k { Channel.closed with opened := true, buffer := true, ptr := 1, last := 255 }).setError
      0 " OK"
  else
    let s := dropPrefix spec
    if s.head? == some (chr '$') then
      let pattern := (after ':' s).getD []
      (d.setCh k { Channel.closed with opened := true, data := d.directory pattern }).setError 0 " OK"
    else
      let name := s.takeWhile (· != chr ',')
      let opts := s.dropWhile (· != chr ',')
      let append := contains opts ",A"
      if k = 1 || contains opts ",W" || append || name.head? == some (chr '@') then
        d.openWrite k name opts append
      else d.openRead k name

/-- A file being written goes to the disk. -/
def closeChannel (d : CbmImageDos δ) (k : Fin 16) : CbmImageDos δ :=
  let c := d.ch k
  if c.writing then
    let (code, disk) := CbmSectorDisk.writeFile d.disk c.wname c.wtype c.data c.replace
    ({ d with disk := disk }.dosResult code).setCh k .closed
  else d.setCh k .closed

/-! ## The bus calls -/

/-- `-1` handled, `-2` not for this unit. -/
def listen (d : CbmImageDos δ) (a : Byte) : ℤ × CbmImageDos δ :=
  if (a &&& 0x1F).toNat ≠ d.unit then (-2, d)
  else (-1, { d with listening := true, active := true })

def talk (d : CbmImageDos δ) (a : Byte) : ℤ × CbmImageDos δ :=
  if (a &&& 0x1F).toNat ≠ d.unit then (-2, d)
  else (-1, { d with talking := true, active := true })

def second (d : CbmImageDos δ) (a : Byte) : ℤ × CbmImageDos δ :=
  if !d.listening then (-2, d)
  else
    let d := { d with channel := channelOf a, opening := false }
    if a &&& 0xF0 = 0xE0 then (-1, d.closeChannel d.channel)
    else if a &&& 0xF0 = 0xF0 then (-1, { d with opening := true, name := [] })
    else (-1, d)

def tksa (d : CbmImageDos δ) (a : Byte) : ℤ × CbmImageDos δ :=
  if !d.talking then (-2, d) else (-1, { d with channel := channelOf a })

def ciout (d : CbmImageDos δ) (a : Byte) : ℤ × CbmImageDos δ :=
  if !d.listening then (-2, d)
  else if d.opening then (0, if d.name.length < 80 then { d with name := d.name ++ [a] } else d)
  else if d.channel = 15 then
    let binary := startsWith d.cmd "U0"
    if a = chr '\r' ∧ !binary then (0, { d.command d.cmd with cmd := [] })
    else (0, if d.cmd.length < 80 then { d with cmd := d.cmd ++ [a] } else d)
  else
    let c := d.ch d.channel
    if c.writing then (0, d.setCh d.channel { c with data := c.data ++ [a] })
    else if c.buffer then
      (0, d.setCh d.channel { c with buf := Function.update c.buf c.ptr a, ptr := c.ptr + 1 })
    else if !CbmSectorDisk.writable d.disk then (0, d.setError 26 "WRITE PROTECT ON")
    else (0, d)

def unlsn (d : CbmImageDos δ) : ℤ × CbmImageDos δ :=
  if !d.listening then (-2, d)
  else
    let d := { d with listening := false, active := false }
    if d.opening then (-1, { d with opening := false }.openChannel d.channel d.name)
    else if d.channel = 15 ∧ !d.cmd.isEmpty then (-1, { d.command d.cmd with cmd := [] })
    else (-1, d)

/-- A byte with its status: `0x40` the last one, `0x42` nothing to read. -/
def acptr (d : CbmImageDos δ) : ℤ × Byte × CbmImageDos δ :=
  if !d.talking then (-2, 0, d)
  else if d.channel = 15 then
    let a := d.error.getD d.errorPos 0
    let d := { d with errorPos := d.errorPos + 1 }
    if d.error.length ≤ d.errorPos then (0x40, a, d.setError 0 " OK") else (0, a, d)
  else
    let c := d.ch d.channel
    if c.buffer then
      (if c.ptr = c.last then 0x40 else 0, c.buf c.ptr, d.setCh d.channel { c with ptr := c.ptr + 1 })
    else if !c.opened ∨ c.data.length ≤ c.pos then (0x42, 0, d)
    else
      (if c.pos + 1 = c.data.length then 0x40 else 0, c.data.getD c.pos 0,
        d.setCh d.channel { c with pos := c.pos + 1 })

def untlk (d : CbmImageDos δ) : ℤ × CbmImageDos δ :=
  if !d.talking then (-2, d) else (-1, { d with talking := false, active := false })

end CbmImageDos

end Mmemu.Source.CbmDos
