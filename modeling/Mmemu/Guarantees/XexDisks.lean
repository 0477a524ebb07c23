import Mathlib.Data.List.GetD
import Mmemu.Guarantees.SioStore

/-!
# XEX boot disks

An executable's segments, read from the file on the one side and by the boot loader's rules from
the disk made of it on the other.
-/
namespace Mmemu.Guarantees.XexDisks
open Mmemu.Library.Splice Mmemu.Source Mmemu.Source.Sio Mmemu.Guarantees.SioStore

/-- Bytes for the memory from an address on. -/
structure Segment where
  start : BitVec 16
  data : List Byte
  deriving DecidableEq, Repr

/-- The segments of an executable: $FFFF markers between them are dropped, and what the file ends
within is cut to the bytes that are there. -/
def segments : List Byte → List Segment
  | s0 :: s1 :: e0 :: e1 :: rest =>
    if word s0 s1 = 0xFFFF then segments (e0 :: e1 :: rest)
    else
      let len := (word e0 e1).toNat + 1 - (word s0 s1).toNat
      if rest = [] then []
      else ⟨word s0 s1, rest.take len⟩ :: segments (rest.drop len)
  | _ => []
termination_by bytes => bytes.length

/-- The segments of a stream by the loader's rules, up to the $FFFF that ends it, and what follows
that; `none` when the stream ends before. -/
def loaded : List Byte → Option (List Segment × List Byte)
  | s0 :: s1 :: e0 :: e1 :: rest =>
    if word s0 s1 = 0xFFFF then some ([], rest)
    else
      let len := (word e0 e1 - word s0 s1).toNat + 1
      if rest.length < len then none
      else (loaded (rest.drop len)).map fun more => (⟨word s0 s1, rest.take len⟩ :: more.1, more.2)
  | _ => none
termination_by bytes => bytes.length
decreasing_by
  simp only [List.length_drop, List.length_cons]
  omega

/-- The sectors that the loader reads, from 4 on, by a 16-bit number. -/
def dataSectors (img : AtrImage) : List Byte :=
  (List.range (img.sectorCount - 3)).flatMap fun i => (img.read (BitVec.ofNat 16 (4 + i)).toNat).getD []

/-- A segment that has a byte, does not start at $FFFF and stays below $10000. -/
structure Loadable (seg : Segment) : Prop where
  some_ : seg.data ≠ []
  start : seg.start ≠ 0xFFFF
  room : seg.start.toNat + seg.data.length ≤ 2 ^ 16

/-- A segment as the stream has it. -/
def encoded (seg : Segment) : List Byte :=
  bytesOf seg.start ++ bytesOf (BitVec.ofNat 16 (seg.start.toNat + seg.data.length - 1)) ++ seg.data

/-! ## The stream -/

theorem bytesOf_eq (w : BitVec 16) : ∃ lo hi, bytesOf w = [lo, hi] ∧ word lo hi = w := by
  refine ⟨_, _, rfl, ?_⟩
  unfold word
  ext i low
  rw [BitVec.getElem_append]
  split
  next below =>
    rw [BitVec.getElem_setWidth, BitVec.getLsbD_eq_getElem]
  next above =>
    rw [BitVec.getElem_setWidth, BitVec.getLsbD_ushiftRight, Nat.add_sub_cancel' (Nat.not_lt.mp above),
      BitVec.getLsbD_eq_getElem]

/-- The loader finds what was encoded. -/
theorem loaded_encoded {seg : Segment} (h : Loadable seg) (rest : List Byte) :
    loaded (encoded seg ++ rest) = (loaded rest).map fun more => (seg :: more.1, more.2) := by
  obtain ⟨s0, s1, start, is_start⟩ := bytesOf_eq seg.start
  obtain ⟨e0, e1, last, is_last⟩ := bytesOf_eq (BitVec.ofNat 16 (seg.start.toNat + seg.data.length - 1))
  have pos : 0 < seg.data.length := List.length_pos_of_ne_nil h.some_
  have room := h.room
  have len : (word e0 e1 - word s0 s1).toNat + 1 = seg.data.length := by
    rw [is_last, is_start, BitVec.toNat_sub, BitVec.toNat_ofNat]
    omega
  rw [encoded, start, last]
  show loaded (s0 :: s1 :: e0 :: e1 :: (seg.data ++ rest)) = _
  rw [loaded, if_neg (by rw [is_start]; exact h.start)]
  dsimp only
  rw [len, if_neg (by rw [List.length_append]; omega), List.drop_left, List.take_left, is_start]

theorem loaded_all {segs : List Segment} (h : ∀ seg ∈ segs, Loadable seg) (e0 e1 : Byte) (rest : List Byte) :
    loaded (segs.flatMap encoded ++ 0xFF :: 0xFF :: e0 :: e1 :: rest) = some (segs, rest) := by
  induction segs with
  | nil =>
    rw [List.flatMap_nil, List.nil_append, loaded, if_pos (by decide)]
  | cons seg segs ih =>
    rw [List.flatMap_cons, List.append_assoc, loaded_encoded (h seg (List.mem_cons_self ..)),
      ih fun other mem => h other (List.mem_cons_of_mem _ mem)]
    rfl

theorem drop_four {xex : List Byte} {i : ℕ} (room : i + 4 ≤ xex.length) :
    xex.drop i = xex.getD i 0 :: xex.getD (i + 1) 0 :: xex.getD (i + 2) 0 :: xex.getD (i + 3) 0 ::
      xex.drop (i + 4) := by
  have one : ∀ k, k < xex.length → xex.drop k = xex.getD k 0 :: xex.drop (k + 1) := by
    intro k inside
    rw [List.drop_eq_getElem_cons inside, List.getD_eq_getElem _ _ inside]
  rw [one i (by omega), one (i + 1) (by omega), one (i + 2) (by omega), one (i + 3) (by omega)]

theorem segments_short {bytes : List Byte} (short : bytes.length < 4) : segments bytes = [] := by
  unfold segments
  split
  next => simp at short; omega
  next => rfl

theorem segments_at {xex : List Byte} {i : ℕ} (room : i + 4 ≤ xex.length)
    (other : word (xex.getD i 0) (xex.getD (i + 1) 0) ≠ 0xFFFF) :
    segments (xex.drop i) =
      if xex.drop (i + 4) = [] then []
      else
        let len := (word (xex.getD (i + 2) 0) (xex.getD (i + 3) 0)).toNat + 1 -
          (word (xex.getD i 0) (xex.getD (i + 1) 0)).toNat
        ⟨word (xex.getD i 0) (xex.getD (i + 1) 0), (xex.drop (i + 4)).take len⟩ ::
          segments ((xex.drop (i + 4)).drop len) := by
  rw [drop_four room, segments, if_neg other]

/-- The loop writes the segments of the file. -/
theorem xexStream_ok {xex stream out : List Byte} {i : ℕ} (ok : xexStream xex i stream = .ok out) :
    out = stream ++ (segments (xex.drop i)).flatMap encoded ∧ ∀ seg ∈ segments (xex.drop i), Loadable seg := by
  induction i, stream using xexStream.induct xex with
  | case1 i stream room start marker ih =>
    rw [xexStream, if_pos room, if_pos marker] at ok
    have skip : segments (xex.drop i) = segments (xex.drop (i + 2)) := by
      rw [drop_four room, segments, if_pos marker, List.drop_eq_getElem_cons (i := i + 2) (by omega),
        List.drop_eq_getElem_cons (i := i + 2 + 1) (by omega), List.getD_eq_getElem, List.getD_eq_getElem]
    rw [skip]
    exact ih ok
  | case2 i stream room start other last wrong =>
    rw [xexStream, if_pos room, if_neg other, if_pos wrong] at ok
    cases ok
  | case3 i stream room start other last right len0 len none_ =>
    have cut : (if xex.length < i + 4 + len0 then xex.length - (i + 4) else len0) = 0 := none_
    have done : xex.drop (i + 4) = [] := by
      rw [List.drop_eq_nil_iff]
      split at cut <;> omega
    rw [xexStream, if_pos room, if_neg other, if_neg right, if_pos cut] at ok
    cases ok
    rw [segments_at room other, if_pos done]
    exact ⟨(List.append_nil _).symm, fun _ mem => absurd mem List.not_mem_nil⟩
  | case4 i stream room start other last right len0 len some_ realEnd ih =>
    have is_len : (if xex.length < i + 4 + len0 then xex.length - (i + 4) else len0) = len := rfl
    have more : xex.drop (i + 4) ≠ [] := by
      rw [ne_eq, List.drop_eq_nil_iff]
      split at is_len <;> omega
    have up : start.toNat ≤ last.toNat := BitVec.le_def.mp (BitVec.not_lt.mp right)
    have inside : i + 4 + len ≤ xex.length ∧ len ≤ len0 ∧ (len = len0 ∨ i + 4 + len = xex.length) := by
      split at is_len <;> omega
    have size : last.toNat + 1 - start.toNat = len0 := by omega
    have data : (xex.drop (i + 4)).take len0 = slice xex (i + 4) len := by
      rcases inside.2.2 with same | all
      · rw [same, slice]
      · rw [slice, List.take_of_length_le, List.take_of_length_le] <;> rw [List.length_drop] <;> omega
    have rest : (xex.drop (i + 4)).drop len0 = xex.drop (i + 4 + len) := by
      rw [List.drop_drop]
      rcases inside.2.2 with same | all
      · rw [same]
      · rw [List.drop_of_length_le, List.drop_of_length_le] <;> omega
    have length : (slice xex (i + 4) len).length = len := length_slice inside.1
    rw [xexStream, if_pos room, if_neg other, if_neg right] at ok
    obtain ⟨out_eq, loadable⟩ := ih ((if_neg some_).symm.trans ok)
    rw [segments_at room other, if_neg more, size]
    dsimp only
    rw [data, rest]
    constructor
    · rw [out_eq, List.flatMap_cons, encoded, length]
      simp only [List.append_assoc]
      rfl
    · rintro seg (_ | ⟨_, mem⟩)
      · refine ⟨?_, other, ?_⟩
        · exact List.ne_nil_of_length_pos (by rw [length]; omega)
        · show start.toNat + (slice xex (i + 4) len).length ≤ 2 ^ 16
          rw [length]
          have := last.isLt
          omega
      · exact loadable seg mem
  | case5 i stream short =>
    rw [xexStream, if_neg short] at ok
    rw [segments_short (by rw [List.length_drop]; omega)]
    cases ok
    exact ⟨(List.append_nil _).symm, fun _ mem => absurd mem List.not_mem_nil⟩

/-! ## The disk -/

/-- Sectors one after the other. -/
theorem flatMap_slice (data : List Byte) (off size count : ℕ) :
    ((List.range count).flatMap fun i => slice data (off + i * size) size) = slice data off (count * size) := by
  induction count with
  | zero => simp [slice]
  | succ count ih =>
    rw [List.range_succ, List.flatMap_append, ih, List.flatMap_singleton, slice, slice, slice, Nat.add_mul,
      Nat.one_mul, List.take_add, List.drop_drop]

/-- The sectors of a disk for a stream. -/
def sectorsFor (stream : List Byte) : ℕ :=
  let sectors := 3 + (stream.length + 127) / 128
  if sectors < 720 then 720 else sectors

theorem sectorsFor_room (stream : List Byte) : stream.length ≤ (sectorsFor stream - 3) * 128 ∧ 720 ≤ sectorsFor stream := by
  unfold sectorsFor
  dsimp only
  split <;> omega

set_option maxRecDepth 100000 in
theorem length_loader : XEX_BOOT_LOADER.length = 187 := by decide

/-- The disk is made with its header and the loader, and then the stream is copied to sector 4. -/
theorem bootDisk_made (stream : List Byte) : ∃ disk : List Byte,
    bootDisk stream = splice disk (16 + 3 * 128) stream ∧ disk.length = 16 + sectorsFor stream * 128 ∧
      disk[0]? = some 0x96 ∧ disk[1]? = some 0x02 ∧ disk[4]? = some 128 ∧ disk[5]? = some 0 := by
  obtain ⟨-, many⟩ := sectorsFor_room stream
  have made : ∃ paragraphs low high, bootDisk stream =
      splice (splice (splice (List.replicate (16 + sectorsFor stream * 128) 0) 0
        [0x96, 0x02, paragraphs, low, 128, 0, high]) 16 XEX_BOOT_LOADER) (16 + 3 * 128) stream := ⟨_, _, _, rfl⟩
  obtain ⟨paragraphs, low, high, made⟩ := made
  refine ⟨_, made, ?_⟩
  have long : (List.replicate (16 + sectorsFor stream * 128) (0 : Byte)).length = 16 + sectorsFor stream * 128 :=
    List.length_replicate
  generalize List.replicate (16 + sectorsFor stream * 128) (0 : Byte) = zeros at long
  have header : (splice zeros 0 [0x96, 0x02, paragraphs, low, 128, 0, high]).length = 16 + sectorsFor stream * 128 := by
    rw [length_splice (by rw [long]; simp; omega), long]
  have room : 16 + XEX_BOOT_LOADER.length ≤ (splice zeros 0 [0x96, 0x02, paragraphs, low, 128, 0, high]).length := by
    rw [length_loader, header]
    omega
  have kept : ∀ k, k < 16 → (splice (splice zeros 0 [0x96, 0x02, paragraphs, low, 128, 0, high]) 16
      XEX_BOOT_LOADER)[k]? = (splice zeros 0 [0x96, 0x02, paragraphs, low, 128, 0, high])[k]? :=
    fun k low => getElem?_splice_of_le (by omega) (.inl low)
  rw [length_splice room, header, kept 0 (by decide), kept 1 (by decide), kept 4 (by decide), kept 5 (by decide)]
  exact ⟨rfl, rfl, rfl, rfl, rfl⟩

/-- The loader's disk can be mounted, and the stream starts at sector 4. -/
theorem load_bootDisk (stream : List Byte) : ∃ img, AtrImage.load (bootDisk stream) = .ok img ∧
    img.sectorSize = 128 ∧ img.sectorCount = sectorsFor stream ∧
      ∃ rest, slice img.data (16 + 3 * 128) ((sectorsFor stream - 3) * 128) = stream ++ rest := by
  obtain ⟨room, many⟩ := sectorsFor_room stream
  obtain ⟨disk, made, long, b0, b1, b4, b5⟩ := bootDisk_made stream
  have inside : 16 + 3 * 128 + stream.length ≤ disk.length := by omega
  have length : (bootDisk stream).length = 16 + sectorsFor stream * 128 := by rw [made, length_splice inside, long]
  have kept : ∀ k, k < 16 → (bootDisk stream).getD k 0 = disk[k]?.getD 0 := by
    intro k low
    rw [List.getD_eq_getElem?_getD, made, getElem?_splice_of_le (by omega) (.inl (by omega))]
  have size : ((bootDisk stream).getD 4 0).toNat + 256 * ((bootDisk stream).getD 5 0).toNat = 128 := by
    rw [kept 4 (by decide), kept 5 (by decide), b4, b5]
    rfl
  have header : ¬((bootDisk stream).length < 16 + 128 ∨ (bootDisk stream).getD 0 0 ≠ 0x96 ∨
      (bootDisk stream).getD 1 0 ≠ 0x02) := by
    rw [kept 0 (by decide), kept 1 (by decide), b0, b1, length]
    simp
    omega
  have sized : ((bootDisk stream).getD 4 0).toNat + 256 * ((bootDisk stream).getD 5 0).toNat = 128 ∨
      ((bootDisk stream).getD 4 0).toNat + 256 * ((bootDisk stream).getD 5 0).toNat = 256 := .inl size
  unfold AtrImage.load
  rw [dif_neg header]
  dsimp only
  rw [dif_pos sized]
  refine ⟨_, rfl, size, ?_, ?_⟩
  · dsimp only
    rw [size, length, AtrImage.countOf, if_pos rfl]
    omega
  · show ∃ rest, slice (bootDisk stream) _ _ = _
    have front : ((bootDisk stream).drop (16 + 3 * 128)) = stream ++ disk.drop (16 + 3 * 128 + stream.length) := by
      rw [made, splice, List.append_assoc, List.drop_left' (List.length_take_of_le (by omega))]
    rw [slice, front, List.take_append, List.take_of_length_le room]
    exact ⟨_, rfl⟩

/-- The sectors that the loader reads are those behind the third, where their numbers have 16 bits. -/
theorem dataSectors_eq {img : AtrImage} (short : img.sectorSize = 128) (few : img.sectorCount ≤ 0xFFFF) :
    dataSectors img = slice img.data (16 + 3 * 128) ((img.sectorCount - 3) * 128) := by
  rw [← flatMap_slice, dataSectors]
  refine List.flatMap_congr fun i mem => ?_
  have low := List.mem_range.mp mem
  have number : (BitVec.ofNat 16 (4 + i)).toNat = 4 + i := by
    rw [BitVec.toNat_ofNat]
    omega
  have sector : IsSector img (4 + i) := ⟨by omega, by omega⟩
  have place : img.offsetOf (4 + i) = 16 + 3 * 128 + i * 128 := by
    unfold AtrImage.offsetOf Sio.offsetOf
    rw [short, if_neg (by omega)]
    omega
  have size : img.sizeOf (4 + i) = 128 := by
    unfold AtrImage.sizeOf Sio.sizeOf
    rw [short, ite_self]
  rw [number, read_of_sector sector, place, size, Option.getD_some]

/-- The image is accepted, and the loader finds the segments of the executable on it, in order,
and then the end. -/
theorem xex_disk_loads {xex atr stream : List Byte} (accepted : xexToAtr xex = .ok atr)
    (converted : xexStream xex 0 [] = .ok stream) (fits : stream.length + 4 ≤ 65532 * 128) :
    ∃ img, AtrImage.load atr = .ok img ∧ img.sectorCount ≤ 0xFFFF ∧
      ∃ rest, loaded (dataSectors img) = some (segments xex, rest) := by
  obtain ⟨written, loadable⟩ := xexStream_ok converted
  rw [List.drop_zero, List.nil_append] at written
  rw [List.drop_zero] at loadable
  have made : atr = bootDisk (stream ++ [0xFF, 0xFF, 0xFF, 0xFF]) := by
    unfold xexToAtr at accepted
    rw [converted] at accepted
    split at accepted
    · cases accepted
    · dsimp only at accepted
      split at accepted
      · cases accepted
      · exact (Except.ok.inj accepted).symm
  obtain ⟨img, load, short, count, rest, sectors⟩ := load_bootDisk (stream ++ [0xFF, 0xFF, 0xFF, 0xFF])
  have few : img.sectorCount ≤ 0xFFFF := by
    rw [count, sectorsFor, List.length_append]
    dsimp only [List.length_cons, List.length_nil]
    split <;> omega
  refine ⟨img, made ▸ load, few, rest, ?_⟩
  rw [dataSectors_eq short few, count, sectors, written, List.append_assoc]
  exact loaded_all loadable 0xFF 0xFF rest

/-- A segment of two bytes, a marker, and a segment that the file ends within. -/
def twoSegments : List Byte :=
  [0xFF, 0xFF, 0x00, 0x20, 0x01, 0x20, 0xAA, 0xBB, 0xFF, 0xFF, 0x00, 0x30, 0x05, 0x30, 0x11]

theorem twoSegments_converted : xexStream twoSegments 0 [] =
    .ok [0x00, 0x20, 0x01, 0x20, 0xAA, 0xBB, 0x00, 0x30, 0x00, 0x30, 0x11] := by
  have marker (i : ℕ) (stream : List Byte) (at_ : i = 0 ∨ i = 8) :
      xexStream twoSegments i stream = xexStream twoSegments (i + 2) stream := by
    rcases at_ with rfl | rfl <;> rw [xexStream, if_pos (by decide)] <;> exact if_pos (by decide)
  have first (stream : List Byte) : xexStream twoSegments 2 stream =
      xexStream twoSegments 8 (stream ++ [0x00, 0x20, 0x01, 0x20] ++ [0xAA, 0xBB]) := by
    rw [xexStream, if_pos (by decide), if_neg (by decide)]
    rfl
  have second (stream : List Byte) : xexStream twoSegments 10 stream =
      xexStream twoSegments 15 (stream ++ [0x00, 0x30, 0x00, 0x30] ++ [0x11]) := by
    rw [xexStream, if_pos (by decide), if_neg (by decide)]
    rfl
  rw [marker 0 _ (.inl rfl), first, marker 8 _ (.inr rfl), second, xexStream, if_neg (by decide)]
  rfl

theorem xex_disk_loads_two : ∃ img, AtrImage.load (bootDisk [0x00, 0x20, 0x01, 0x20, 0xAA, 0xBB, 0x00, 0x30,
    0x00, 0x30, 0x11, 0xFF, 0xFF, 0xFF, 0xFF]) = .ok img ∧ img.sectorCount ≤ 0xFFFF ∧
      ∃ rest, loaded (dataSectors img) = some ([⟨0x2000, [0xAA, 0xBB]⟩, ⟨0x3000, [0x11]⟩], rest) := by
  have accepted : xexToAtr twoSegments = .ok (bootDisk [0x00, 0x20, 0x01, 0x20, 0xAA, 0xBB, 0x00, 0x30, 0x00, 0x30,
      0x11, 0xFF, 0xFF, 0xFF, 0xFF]) := by
    rw [xexToAtr, if_neg (by decide), twoSegments_converted]
    exact if_neg (by decide)
  have both : segments twoSegments = [⟨0x2000, [0xAA, 0xBB]⟩, ⟨0x3000, [0x11]⟩] := by
    simp [twoSegments, segments, word]
  exact both ▸ xex_disk_loads accepted twoSegments_converted (by decide)

end Mmemu.Guarantees.XexDisks
