import Mathlib.Data.List.GetD
import Mmemu.Library.Runs
import Mmemu.Source.Mega65SdCard

/-!
# SD card commands as a block store

A card is an image whose sectors are read and written, or refused. The controller's commands are
those of such a card as long as its file stream has not failed: a write that a read-only image refuses
leaves the stream failed, and only the F011 clears it.
-/
namespace Mmemu.Guarantees.SectorCommands
open Mmemu.Library.GuardedRun Mmemu.Library.Splice
open Mmemu.Source.Mega65SdCard SdCardDevice

/-! ## The block store -/

/-- A card that has no state besides its image. -/
structure Card where
  image : Option (List Byte)
  writable : Bool

namespace Card
variable (c : Card)

/-- A range lies inside the image. -/
def holds (off n : ℕ) : Bool := c.image.any fun image => off + n ≤ image.length

def read (off n : ℕ) : Option (List Byte) :=
  if c.holds off n then c.image.map fun image => slice image off n else none

def write (off : ℕ) (buf : List Byte) : Option Card :=
  if c.writable && c.holds off buf.length then some { c with image := c.image.map fun image => splice image off buf }
  else none

end Card

/-! ## Commands -/

/-- The command that an access gives the controller. -/
def command (d : SdCardDevice) : Access → Option Byte
  | .ioWrite _ addr val => if ¬ (0xDE00 ≤ addr ∧ addr ≤ 0xDFFF) ∧ addr - d.m_base = 0 then some val else none
  | _ => none

def offset (d : SdCardDevice) : ℕ := d.sector.toNat * 512

/-- The card after an access: a write that it refuses changes nothing. -/
def Card.after (c : Card) (d : SdCardDevice) : Access → Card
  | .writeDisk start off buf _ => (c.write (start.toNat * 512 + off.toNat) buf).getD c
  | .ioWrite inHypervisor addr val =>
    if command d (.ioWrite inHypervisor addr val) = some 0x03 then (c.write (offset d) d.sectorBuffer).getD c else c
  | .reset | .readDisk .. | .fdcBuffer .. => c

def step (p : SdCardDevice × Card) (a : Access) : SdCardDevice × Card := (p.1.after a, p.2.after p.1 a)

def error (d : SdCardDevice) : Prop := d.m_status &&& SD_ST_ERROR ≠ 0

/-- The access does with the controller and its image what it does with the card. -/
structure Served (p : SdCardDevice × Card) (a : Access) : Prop where
  read : command p.1 a = some 0x02 → p.2.image.isSome →
    (∀ bytes ∈ p.2.read (offset p.1) 512, (p.1.after a).sectorBuffer = bytes) ∧
      (error (p.1.after a) ↔ p.2.read (offset p.1) 512 = none)
  write : command p.1 a = some 0x03 →
    (error (p.1.after a) ↔ p.2.write (offset p.1) p.1.sectorBuffer = none)
  image : (p.1.after a).m_imageFile.map FileStream.data = (p.2.after p.1 a).image

/-- A sector inside the image is to be read, but the stream has failed. -/
def Stuck (p : SdCardDevice × Card) (a : Access) : Prop :=
  command p.1 a = some 0x02 ∧ (p.2.read (offset p.1) 512).isSome ∧ ∃ file ∈ p.1.m_imageFile, file.failed = true

/-- A new controller, and the card that was mounted, if there is one. -/
def start (base : BitVec 32) (image : Option (List Byte)) (writable : Bool) : SdCardDevice × Card :=
  let d := (SdCardDevice.new base).reset
  (image.elim d fun data => d.mountImage data writable, ⟨image, writable⟩)

/-! ## What the controller and the card share -/

/-- The stream is that of the card; only one that is not written to has failed. -/
structure Tracks (failed : Bool) (d : SdCardDevice) (c : Card) : Prop where
  file : d.m_imageFile = c.image.map fun data => ⟨data, c.writable, failed⟩
  size : ∀ data ∈ c.image, d.m_imageSize = data.length
  writable : c.image.isSome → d.m_writable = c.writable
  failed : failed = true → c.writable = false

/-- The file is as it was. -/
def SameFile (d d' : SdCardDevice) : Prop :=
  d'.m_imageFile = d.m_imageFile ∧ d'.m_imageSize = d.m_imageSize ∧ d'.m_writable = d.m_writable

variable {failed : Bool} {d d' : SdCardDevice} {c : Card}

theorem Tracks.of_same (h : Tracks failed d c) (same : SameFile d d') : Tracks failed d' c := by
  obtain ⟨file, size, writable⟩ := same
  refine ⟨file.trans h.file, fun data mem => size.trans (h.size data mem), fun mounted => ?_, h.failed⟩
  exact writable.trans (h.writable mounted)

/-- Inside of the card or not, and whether there is one. -/
theorem Tracks.cases (h : Tracks failed d c) :
    (c.image = none ∧ d.m_imageFile = none) ∨
      ∃ data, c.image = some data ∧ d.m_imageFile = some ⟨data, c.writable, failed⟩ ∧
        d.m_imageSize = data.length ∧ d.m_writable = c.writable := by
  cases image : c.image with
  | none => exact .inl ⟨rfl, by rw [h.file, image]; rfl⟩
  | some data =>
    refine .inr ⟨data, rfl, by rw [h.file, image]; rfl, h.size data image, h.writable ?_⟩
    rw [image]
    rfl

@[simp] theorem length_sectorBuffer : d.sectorBuffer.length = 512 := by
  rw [sectorBuffer, List.length_map, List.length_range]

theorem sectorBuffer_set {bytes : List Byte} (full : bytes.length = 512) :
    (d.setSectorBuffer bytes).sectorBuffer = bytes := by
  refine List.ext_getElem (length_sectorBuffer.trans full.symm) fun i _ bound => ?_
  have small : i < 512 := full ▸ bound
  have address : (0xE00 + BitVec.ofNat 12 i : BitVec 12).toNat = 3584 + i := by
    rw [BitVec.toNat_add, BitVec.toNat_ofNat]
    change (3584 + i % 4096) % 4096 = _
    omega
  have above : ¬ (0xE00 + BitVec.ofNat 12 i : BitVec 12) < 0xE00 := by
    rw [BitVec.lt_def, address]
    exact Nat.not_lt.mpr (Nat.le_add_right 3584 i)
  have back : (0xE00 + BitVec.ofNat 12 i - 0xE00 : BitVec 12).toNat = i := by
    rw [BitVec.toNat_sub_of_le (by rw [BitVec.le_def, address]; exact Nat.le_add_right 3584 i), address]
    exact Nat.add_sub_cancel_left 3584 i
  simp only [sectorBuffer, setSectorBuffer, List.getElem_map, List.getElem_range, if_neg above, back]
  exact List.getD_eq_getElem _ _ bound

/-! ## Sectors -/

theorem readSector_unmounted (sector : BitVec 32) (absent : d.m_imageFile = none) :
    SameFile d (d.readSector sector).2 := by
  rw [readSector, absent]
  exact ⟨rfl, rfl, rfl⟩

theorem Card.read_eq {data : List Byte} (image : c.image = some data) (off n : ℕ) :
    c.read off n = if off + n ≤ data.length then some (slice data off n) else none := by
  simp only [Card.read, Card.holds, image, Option.any_some, Option.map_some, decide_eq_true_eq]

theorem Card.write_eq {data : List Byte} (image : c.image = some data) (off : ℕ) (buf : List Byte) :
    c.write off buf =
      if c.writable ∧ off + buf.length ≤ data.length then some { c with image := some (splice data off buf) }
      else none := by
  simp only [Card.write, Card.holds, image, Option.any_some, Option.map_some, Bool.and_eq_true, decide_eq_true_eq]

/-- A sector of a card is read unless it lies outside or the stream has failed. -/
theorem readSector_spec (h : Tracks failed d c) (sector : BitVec 32) (mounted : c.image.isSome) :
    SameFile d (d.readSector sector).2 ∧
      ((d.readSector sector).1 = true ↔ (c.read (sector.toNat * 512) 512).isSome ∧ failed = false) ∧
      (failed = false →
        ∀ bytes ∈ c.read (sector.toNat * 512) 512, (d.readSector sector).2.sectorBuffer = bytes) := by
  rcases h.cases with ⟨none_, _⟩ | ⟨data, image, file, size, _⟩
  · rw [none_] at mounted
    cases mounted
  rw [c.read_eq image, readSector, file]
  dsimp only
  by_cases inside : sector.toNat * 512 + 512 ≤ data.length
  · have outside : ¬ sector.toNat * 512 + 512 > d.m_imageSize := by omega
    have small : ¬ data.length < sector.toNat * 512 + 512 := by omega
    rw [if_neg outside, if_pos inside]
    cases failed with
    | true =>
      refine ⟨⟨file.symm, rfl, rfl⟩, by simp [FileStream.read, FileStream.good], fun good => ?_⟩
      cases good
    | false =>
      simp only [FileStream.read, Bool.false_eq_true, if_false, small, decide_false]
      refine ⟨⟨file.symm, rfl, rfl⟩, by simp [FileStream.good], fun _ bytes mem => ?_⟩
      cases mem
      exact sectorBuffer_set (length_slice inside)
  · have outside : sector.toNat * 512 + 512 > d.m_imageSize := by omega
    rw [if_pos outside, if_neg inside]
    refine ⟨⟨rfl, rfl, rfl⟩, by simp, fun _ bytes mem => ?_⟩
    cases mem

/-- A stream that only fails where it is not written to: a write fails it or not, whatever it was. -/
theorem write_stream (data buf : List Byte) {out : Bool} (only : failed = true → out = false) (off : ℕ) :
    FileStream.write ⟨data, out, failed⟩ off buf = ⟨if out then splice data off buf else data, out, !out⟩ := by
  cases failed with
  | true =>
    cases only rfl
    rfl
  | false => cases out <;> rfl

/-- What is written inside the image goes to the stream, which keeps to the card. -/
theorem Tracks.write (h : Tracks failed d c) {data : List Byte} (image : c.image = some data) {off : ℕ}
    {buf : List Byte} (inside : off + buf.length ≤ data.length) :
    Tracks (!c.writable) { d with m_imageFile := some (FileStream.write ⟨data, c.writable, failed⟩ off buf) }
        ((c.write off buf).getD c) ∧
      ((FileStream.write ⟨data, c.writable, failed⟩ off buf).good = true ↔ (c.write off buf).isSome) := by
  rw [write_stream data buf h.failed]
  have size := h.size data image
  have flag := h.writable (by rw [image]; rfl)
  cases writable : c.writable with
  | false =>
    have refused : c.write off buf = none := by
      rw [c.write_eq image, writable]
      exact if_neg fun both => Bool.false_ne_true both.1
    rw [refused]
    refine ⟨⟨?_, fun data' mem => h.size data' mem, fun _ => flag, fun _ => writable⟩, Iff.of_eq rfl⟩
    simp [image, writable]
  | true =>
    have taken : c.write off buf = some { c with image := some (splice data off buf) } := by
      rw [c.write_eq image, writable]
      exact if_pos ⟨rfl, inside⟩
    rw [taken]
    refine ⟨⟨?_, fun data' mem => ?_, fun _ => flag, fun bad => ?_⟩, Iff.of_eq rfl⟩
    · simp [writable]
    · cases mem
      rw [length_splice inside]
      exact size
    · cases bad

/-- A sector is written as the card takes it. One that a read-only image refuses fails the stream. -/
theorem writeSector_spec (h : Tracks failed d c) (sector : BitVec 32) :
    Tracks (failed || (!c.writable && c.holds (sector.toNat * 512) 512)) (d.writeSector sector).2
        ((c.write (sector.toNat * 512) d.sectorBuffer).getD c) ∧
      ((d.writeSector sector).1 = true ↔ (c.write (sector.toNat * 512) d.sectorBuffer).isSome) := by
  rw [writeSector]
  rcases h.cases with ⟨none_, absent⟩ | ⟨data, image, file, size, writable⟩
  · have refused : c.write (sector.toNat * 512) d.sectorBuffer = none := by
      simp [Card.write, Card.holds, none_]
    simp only [refused, absent, Card.holds, none_, Option.any_none, Bool.and_false, Bool.or_false]
    exact ⟨h, Iff.of_eq rfl⟩
  · have holds : c.holds (sector.toNat * 512) 512 = decide (sector.toNat * 512 + 512 ≤ data.length) := by
      simp [Card.holds, image]
    rw [file, holds]
    dsimp only
    by_cases inside : sector.toNat * 512 + 512 ≤ data.length
    · have outside : ¬ sector.toNat * 512 + 512 > d.m_imageSize := by omega
      have flag : (failed || (!c.writable && true)) = !c.writable := by
        cases failed with
        | true => rw [h.failed rfl]; rfl
        | false => simp
      rw [if_neg outside, decide_eq_true inside, flag]
      exact h.write image (by rw [length_sectorBuffer]; exact inside)
    · have outside : sector.toNat * 512 + 512 > d.m_imageSize := by omega
      have refused : c.write (sector.toNat * 512) d.sectorBuffer = none := by
        rw [c.write_eq image, length_sectorBuffer]
        exact if_neg fun both => inside both.2
      rw [if_pos outside, decide_eq_false inside, refused, Bool.and_false, Bool.or_false]
      exact ⟨h, Iff.of_eq rfl⟩

/-! ## The F011's disk images -/

/-- A read inside the image clears the stream. -/
theorem readImage_spec (h : Tracks failed d c) (off n : ℕ) :
    Tracks (failed && !c.holds off n) (d.readImage off n).2 c := by
  rw [readImage]
  rcases h.cases with ⟨none_, absent⟩ | ⟨data, image, file, size, _⟩
  · simpa only [absent, Card.holds, none_, Option.any_none, Bool.not_false, Bool.and_true] using h
  · have holds : c.holds off n = decide (off + n ≤ data.length) := by
      simp [Card.holds, image]
    rw [file, holds]
    dsimp only
    by_cases inside : off + n ≤ data.length
    · have outside : ¬ off + n > d.m_imageSize := by omega
      have small : ¬ data.length < off + n := by omega
      rw [if_neg outside, decide_eq_true inside, Bool.not_true, Bool.and_false]
      refine ⟨?_, h.size, h.writable, fun bad => ?_⟩
      · simp [FileStream.clear, FileStream.read, small, image]
      · cases bad
    · have outside : off + n > d.m_imageSize := by omega
      rw [if_pos outside, decide_eq_false inside, Bool.not_false, Bool.and_true]
      exact h

/-- A read-only image refuses before the stream is used. -/
theorem writeImage_spec (h : Tracks failed d c) (off : ℕ) (buf : List Byte) :
    Tracks failed (d.writeImage off buf).2 ((c.write off buf).getD c) := by
  rw [writeImage]
  rcases h.cases with ⟨none_, absent⟩ | ⟨data, image, file, size, writable⟩
  · have refused : c.write off buf = none := by
      simp [Card.write, Card.holds, none_]
    simpa only [absent, refused, Option.getD_none] using h
  · rw [file]
    dsimp only
    by_cases taken : d.m_writable = true ∧ off + buf.length ≤ data.length
    · obtain ⟨on, inside⟩ := taken
      have good : ¬ ((!d.m_writable) = true ∨ off + buf.length > d.m_imageSize) := by
        rw [on]
        simp only [Bool.not_true, Bool.false_eq_true, false_or]
        omega
      have clean : failed = false := by
        cases failed with
        | true => rw [← h.failed rfl, ← writable, on]
        | false => rfl
      rw [if_neg good]
      subst clean
      have wrote := (h.write image inside).1
      rw [← writable, on, Bool.not_true] at wrote
      simpa only [FileStream.clear, ← writable, on] using wrote
    · have bad : (!d.m_writable) = true ∨ off + buf.length > d.m_imageSize := by
        rw [Bool.not_eq_true', size]
        by_contra neither
        simp only [not_or, Bool.not_eq_false, Nat.not_lt] at neither
        exact taken neither
      have refused : c.write off buf = none := by
        rw [c.write_eq image, ← writable]
        exact if_neg taken
      rw [if_pos bad, refused]
      exact h

/-! ## Accesses -/

/-- Whether the stream has failed after an access. -/
def fails (failed : Bool) (d : SdCardDevice) (c : Card) : Access → Bool
  | .readDisk start off => failed && !c.holds (start.toNat * 512 + off.toNat) 512
  | .ioWrite inHypervisor addr val =>
    if command d (.ioWrite inHypervisor addr val) = some 0x03 then failed || (!c.writable && c.holds (offset d) 512)
    else failed
  | .reset | .writeDisk .. | .fdcBuffer .. => failed

theorem command_register : 0 < 20 := by decide

/-- The controller as a command finds it: its register written and the errors cleared. -/
def ready (d : SdCardDevice) (cmd : Byte) : SdCardDevice :=
  { d with
    m_regs := Function.update d.m_regs ⟨0, command_register⟩ cmd
    m_status := d.m_status &&& ~~~(SD_ST_ERROR ||| SD_ST_FSM_ERROR) }

theorem sector_ready (d : SdCardDevice) (cmd : Byte) : (ready d cmd).sector = d.sector := by
  simp [ready, sector]

theorem tracks_ready (h : Tracks failed d c) (cmd : Byte) : Tracks failed (ready d cmd) c :=
  ⟨h.file, h.size, h.writable, h.failed⟩

theorem ready_clear (d : SdCardDevice) (cmd : Byte) : (ready d cmd).m_status &&& SD_ST_ERROR = 0 := by
  have apart : ~~~(SD_ST_ERROR ||| SD_ST_FSM_ERROR) &&& SD_ST_ERROR = 0#8 := by decide
  rw [ready, BitVec.and_assoc, apart]
  exact BitVec.and_zero

/-- The error bit says whether the command failed. -/
theorem error_report {r : Bool × SdCardDevice} (clear : r.2.m_status &&& SD_ST_ERROR = 0) :
    error (report r) ↔ r.1 = false := by
  have set_ (status : Byte) : (status ||| SD_ST_ERROR) &&& SD_ST_ERROR = SD_ST_ERROR := by
    ext i bound
    rw [BitVec.getElem_and, BitVec.getElem_or]
    cases status[i] <;> simp
  cases done : r.1 with
  | true => simp [error, report, done, clear]
  | false =>
    simp only [error, report, done, Bool.false_eq_true, if_false, set_]
    decide

/-- The commands other than the two on sectors leave the file alone. -/
theorem executeCommand_same (d : SdCardDevice) {cmd : Byte} (read : cmd ≠ 0x02) (write : cmd ≠ 0x03) :
    SameFile d (d.executeCommand cmd) := by
  have read : cmd.toNat ≠ 2 := fun eq => read (BitVec.eq_of_toNat_eq eq)
  have write : cmd.toNat ≠ 3 := fun eq => write (BitVec.eq_of_toNat_eq eq)
  unfold executeCommand
  dsimp only
  split
  all_goals first | exact ⟨rfl, rfl, rfl⟩ | contradiction | skip
  split <;> exact ⟨rfl, rfl, rfl⟩

theorem ioWrite_register (d : SdCardDevice) (inHypervisor : Bool) {addr : BitVec 32} {val : Byte}
    (outside : ¬ (0xDE00 ≤ addr ∧ addr ≤ 0xDFFF)) (at_ : addr - d.m_base = 0) :
    (d.ioWrite inHypervisor addr val).2 =
      ({ d with m_regs := Function.update d.m_regs 0 val } : SdCardDevice).executeCommand val := by
  rw [ioWrite]
  dsimp only
  rw [if_neg outside]
  simp [at_]

theorem after_of_command {a : Access} {cmd : Byte} (given : command d a = some cmd) :
    d.after a = ({ d with m_regs := Function.update d.m_regs 0 cmd } : SdCardDevice).executeCommand cmd := by
  cases a with
  | ioWrite inHypervisor addr val =>
    simp only [command] at given
    split at given
    · rename_i here
      cases given
      exact ioWrite_register d inHypervisor here.1 here.2
    · cases given
  | _ => cases given

theorem same_of_no_command {inHypervisor : Bool} {addr : BitVec 32} {val : Byte}
    (none_ : command d (.ioWrite inHypervisor addr val) = none) :
    SameFile d (d.after (.ioWrite inHypervisor addr val)) := by
  have elsewhere : ¬ (¬ (0xDE00 ≤ addr ∧ addr ≤ 0xDFFF) ∧ addr - d.m_base = 0) := by
    intro here
    rw [command, if_pos here] at none_
    cases none_
  rw [after, ioWrite]
  dsimp only
  split
  · unfold bufferWrite
    split <;> exact ⟨rfl, rfl, rfl⟩
  · rename_i outside
    have at_ : ¬ addr - d.m_base = 0 := fun at_ => elsewhere ⟨outside, at_⟩
    simp only [if_neg at_]
    split
    · split <;> exact ⟨rfl, rfl, rfl⟩
    · exact ⟨rfl, rfl, rfl⟩

/-- A report changes the status only. -/
theorem report_same (r : Bool × SdCardDevice) :
    SameFile r.2 (report r) ∧ (report r).sectorBuffer = r.2.sectorBuffer := by
  rw [report]
  split <;> exact ⟨⟨rfl, rfl, rfl⟩, rfl⟩

theorem readSector_status (d : SdCardDevice) (sector : BitVec 32) :
    (d.readSector sector).2.m_status = d.m_status := by
  unfold readSector
  split
  · rfl
  · dsimp only
    split <;> rfl

/-- A write changes the file only. -/
theorem writeSector_eq (d : SdCardDevice) (sector : BitVec 32) :
    ∃ file, (d.writeSector sector).2 = { d with m_imageFile := file } := by
  unfold writeSector
  split
  · exact ⟨d.m_imageFile, rfl⟩
  · dsimp only
    split
    · exact ⟨d.m_imageFile, rfl⟩
    · exact ⟨_, rfl⟩

theorem SameFile.trans {d'' : SdCardDevice} (h : SameFile d d') (h' : SameFile d' d'') : SameFile d d'' :=
  ⟨h'.1.trans h.1, h'.2.1.trans h.2.1, h'.2.2.trans h.2.2⟩

theorem run_read {a : Access} (given : command d a = some 0x02) :
    d.after a = report ((ready d 0x02).readSector d.sector) := by
  rw [after_of_command given, ← sector_ready d 0x02]
  rfl

theorem run_write {a : Access} (given : command d a = some 0x03) :
    d.after a = report ((ready d 0x03).writeSector d.sector) := by
  rw [after_of_command given, ← sector_ready d 0x03]
  rfl

/-- A read command, on a card whose stream is good or not. -/
theorem after_read (h : Tracks failed d c) {a : Access} (given : command d a = some 0x02) (mounted : c.image.isSome) :
    SameFile d (d.after a) ∧
      (error (d.after a) ↔ ¬ ((c.read (offset d) 512).isSome ∧ failed = false)) ∧
      (failed = false → ∀ bytes ∈ c.read (offset d) 512, (d.after a).sectorBuffer = bytes) := by
  obtain ⟨same, done, buffer⟩ := readSector_spec (tracks_ready h 0x02) d.sector mounted
  change _ ↔ (c.read (offset d) 512).isSome ∧ failed = false at done
  rw [run_read given]
  refine ⟨same.trans (report_same _).1, ?_, fun good bytes mem => ?_⟩
  · rw [error_report (by rw [readSector_status]; exact ready_clear d 0x02), ← done, Bool.not_eq_true]
  · rw [(report_same _).2]
    exact buffer good bytes mem

/-- A write command. -/
theorem after_write (h : Tracks failed d c) {a : Access} (given : command d a = some 0x03) :
    Tracks (failed || (!c.writable && c.holds (offset d) 512)) (d.after a)
        ((c.write (offset d) d.sectorBuffer).getD c) ∧
      (error (d.after a) ↔ c.write (offset d) d.sectorBuffer = none) := by
  obtain ⟨tracks, done⟩ := writeSector_spec (tracks_ready h 0x03) d.sector
  obtain ⟨file, wrote⟩ := writeSector_eq (ready d 0x03) d.sector
  rw [run_write given]
  refine ⟨tracks.of_same (report_same _).1, ?_⟩
  rw [error_report (by rw [wrote]; exact ready_clear d 0x03), ← Bool.not_eq_true, done,
    Option.not_isSome_iff_eq_none]
  rfl

/-- A read command on no card fills the buffer only. -/
theorem after_read_unmounted (h : Tracks failed d c) {a : Access} (given : command d a = some 0x02)
    (absent : c.image = none) : SameFile d (d.after a) := by
  have absent : (ready d 0x02).m_imageFile = none := by
    rw [(tracks_ready h 0x02).file, absent]
    rfl
  have same := readSector_unmounted d.sector absent
  rw [run_read given]
  have given_ : SameFile d (ready d 0x02) := ⟨rfl, rfl, rfl⟩
  exact given_.trans (same.trans (report_same _).1)

/-- What is no write command and no transfer of the F011 keeps the file. -/
theorem same_of_other (h : Tracks failed d c) {inHypervisor : Bool} {addr : BitVec 32} {val : Byte}
    (other : command d (.ioWrite inHypervisor addr val) ≠ some 0x03) :
    SameFile d (d.after (.ioWrite inHypervisor addr val)) := by
  cases given : command d (.ioWrite inHypervisor addr val) with
  | none => exact same_of_no_command given
  | some cmd =>
    by_cases read : cmd = 0x02
    · subst read
      cases image : c.image with
      | none => exact after_read_unmounted h given image
      | some data => exact (after_read h given (by rw [image]; rfl)).1
    · rw [after_of_command given]
      have write : cmd ≠ 0x03 := fun eq => other (by rw [given, eq])
      have set : SameFile d { d with m_regs := Function.update d.m_regs 0 cmd } := ⟨rfl, rfl, rfl⟩
      exact set.trans (executeCommand_same _ read write)

/-- The controller keeps to the card in every access. -/
theorem Tracks.after (h : Tracks failed d c) (a : Access) :
    Tracks (fails failed d c a) (d.after a) (c.after d a) := by
  cases a with
  | reset | fdcBuffer => exact ⟨h.file, h.size, h.writable, h.failed⟩
  | readDisk start off => exact readImage_spec h _ 512
  | writeDisk start off buf full => exact writeImage_spec h (start.toNat * 512 + off.toNat) buf
  | ioWrite inHypervisor addr val =>
    rw [fails, Card.after]
    split
    · rename_i write
      exact (after_write h write).1
    · rename_i other
      exact h.of_same (same_of_other h other)

theorem stuck_iff (h : Tracks failed d c) {a : Access} (given : command d a = some 0x02) :
    Stuck (d, c) a ↔ (c.read (offset d) 512).isSome ∧ failed = true := by
  constructor
  · rintro ⟨_, inside, file, mem, bad⟩
    refine ⟨inside, ?_⟩
    rw [Option.mem_def, h.file, Option.map_eq_some_iff] at mem
    obtain ⟨data, _, rfl⟩ := mem
    exact bad
  · rintro ⟨inside, bad⟩
    rcases h.cases with ⟨none_, _⟩ | ⟨data, _, file, _⟩
    · simp [Card.read, Card.holds, none_] at inside
    · exact ⟨given, inside, _, file, bad⟩

/-- An access is served unless it reads a sector while the stream is failed. -/
theorem served_access (h : Tracks failed d c) (a : Access) : Served (d, c) a ↔ ¬ Stuck (d, c) a := by
  constructor
  · intro served stuck
    have given := stuck.1
    obtain ⟨inside, bad⟩ := (stuck_iff h given).mp stuck
    have mounted : c.image.isSome := by
      obtain ⟨bytes, got⟩ := Option.isSome_iff_exists.mp inside
      rcases h.cases with ⟨none_, _⟩ | ⟨data, image, _⟩
      · simp [Card.read, Card.holds, none_] at got
      · rw [image]
        rfl
    have reported : error (d.after a) := by
      rw [(after_read h given mounted).2.1, bad]
      exact fun both => Bool.false_ne_true both.2.symm
    have refused := ((served.read given mounted).2).mp reported
    rw [refused] at inside
    cases inside
  · intro clear
    refine ⟨fun given mounted => ?_, fun given => (after_write h given).2, ?_⟩
    · obtain ⟨_, reported, buffer⟩ := after_read h given mounted
      have either : c.read (offset d) 512 = none ∨ failed = false := by
        by_contra neither
        rw [not_or, Bool.not_eq_false] at neither
        exact clear ((stuck_iff h given).mpr ⟨Option.isSome_iff_ne_none.mpr neither.1, neither.2⟩)
      rcases either with outside | good
      · refine ⟨fun bytes mem => ?_, ?_⟩
        · rw [outside] at mem
          cases mem
        · rw [reported, outside]
          exact iff_of_true (fun both => Bool.false_ne_true both.1) rfl
      · refine ⟨buffer good, ?_⟩
        rw [reported, good, Option.isSome_iff_ne_none]
        simp
    · rw [(h.after a).file, Option.map_map]
      exact Option.map_id'

theorem tracks_start (base : BitVec 32) (image : Option (List Byte)) (writable : Bool) :
    Tracks false (start base image writable).1 (start base image writable).2 := by
  cases image with
  | none =>
    refine ⟨rfl, fun data mem => ?_, fun mounted => ?_, fun bad => ?_⟩
    · cases mem
    · cases mounted
    · cases bad
  | some data =>
    refine ⟨rfl, fun data' mem => ?_, fun _ => rfl, fun bad => ?_⟩
    · cases mem
      rfl
    · cases bad

/-- For every card and every sequence of accesses, all of them are served exactly if no sector is read
while the stream is failed. -/
theorem sectors_served_iff (base : BitVec 32) (image : Option (List Byte)) (writable : Bool) (accesses : List Access) :
    Guarded step Served (start base image writable) accesses ↔
      Guarded step (fun p a => ¬ Stuck p a) (start base image writable) accesses := by
  let inv (p : SdCardDevice × Card) : Prop := ∃ failed, Tracks failed p.1 p.2
  have keeps (p : SdCardDevice × Card) (a : Access) (h : inv p) : inv (step p a) := by
    obtain ⟨_, tracks⟩ := h
    exact ⟨_, tracks.after a⟩
  have exact_ (p : SdCardDevice × Card) (a : Access) (h : inv p) : Served p a ↔ ¬ Stuck p a := by
    obtain ⟨_, tracks⟩ := h
    exact served_access tracks a
  have begun : inv (start base image writable) := ⟨_, tracks_start base image writable⟩
  constructor
  · exact Guarded.mono step inv (fun p a h _ => keeps p a h) (fun p a h => (exact_ p a h).mp) begun
  · exact Guarded.mono step inv (fun p a h _ => keeps p a h) (fun p a h => (exact_ p a h).mpr) begun

theorem command_at_base (outside : ¬ (0xDE00 ≤ d.m_base ∧ d.m_base ≤ 0xDFFF)) (inHypervisor : Bool)
    (val : Byte) : command d (.ioWrite inHypervisor d.m_base val) = some val :=
  if_pos ⟨outside, BitVec.sub_self d.m_base⟩

/-- Where a write command leaves the registers. -/
theorem registers_after_write {a : Access} (given : command d a = some 0x03) :
    (d.after a).m_base = d.m_base ∧ (d.after a).m_regs = Function.update d.m_regs 0 0x03 := by
  obtain ⟨file, wrote⟩ := writeSector_eq (ready d 0x03) d.sector
  rw [run_write given, report, wrote]
  split <;> exact ⟨rfl, rfl⟩

/-- A write that a read-only card refuses spoils a read of the same sector. -/
theorem refused_then_read (h : Tracks failed d c) (readOnly : c.writable = false)
    (outside : ¬ (0xDE00 ≤ d.m_base ∧ d.m_base ≤ 0xDFFF)) (inside : c.holds (offset d) 512 = true) :
    ¬ Guarded step Served (d, c) [.ioWrite true d.m_base 0x03, .ioWrite true d.m_base 0x02] := by
  intro run
  have served := run.2.1
  have write := command_at_base outside true 0x03
  obtain ⟨tracks, _⟩ := after_write h write
  obtain ⟨base, regs⟩ := registers_after_write write
  have card : (c.write (offset d) d.sectorBuffer).getD c = c := by
    rw [Card.write, readOnly]
    rfl
  have same : step (d, c) (.ioWrite true d.m_base 0x03) = (d.after (.ioWrite true d.m_base 0x03), c) := by
    rw [step, Card.after, if_pos write, card]
  rw [same] at served
  rw [card, readOnly, inside] at tracks
  generalize d.after (.ioWrite true d.m_base 0x03) = d' at served tracks base regs
  have at_ : offset d' = offset d := by
    simp [offset, sector, regs]
  rw [← base] at served outside
  refine (served_access tracks _).mp served ((stuck_iff tracks (command_at_base outside true 0x02)).mpr ⟨?_, ?_⟩)
  · rw [at_, Card.read, if_pos inside, Option.isSome_map]
    exact Option.isSome_of_any inside
  · exact Bool.or_true failed

theorem refused_on_start {data : List Byte} (full : 512 ≤ data.length) :
    ¬ Guarded step Served (start 0xD680 (some data) false) [.ioWrite true 0xD680 0x03, .ioWrite true 0xD680 0x02] := by
  have outside : ¬ (0xDE00 ≤ (0xD680 : BitVec 32) ∧ (0xD680 : BitVec 32) ≤ 0xDFFF) := by decide
  have first : offset (start 0xD680 (some data) false).1 = 0 := by
    simp [offset, sector, start, mountImage, reset]
  have inside : Card.holds ⟨some data, false⟩ (offset (start 0xD680 (some data) false).1) 512 = true := by
    rw [first]
    exact decide_eq_true full
  exact refused_then_read (tracks_start 0xD680 (some data) false) rfl outside inside

/-- A card of one sector. -/
theorem refused_write_fails_read : ¬ Guarded step Served (start 0xD680 (some (List.replicate 512 0x07)) false)
    [.ioWrite true 0xD680 0x03, .ioWrite true 0xD680 0x02] :=
  refused_on_start (by rw [List.length_replicate])

end Mmemu.Guarantees.SectorCommands
