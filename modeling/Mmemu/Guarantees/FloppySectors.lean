import Mathlib.Data.List.GetD
import Mmemu.Library.Runs
import Mmemu.Source.F011Frame

/-!
# F011: sectors are apart, and keep what is written

Ten sectors to a side and two sides to a track lie one after the other. A write command puts
the buffer into the sector the registers name, a read command takes it back, and between the
two the data register goes once around the buffer wherever its pointer stands.
-/
namespace Mmemu.Guarantees.FloppySectors
open Mmemu.Library.GuardedRun Mmemu.Library.LittleEndian Mmemu.Library.Splice
open Mmemu.Source.F011

/-! ## Sectors of an image -/

/-- The geometry registers. -/
structure Triple where
  track : Byte
  side : Byte
  sector : Byte

namespace Triple

/-- Where the sector lies, if the controller accepts the registers. -/
def offset (x : Triple) : Option ℕ := F011Fdc.diskOffset x.track x.sector x.side

/-- A side has ten sectors. -/
def Standard (x : Triple) : Prop := x.sector ≤ 10

/-- Another track, another side (the low bit of its register) or another sector. -/
def Different (x y : Triple) : Prop :=
  x.track ≠ y.track ∨ x.side &&& 1 ≠ y.side &&& 1 ∨ x.sector ≠ y.sector

/-- Both inside the image, one behind the other. -/
def Apart (x y : Triple) : Prop :=
  ∀ a b, x.offset = some a → y.offset = some b →
    a + 512 ≤ D81_SIZE ∧ b + 512 ≤ D81_SIZE ∧ (a + 512 ≤ b ∨ b + 512 ≤ a)

end Triple

theorem offset_eq {x : Triple} {a : ℕ} (accepted : x.offset = some a) :
    x.sector ≠ 0 ∧ a + 512 ≤ D81_SIZE ∧
      a = x.track.toNat * 10240 + (x.side &&& 1).toNat * 5120 + (x.sector.toNat - 1) * 512 := by
  unfold Triple.offset F011Fdc.diskOffset at accepted
  split at accepted
  · cases accepted
  next nonzero =>
    dsimp only at accepted
    split at accepted
    next inside =>
      cases accepted
      exact ⟨nonzero, inside, rfl⟩
    next => cases accepted

theorem side_le (side : Byte) : (side &&& 1).toNat ≤ 1 := by
  have bit : (side &&& 1).toNat = side.toNat % 2 := by
    rw [BitVec.toNat_and]
    exact Nat.and_one_is_mod _
  omega

theorem apart_of_different {x y : Triple} (hx : x.Standard) (hy : y.Standard)
    (different : x.Different y) : x.Apart y := by
  intro a b first second
  obtain ⟨nonzero, inside, at_⟩ := offset_eq first
  obtain ⟨nonzero', inside', at_'⟩ := offset_eq second
  have := side_le x.side
  have := side_le y.side
  have low : x.sector.toNat ≠ 0 := fun none_ => nonzero (BitVec.eq_of_toNat_eq none_)
  have low' : y.sector.toNat ≠ 0 := fun none_ => nonzero' (BitVec.eq_of_toNat_eq none_)
  have high : x.sector.toNat ≤ 10 := hx
  have high' : y.sector.toNat ≤ 10 := hy
  have elsewhere : x.track.toNat ≠ y.track.toNat ∨ (x.side &&& 1).toNat ≠ (y.side &&& 1).toNat ∨
      x.sector.toNat ≠ y.sector.toNat := by
    simpa only [Triple.Different, ne_eq, BitVec.toNat_inj] using different
  refine ⟨inside, inside', ?_⟩
  omega

/-! ## The media -/

section Media
variable {c c' : Core} {d : Fin 2} {off : ℕ} {buf : List Byte}

/-- What a write to the image in a drive does to what the images hold. -/
structure Written (c c' : Core) (d : Fin 2) (off : ℕ) (buf : List Byte) : Prop where
  here : c'.readDisk d off = some buf
  apart : ∀ off', off' + 512 ≤ off ∨ off + 512 ≤ off' → c'.readDisk d off' = c.readDisk d off'
  other : ∀ d' ≠ d, ((c.host d).file.isSome ∨ (c.host d').file.isSome) →
    c'.readDisk d' = c.readDisk d'

theorem readImage_writeImage {sd sd' : SdCardDevice} {at_ : ℕ} (length : buf.length = 512)
    (written : sd.writeImage at_ buf = some sd') (at_' : ℕ) :
    (at_' = at_ → sd'.readImage at_' 512 = some buf) ∧
      (at_' + 512 ≤ at_ ∨ at_ + 512 ≤ at_' → sd'.readImage at_' 512 = sd.readImage at_' 512) ∧
      sd'.mountStartSector = sd.mountStartSector := by
  unfold SdCardDevice.writeImage at written
  cases image : sd.m_imageFile with
  | none => simp [image] at written
  | some data =>
    simp only [image, Option.ite_none_left_eq_some, Option.some.injEq] at written
    obtain ⟨allowed, rfl⟩ := written
    have inside : at_ + buf.length ≤ data.length := by
      by_contra past
      exact allowed (by simp [Nat.lt_of_not_le past])
    unfold SdCardDevice.readImage
    simp only [image, length_splice inside]
    refine ⟨?_, ?_, trivial⟩
    · rintro rfl
      rw [if_neg (by omega), ← length, slice_splice inside]
    · intro apart
      rw [slice_splice_apart inside (by omega)]

theorem written_of_writeDisk (length : buf.length = 512)
    (written : c.writeDisk d off buf = some c') : Written c c' d off buf := by
  unfold Core.writeDisk at written
  cases host : (c.host d).file with
  | some file =>
    rw [host] at written
    simp only [Option.ite_none_left_eq_some, Option.dite_none_right_eq_some,
      Option.some.injEq] at written
    obtain ⟨-, inside, rfl⟩ := written
    have fits : off + buf.length ≤ file.data.length := inside.trans file.large
    refine ⟨?_, ?_, ?_⟩
    · unfold Core.readDisk
      simp only [Function.update_self]
      rw [← length, slice_splice fits]
    · intro off' apart
      unfold Core.readDisk
      simp only [Function.update_self, host]
      rw [slice_splice_apart fits (by omega)]
    · intro d' other _
      funext off'
      unfold Core.readDisk
      simp only [Function.update_of_ne other]
  | none =>
    rw [host] at written
    obtain ⟨sd, image, rfl⟩ := Option.map_eq_some_iff.mp written
    refine ⟨?_, ?_, ?_⟩
    · have same := readImage_writeImage length image ((c.sd.mountStartSector d).toNat * 512 + off)
      unfold Core.readDisk
      simp only [host, same.2.2]
      exact same.1 rfl
    · intro off' apart
      have same := readImage_writeImage length image ((c.sd.mountStartSector d).toNat * 512 + off')
      unfold Core.readDisk
      simp only [host, same.2.2]
      exact same.2.1 (by omega)
    · intro d' other separate
      funext off'
      unfold Core.readDisk
      cases host' : (c.host d').file with
      | some file => rfl
      | none => simp [host, host'] at separate

/-- Which drives have an image, how far it goes and whether it may be written. -/
structure SameShape (c c' : Core) : Prop where
  mounted : c'.mounted = c.mounted
  reach : ∀ d off, (c'.readDisk d off).isSome = (c.readDisk d off).isSome
  files : ∀ d, (c'.host d).file.isSome = (c.host d).file.isSome

theorem sameShape_of_writeDisk (written : c.writeDisk d off buf = some c') : SameShape c c' := by
  unfold Core.writeDisk at written
  cases host : (c.host d).file with
  | some file =>
    rw [host] at written
    simp only [Option.ite_none_left_eq_some, Option.dite_none_right_eq_some,
      Option.some.injEq] at written
    obtain ⟨-, -, rfl⟩ := written
    have files : ∀ d' data, (Function.update c.host d { c.host d with file := some data } d').file.isSome =
        (c.host d').file.isSome := by
      intro d' data
      by_cases same : d' = d
      · simp [same, host]
      · simp [same]
    refine ⟨?_, ?_, fun d' => files d' _⟩
    · funext d'
      unfold Core.mounted
      simp only [files]
      by_cases same : d' = d
      · simp [same]
      · simp [same]
    · intro d' off'
      unfold Core.readDisk
      by_cases same : d' = d
      · simp [same, host]
      · simp [same]
  | none =>
    rw [host] at written
    obtain ⟨sd, image, rfl⟩ := Option.map_eq_some_iff.mp written
    unfold SdCardDevice.writeImage at image
    cases held : c.sd.m_imageFile with
    | none => simp [held] at image
    | some data =>
      simp only [held, Option.ite_none_left_eq_some, Option.some.injEq] at image
      obtain ⟨allowed, rfl⟩ := image
      have inside : (c.sd.mountStartSector d).toNat * 512 + off + buf.length ≤ data.length := by
        by_contra past
        exact allowed (by simp [Nat.lt_of_not_le past])
      refine ⟨?_, ?_, fun _ => rfl⟩
      · funext d'
        unfold Core.mounted
        simp [held]
      · intro d' off'
        unfold Core.readDisk SdCardDevice.readImage
        simp only [held, length_splice inside]
        split
        · rfl
        · split <;> rfl

/-- A disk in a drive that may be written and is there up to the last sector. -/
structure Disk (c : Core) (d : Fin 2) : Prop where
  writable : (c.mounted d).2 = true
  whole : ∀ off, off + 512 ≤ D81_SIZE → (c.readDisk d off).isSome

theorem SameShape.disk (same : SameShape c c') (disk : Disk c d) : Disk c' d := by
  constructor
  · rw [same.mounted]
    exact disk.writable
  · intro off inside
    rw [same.reach]
    exact disk.whole off inside

theorem Disk.writeDisk (disk : Disk c d) (inside : off + 512 ≤ D81_SIZE)
    (length : buf.length = 512) : ∃ c', c.writeDisk d off buf = some c' := by
  have writable := disk.writable
  have reach := disk.whole off inside
  unfold Core.mounted at writable
  unfold Core.readDisk at reach
  unfold Core.writeDisk
  cases host : (c.host d).file with
  | some file =>
    simp only [host, Option.isSome_some, if_true, Bool.not_eq_true'] at writable
    simp [writable, length, inside]
  | none =>
    simp only [host, Option.isSome_none, Bool.false_eq_true, if_false] at writable reach
    unfold SdCardDevice.readImage at reach
    unfold SdCardDevice.writeImage
    cases held : c.sd.m_imageFile with
    | none => simp [held] at reach
    | some data =>
      simp only [held, Option.isSome_some, if_true, Bool.and_eq_true] at writable
      have fits : (c.sd.mountStartSector d).toNat * 512 + off + 512 ≤ data.length := by
        by_contra past
        simp [held, Nat.lt_of_not_le past] at reach
      simp [writable.2, length, fits]

end Media

/-! ## The buffer -/

theorem length_fromPointer (buf : BitVec 9 → Byte) (ptr : BitVec 9) :
    (F011Fdc.fromPointer buf ptr).length = 512 := by
  simp [F011Fdc.fromPointer]

/-- Around the buffer and back: every place holds what it held. -/
theorem intoBuffer_fromPointer (old buf : BitVec 9 → Byte) (ptr : BitVec 9) :
    F011Fdc.intoBuffer old ptr (F011Fdc.fromPointer buf ptr) = buf := by
  funext i
  have inside : (i - ptr).toNat < 512 := (i - ptr).isLt
  unfold F011Fdc.intoBuffer F011Fdc.fromPointer
  rw [List.getD_eq_getElem _ _ (by simpa using inside), List.getElem_map, List.getElem_range,
    BitVec.ofNat_toNat, BitVec.setWidth_eq, add_sub_cancel]

/-- Bytes put in through the data register. -/
def puts (bs : List Byte) : List Access := bs.map (.write 0xD087)

/-- The buffer with bytes put in at the CPU pointer. -/
def filled (c : Core) (bs : List Byte) : BitVec 9 → Byte :=
  fun i => bs.getD ((i ^^^ c.swap) - c.ptrCpu).toNat (c.sd.fdcBuffer i)

theorem filled_put {c : Core} {b : Byte} {rest : List Byte} (short : rest.length < 512) :
    filled (c.put b) rest = filled c (b :: rest) := by
  funext i
  have shift : (i ^^^ c.swap) - (c.ptrCpu + 1) = ((i ^^^ c.swap) - c.ptrCpu) - 1 :=
    sub_add_eq_sub_sub _ _ _
  unfold filled Core.put
  dsimp only
  rw [shift]
  by_cases first : i = c.ptrCpu ^^^ c.swap
  · have place : (i ^^^ c.swap) - c.ptrCpu = 0 := by
      rw [first, BitVec.xor_assoc, BitVec.xor_self, BitVec.xor_zero, sub_self]
    rw [place, first, Function.update_self, List.getD_eq_default]
    · rfl
    · change rest.length ≤ 511
      omega
  · have place : (i ^^^ c.swap) - c.ptrCpu ≠ 0 := by
      intro none_
      apply first
      rw [← sub_eq_zero.mp none_, BitVec.xor_assoc, BitVec.xor_self, BitVec.xor_zero]
    generalize (i ^^^ c.swap) - c.ptrCpu = k at place
    obtain ⟨n, before⟩ : ∃ n, k.toNat = n + 1 :=
      Nat.exists_eq_succ_of_ne_zero fun none_ => place (BitVec.eq_of_toNat_eq none_)
    have after : (k - 1).toNat = n := by
      have := k.isLt
      rw [BitVec.toNat_sub, before]
      change (2 ^ 9 - 1 + (n + 1)) % 2 ^ 9 = n
      omega
    rw [after, before, Function.update_of_ne first, List.getD_cons_succ]

theorem foldl_puts (c : Core) {bs : List Byte} (short : bs.length ≤ 512) :
    (puts bs).foldl Core.access c =
      { c with
        sd := { c.sd with fdcBuffer := filled c bs }
        ptrCpu := c.ptrCpu + BitVec.ofNat 9 bs.length } := by
  induction bs generalizing c with
  | nil =>
    have same : filled c [] = c.sd.fdcBuffer := by
      funext i
      simp [filled]
    simp [puts, same]
  | cons b rest ih =>
    rw [List.length_cons] at short
    have step : (puts (b :: rest)).foldl Core.access c = (puts rest).foldl Core.access (c.put b) := rfl
    rw [step, ih (c.put b) (by omega), filled_put (by omega), List.length_cons, Nat.add_comm,
      BitVec.ofNat_add, ← BitVec.add_assoc]
    rfl

/-- What the data register reads, time after time. -/
def dataReads (f : F011Fdc) : ℕ → List (Option Byte)
  | 0 => []
  | n + 1 => (f.ioRead 0xD087).1 :: dataReads (f.ioRead 0xD087).2 n

theorem dataReads_eq {f : F011Fdc} (h : Settled f) (n : ℕ) :
    dataReads f n = (List.range n).map fun i =>
      some (f.core.sd.fdcBuffer ((f.core.ptrCpu + BitVec.ofNat 9 i) ^^^ f.core.swap)) := by
  induction n generalizing f with
  | zero => rfl
  | succ n ih =>
    obtain ⟨settled, core⟩ := F011Fdc.settled_read h 0xD087
    have next : (f.ioRead 0xD087).2.core = { f.core with ptrCpu := f.core.ptrCpu + 1 } := core
    rw [dataReads, F011Fdc.ioRead_data h, ih settled, next, List.range_succ_eq_map, List.map_cons,
      List.map_map]
    congr 1
    · simp [F011Fdc.core]
    · apply List.map_congr_left
      intro i _
      simp only [Function.comp, Nat.succ_eq_add_one, Nat.add_comm i, BitVec.ofNat_add,
        ← BitVec.add_assoc]
      rfl

/-- At the same pointers, reading gives the bytes put in. -/
theorem filled_at {c : Core} {bs : List Byte} (short : bs.length ≤ 512) :
    ((List.range bs.length).map fun i =>
      some (filled c bs ((c.ptrCpu + BitVec.ofNat 9 i) ^^^ c.swap))) = bs.map some := by
  apply List.ext_getElem
  · simp
  · intro i first _
    have inside : i < bs.length := by simpa using first
    simp only [List.getElem_map, List.getElem_range, Option.some.injEq]
    unfold filled
    have place : (((c.ptrCpu + BitVec.ofNat 9 i) ^^^ c.swap ^^^ c.swap) - c.ptrCpu).toNat = i := by
      rw [BitVec.xor_assoc, BitVec.xor_self, BitVec.xor_zero, BitVec.add_comm, BitVec.add_sub_cancel,
        BitVec.toNat_ofNat]
      exact Nat.mod_eq_of_lt (by omega)
    rw [place, List.getD_eq_getElem _ _ inside]

/-! ## Accesses -/

namespace Triple

/-- The registers written one after the other. -/
def aim (x : Triple) : List Access :=
  [.write 0xD084 x.track, .write 0xD085 x.sector, .write 0xD086 x.side]

end Triple

section Accesses
variable {c c' : Core} {d : Fin 2} {x : Triple}

/-- What the sector registers name. -/
def triple (c : Core) : Triple := ⟨c.track, c.side, c.sector⟩

def stored (c : Core) (d : Fin 2) (x : Triple) : Option (List Byte) := x.offset.bind (c.readDisk d)

/-- A write command. -/
def Stores : Access → Prop
  | .read _ => False
  | .write addr val =>
    ¬(addr < 0xD080 ∨ 0xD09F < addr) ∧ (addr &&& 0x1F).toNat = 0x01 ∧ (val &&& 0xF8).toNat = 0x80

/-- Nothing but the buffer of the media has changed. -/
structure SameMedia (c c' : Core) : Prop where
  host : c'.host = c.host
  sd : ∃ fdcBuffer, c'.sd = { c.sd with fdcBuffer }

theorem SameMedia.refl (c : Core) : SameMedia c c := ⟨rfl, _, rfl⟩

theorem SameMedia.mounted (same : SameMedia c c') : c'.mounted = c.mounted := by
  obtain ⟨host, buf, sd⟩ := same
  unfold Core.mounted
  rw [host, sd]

theorem SameMedia.readDisk (same : SameMedia c c') : c'.readDisk = c.readDisk := by
  obtain ⟨host, buf, sd⟩ := same
  unfold Core.readDisk
  rw [host, sd]
  rfl

theorem SameMedia.shape (same : SameMedia c c') : SameShape c c' where
  mounted := same.mounted
  reach d off := by rw [same.readDisk]
  files d := by rw [same.host]

theorem sameMedia_load (c : Core) : SameMedia c c.load := by
  unfold Core.load
  split
  · exact ⟨rfl, _, rfl⟩
  · exact SameMedia.refl c

theorem sameMedia_command (c : Core) {val : Byte} (other : (val &&& 0xF8).toNat ≠ 0x80) :
    SameMedia c (c.command val) := by
  unfold Core.command
  generalize (val &&& 0xF8).toNat = kind at other
  split
  · exact sameMedia_load c
  · exact absurd rfl other
  · split <;> exact ⟨rfl, _, rfl⟩
  · exact SameMedia.refl c

/-- Only write commands reach the media. -/
theorem access_cases (c : Core) (e : Access) :
    (¬Stores e ∧ SameMedia c (c.access e)) ∨ (Stores e ∧ c.access e = c.store) := by
  cases e with
  | read addr =>
    refine .inl ⟨id, ?_⟩
    unfold Core.access
    dsimp only
    split
    · exact SameMedia.refl c
    · split <;> exact ⟨rfl, _, rfl⟩
  | write addr val =>
    by_cases stores : Stores (.write addr val)
    · refine .inr ⟨stores, ?_⟩
      obtain ⟨here, register, kind⟩ := stores
      simp only [Core.access, if_neg here, register, Core.command, kind]
    · refine .inl ⟨stores, ?_⟩
      unfold Core.access
      dsimp only
      split
      next => exact SameMedia.refl c
      next here =>
        have kind : (addr &&& 0x1F).toNat = 0x01 → (val &&& 0xF8).toNat ≠ 0x80 :=
          fun register kind => stores ⟨here, register, kind⟩
        generalize (addr &&& 0x1F).toNat = register at kind
        split
        next => exact ⟨rfl, _, rfl⟩
        next => exact sameMedia_command c (kind rfl)
        next => exact ⟨rfl, _, rfl⟩
        next => exact ⟨rfl, _, rfl⟩
        next => exact ⟨rfl, _, rfl⟩
        next => exact ⟨rfl, _, rfl⟩
        next => exact SameMedia.refl c

theorem store_cases (c : Core) :
    c.store = c ∨ c.drive < 2 ∧ ∃ off, c.offset = some off ∧
      c.writeDisk c.sel off (F011Fdc.fromPointer c.sd.fdcBuffer c.ptrFdc) = some c.store := by
  unfold Core.store
  dsimp only
  split
  next able =>
    cases found : c.offset.bind fun off =>
      c.writeDisk c.sel off (F011Fdc.fromPointer c.sd.fdcBuffer c.ptrFdc) with
    | none => exact .inl rfl
    | some c' =>
      obtain ⟨off, accepted, written⟩ := Option.bind_eq_some_iff.mp found
      exact .inr ⟨able.1, off, accepted, written⟩
  next => exact .inl rfl

/-- A sector that a write command to `x` in drive `d` is not to reach: another one of the disk, or
one of a disk in another file. -/
def Unreached (c : Core) (d : Fin 2) (x : Triple) (d' : Fin 2) (y : Triple) : Prop :=
  if d' = d then x.Standard ∧ y.Standard ∧ x.Different y
  else (c.host d').file.isSome ∨ (c.host d).file.isSome

theorem stored_store {y : Triple} (unreached : c.drive < 2 → Unreached c c.sel (triple c) d y) :
    stored c.store d y = stored c d y := by
  rcases store_cases c with none_ | ⟨drive, off, accepted, written⟩
  · rw [none_]
  · have done := written_of_writeDisk (length_fromPointer ..) written
    have apart := unreached drive
    unfold Unreached at apart
    unfold stored
    cases at_ : y.offset with
    | none => rfl
    | some off' =>
      by_cases same : d = c.sel
      · rw [if_pos same] at apart
        obtain ⟨-, -, separate⟩ := apart_of_different apart.1 apart.2.1 apart.2.2 off off' accepted at_
        rw [same]
        exact done.apart off' (by omega)
      · rw [if_neg same] at apart
        rw [done.other d same apart.symm]

theorem shape_store (c : Core) : SameShape c c.store := by
  rcases store_cases c with none_ | ⟨-, off, -, written⟩
  · rw [none_]
    exact (SameMedia.refl c).shape
  · exact sameShape_of_writeDisk written

theorem shape_access (c : Core) (e : Access) : SameShape c (c.access e) := by
  rcases access_cases c e with ⟨-, same⟩ | ⟨-, store⟩
  · exact same.shape
  · rw [store]
    exact shape_store c

/-- The access is no write command, or one that does not reach the sector. -/
def Spares (d : Fin 2) (y : Triple) (c : Core) (e : Access) : Prop :=
  Stores e → c.drive < 2 → Unreached c c.sel (triple c) d y

theorem stored_access {y : Triple} {e : Access} (spares : Spares d y c e) :
    stored (c.access e) d y = stored c d y := by
  rcases access_cases c e with ⟨-, same⟩ | ⟨stores, store⟩
  · unfold stored
    rw [same.readDisk]
  · rw [store]
    exact stored_store (spares stores)

theorem core_store (c : Core) :
    c.store = { c with host := c.store.host, sd := c.store.sd } ∧
      c.store.sd.fdcBuffer = c.sd.fdcBuffer := by
  rcases store_cases c with none_ | ⟨-, off, -, written⟩
  · rw [none_]
    exact ⟨rfl, rfl⟩
  · generalize c.store = c' at written
    unfold Core.writeDisk at written
    split at written
    · simp only [Option.ite_none_left_eq_some, Option.dite_none_right_eq_some,
        Option.some.injEq] at written
      obtain ⟨-, -, rfl⟩ := written
      exact ⟨rfl, rfl⟩
    · obtain ⟨sd, image, rfl⟩ := Option.map_eq_some_iff.mp written
      unfold SdCardDevice.writeImage at image
      split at image
      · cases image
      · simp only [Option.ite_none_left_eq_some, Option.some.injEq] at image
        obtain ⟨-, rfl⟩ := image
        exact ⟨rfl, rfl⟩

/-- A sector command on these registers will not be refused. -/
structure Ready (c : Core) (x : Triple) : Prop where
  drive : c.drive < 2
  accepted : x.offset.isSome
  disk : Disk c c.sel

theorem stored_store_here (ready : Ready c (triple c)) :
    stored c.store c.sel (triple c) =
      some (F011Fdc.fromPointer c.sd.fdcBuffer c.ptrFdc) := by
  obtain ⟨off, at_⟩ := Option.isSome_iff_exists.mp ready.accepted
  have length := length_fromPointer c.sd.fdcBuffer c.ptrFdc
  obtain ⟨c', written⟩ := ready.disk.writeDisk (offset_eq at_).2.1 length
  have offset : c.offset = some off := at_
  have store : c.store = c' := by
    unfold Core.store
    simp only [ready.drive, ready.disk.writable, and_self, if_true, offset, Option.bind_some,
      written, Option.getD_some]
  unfold stored
  rw [store, at_]
  exact (written_of_writeDisk length written).here

theorem load_of_stored {data : List Byte} (drive : c.drive < 2) (mounted : (c.mounted c.sel).1 = true)
    (held : stored c c.sel (triple c) = some data) :
    c.load = { c with
      sd := { c.sd with fdcBuffer := F011Fdc.intoBuffer c.sd.fdcBuffer c.ptrFdc data } } := by
  have found : c.offset.bind (c.readDisk c.sel) = some data := held
  unfold Core.load
  simp only [drive, mounted, and_self, if_true, found]

/-! ## Into a sector and back -/

/-- Bytes put in, and a write command to a sector. -/
def Triple.stores (x : Triple) (bs : List Byte) (cmd : Byte) : List Access :=
  puts bs ++ (x.aim ++ [.write 0xD081 cmd])

/-- A read command. -/
def Triple.loads (x : Triple) (cmd : Byte) : List Access := x.aim ++ [.write 0xD081 cmd]

def aimed (c : Core) (x : Triple) : Core :=
  { c with track := x.track, sector := x.sector, side := x.side }

theorem foldl_aim (c : Core) (x : Triple) : x.aim.foldl Core.access c = aimed c x := rfl

/-- The core at the write command. -/
def laden (c : Core) (x : Triple) (bs : List Byte) : Core :=
  aimed { c with
    sd := { c.sd with fdcBuffer := filled c bs }
    ptrCpu := c.ptrCpu + BitVec.ofNat 9 bs.length } x

theorem access_writes {cmd : Byte} (write : cmd &&& 0xF8 = 0x80) :
    c.access (.write 0xD081 cmd) = c.store := by
  change c.command cmd = c.store
  unfold Core.command
  rw [write]
  rfl

theorem access_reads {cmd : Byte} (read : cmd &&& 0xF8 = 0x40) :
    c.access (.write 0xD081 cmd) = c.load := by
  change c.command cmd = c.load
  unfold Core.command
  rw [read]
  rfl

theorem foldl_stores {bs : List Byte} {cmd : Byte} (short : bs.length ≤ 512)
    (write : cmd &&& 0xF8 = 0x80) (c : Core) (x : Triple) :
    (x.stores bs cmd).foldl Core.access c = (laden c x bs).store := by
  rw [Triple.stores, List.foldl_append, List.foldl_append, foldl_puts c short, foldl_aim]
  exact access_writes write

theorem foldl_loads {cmd : Byte} (read : cmd &&& 0xF8 = 0x40) (c : Core) (x : Triple) :
    (x.loads cmd).foldl Core.access c = (aimed c x).load := by
  rw [Triple.loads, List.foldl_append, foldl_aim]
  exact access_reads read

/-- The same drive is selected, and the pointers stand where they stood. -/
structure Back (c c' : Core) : Prop where
  drive : c'.drive = c.drive
  ptrCpu : c'.ptrCpu = c.ptrCpu
  ptrFdc : c'.ptrFdc = c.ptrFdc
  swap : c'.swap = c.swap

theorem sameMedia_laden (c : Core) (x : Triple) (bs : List Byte) : SameMedia c (laden c x bs) :=
  ⟨rfl, _, rfl⟩

theorem stored_laden (c : Core) (x : Triple) (bs : List Byte) (d : Fin 2) (y : Triple) :
    stored (laden c x bs) d y = stored c d y := by
  unfold stored
  rw [(sameMedia_laden c x bs).readDisk]

/-- What the sector holds and the shape of the media, all along a run that spares it. -/
theorem kept_run {data : List Byte} {es : List Access} {y : Triple}
    (held : stored c d y = some data) (run : Guarded Core.access (Spares d y) c es) :
    stored (es.foldl Core.access c) d y = some data ∧
      (es.foldl Core.access c).mounted = c.mounted := by
  refine foldl_invariant Core.access (Spares d y)
    (fun c' => stored c' d y = some data ∧ c'.mounted = c.mounted) ?_ c es ⟨held, rfl⟩ run
  intro c' e same spares
  exact ⟨(stored_access spares).trans same.1, (shape_access c' e).mounted.trans same.2⟩

theorem loaded {bs : List Byte} {cmd : Byte} {b : Core} (short : bs.length ≤ 512)
    (read : cmd &&& 0xF8 = 0x40) (ready : Ready c x) (back : Back c b) (mounted : b.mounted = c.mounted)
    (held : stored b c.sel x = some (F011Fdc.fromPointer (filled c bs) c.ptrFdc)) :
    ((List.range bs.length).map fun i =>
      some (((x.loads cmd).foldl Core.access b).sd.fdcBuffer
        ((((x.loads cmd).foldl Core.access b).ptrCpu + BitVec.ofNat 9 i) ^^^
          ((x.loads cmd).foldl Core.access b).swap))) = bs.map some := by
  have sel : b.sel = c.sel := by
    unfold Core.sel
    simp only [back.drive]
  have there : stored (aimed b x) (aimed b x).sel (triple (aimed b x)) =
      some (F011Fdc.fromPointer (filled c bs) c.ptrFdc) := by
    rw [← held, ← sel]
    rfl
  have drive : (aimed b x).drive < 2 := by
    change b.drive < 2
    rw [back.drive]
    exact ready.drive
  have present : ((aimed b x).mounted (aimed b x).sel).1 = true := by
    change (b.mounted b.sel).1 = true
    rw [mounted, sel]
    exact F011Fdc.mounted_of_writable _ _ ready.disk.writable
  rw [foldl_loads read, load_of_stored drive present there]
  dsimp only [aimed]
  rw [back.ptrCpu, back.ptrFdc, back.swap, intoBuffer_fromPointer]
  exact filled_at short

end Accesses

section Runs
variable {f : F011Fdc} {x : Triple} {bs : List Byte} {c₁ c₂ : Byte}

theorem guarded_core (h : Settled f) {d : Fin 2} {y : Triple} {es : List Access}
    (run : Guarded F011Fdc.after (fun f e => Spares d y f.core e) f es) :
    Guarded Core.access (Spares d y) f.core es := by
  induction es generalizing f with
  | nil => trivial
  | cons e rest ih =>
    obtain ⟨settled, core⟩ := F011Fdc.settled_access h e
    refine ⟨run.1, ?_⟩
    rw [← core]
    exact ih settled run.2

/-- Bytes put in at a state, a write command and later a read command with the same registers. -/
structure Kept (f : F011Fdc) (x : Triple) (bs : List Byte) (c₁ c₂ : Byte) : Prop where
  /-- The write command changes no other sector. -/
  others : ∀ d y, Unreached f.core f.core.sel x d y →
    stored ((x.stores bs c₁).foldl F011Fdc.after f).core d y = stored f.core d y
  /-- A whole sector leaves the pointer where it was. -/
  whole : bs.length = 512 → Back f.core ((x.stores bs c₁).foldl F011Fdc.after f).core
  /-- Whatever happens between the two that spares the sector, with the pointers where they were
  at the read command the bytes come back. It changes no sector. -/
  returned : Ready f.core x → ∀ between,
    Guarded F011Fdc.after (fun f' e => Spares f.core.sel x f'.core e)
      ((x.stores bs c₁).foldl F011Fdc.after f) between →
    ∀ f', between.foldl F011Fdc.after ((x.stores bs c₁).foldl F011Fdc.after f) = f' →
      Back f.core f'.core →
        dataReads ((x.loads c₂).foldl F011Fdc.after f') bs.length = bs.map some ∧
          ∀ d y, stored ((x.loads c₂).foldl F011Fdc.after f').core d y = stored f'.core d y

theorem kept_of_settled (h : Settled f) (short : bs.length ≤ 512) (write : c₁ &&& 0xF8 = 0x80)
    (read : c₂ &&& 0xF8 = 0x40) : Kept f x bs c₁ c₂ := by
  obtain ⟨settled, core⟩ := F011Fdc.settled_run h (x.stores bs c₁)
  rw [foldl_stores short write] at core
  constructor
  · intro d y unreached
    rw [core, stored_store (fun _ => ?_), stored_laden]
    exact unreached
  · intro whole
    rw [core, (core_store _).1]
    refine ⟨rfl, ?_, rfl, rfl⟩
    change f.core.ptrCpu + BitVec.ofNat 9 bs.length = f.core.ptrCpu
    rw [whole]
    exact add_zero _
  · rintro ready between run f' rfl back
    obtain ⟨settled', core'⟩ := F011Fdc.settled_run settled between
    obtain ⟨settled'', core''⟩ := F011Fdc.settled_run settled' (x.loads c₂)
    have shape := (sameMedia_laden f.core x bs).shape
    have laden_ready : Ready (laden f.core x bs) (triple (laden f.core x bs)) :=
      ⟨ready.drive, ready.accepted, shape.disk ready.disk⟩
    have held := stored_store_here laden_ready
    rw [← core] at held
    obtain ⟨held', mounted⟩ := kept_run held (guarded_core settled run)
    rw [← core'] at held' mounted
    have mounted' : ((x.stores bs c₁).foldl F011Fdc.after f).core.mounted = f.core.mounted := by
      rw [core, (shape_store _).mounted]
      exact shape.mounted
    refine ⟨?_, fun d y => ?_⟩
    · rw [dataReads_eq settled'', core'']
      exact loaded short read ready back (mounted.trans mounted') held'
    · rw [core'', foldl_loads read]
      unfold stored
      rw [(sameMedia_load _).readDisk]
      rfl

/-- Where the pointers stood at the start of the buffer, the command that resets them brings them
back. -/
theorem back_of_reset (h : Settled f) (short : bs.length ≤ 512) (write : c₁ &&& 0xF8 = 0x80)
    (start : f.core.ptrCpu = 0 ∧ f.core.ptrFdc = 0) :
    Back f.core ((([.write 0xD081 0x01] : List Access).foldl F011Fdc.after
      ((x.stores bs c₁).foldl F011Fdc.after f)).core) := by
  obtain ⟨settled, core⟩ := F011Fdc.settled_run h (x.stores bs c₁)
  rw [(F011Fdc.settled_run settled _).2, core, foldl_stores short write, (core_store _).1]
  exact ⟨rfl, start.1.symm, start.2.symm, rfl⟩

/-- The sectors of a disk lie apart, and from any state reached after a reset a sector keeps what
a write command puts into it. -/
theorem apart_and_kept (g : F011Fdc) (es : List Access) (x : Triple) (bs : List Byte) (c₁ c₂ : Byte)
    (short : bs.length ≤ 512) (write : c₁ &&& 0xF8 = 0x80) (read : c₂ &&& 0xF8 = 0x40) :
    (∀ y, x.Standard → y.Standard → x.Different y → x.Apart y) ∧
      Kept (es.foldl F011Fdc.after g.reset) x bs c₁ c₂ := by
  constructor
  · intro y hx hy different
    exact apart_of_different hx hy different
  · exact kept_of_settled (F011Fdc.settled_run (F011Fdc.settled_reset g) es).1 short write read

end Runs

/-- An empty disk in the first drive. -/
def inserted : F011Fdc where
  m_sd := ⟨none, false, 0, fun _ => 0, fun _ => 0⟩
  m_drv _ := ⟨0, 0, 0, false, false,
    ⟨some ⟨List.replicate D81_SIZE 0, (List.length_replicate ..).ge⟩, false, 1⟩, 0⟩
  m_drive := 0
  m_control := 0
  m_cmd := 0
  m_track := 0
  m_sector := 0
  m_side := 0
  m_clock := 0
  m_step := 0
  m_curCmd := -1
  m_ptrCpu := 0
  m_ptrFdc := 0
  m_swapMask := 0

theorem core_reset_inserted : inserted.reset.core = inserted.core :=
  F011Fdc.core_refreshMedia _

/-- Three bytes through the last sector of the disk. -/
theorem apart_and_kept_last :
    dataReads ((Triple.loads ⟨79, 1, 10⟩ 0x40).foldl F011Fdc.after
      (([.write 0xD081 0x01] : List Access).foldl F011Fdc.after
        ((Triple.stores ⟨79, 1, 10⟩ [1, 2, 3] 0x84).foldl F011Fdc.after inserted.reset))) 3 =
      [some 1, some 2, some 3] := by
  have short : ([1, 2, 3] : List Byte).length ≤ 512 := by decide
  have ready : Ready inserted.reset.core ⟨79, 1, 10⟩ := by
    rw [core_reset_inserted]
    exact ⟨by decide, by decide, rfl, fun _ _ => rfl⟩
  have start : inserted.reset.core.ptrCpu = 0 ∧ inserted.reset.core.ptrFdc = 0 := by
    rw [core_reset_inserted]
    exact ⟨rfl, rfl⟩
  have spares : ∀ f' : F011Fdc,
      Spares inserted.reset.core.sel ⟨79, 1, 10⟩ f'.core (.write 0xD081 0x01) := by
    rintro f' ⟨-, -, kind⟩
    simp at kind
  have kept := (apart_and_kept inserted [] ⟨79, 1, 10⟩ [1, 2, 3] 0x84 0x40 short (by decide)
    (by decide)).2
  exact (kept.returned ready [.write 0xD081 0x01] ⟨spares _, trivial⟩ _ rfl
    (back_of_reset (F011Fdc.settled_reset inserted) short (by decide) start)).1

/-- Two values of the side register are one side. -/
theorem not_apart_side : ¬∀ x y : Triple, x ≠ y → x.Apart y := by
  intro apart
  have different : (⟨0, 0, 1⟩ : Triple) ≠ ⟨0, 2, 1⟩ := by simp
  have overlap := apart ⟨0, 0, 1⟩ ⟨0, 2, 1⟩ different 0 0 (by decide) (by decide)
  omega

end Mmemu.Guarantees.FloppySectors
