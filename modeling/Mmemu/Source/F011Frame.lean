import Mmemu.Source.F011

/-!
# F011: what an access does

Commands complete at once, so between two accesses no drive is busy. Without the status bits
what is left of the controller is the media, the geometry registers and the buffer with its
pointers, and an access is a function of these.
-/
namespace Mmemu.Source.F011
open Mmemu.Library.LittleEndian Mmemu.Library.Splice

/-- The controller without status bits, head positions and registers that only read back. -/
structure Core where
  sd : SdCardDevice
  host : Fin 2 → HostFile
  drive : BitVec 3
  track : Byte
  sector : Byte
  side : Byte
  ptrCpu : BitVec 9
  ptrFdc : BitVec 9
  swap : BitVec 9

def F011Fdc.core (f : F011Fdc) : Core where
  sd := f.m_sd
  host := fun d => (f.m_drv d).host
  drive := f.m_drive
  track := f.m_track
  sector := f.m_sector
  side := f.m_side
  ptrCpu := f.m_ptrCpu
  ptrFdc := f.m_ptrFdc
  swap := f.m_swapMask

inductive Access where
  | read (addr : BitVec 32)
  | write (addr : BitVec 32) (val : Byte)

def F011Fdc.after (f : F011Fdc) : Access → F011Fdc
  | .read addr => (f.ioRead addr).2
  | .write addr val => (f.ioWrite addr val).2

namespace Core

def sel (c : Core) : Fin 2 := ⟨c.drive.toNat % 2, Nat.mod_lt _ Nat.two_pos⟩

/-- Present and writable. -/
def mounted (c : Core) (d : Fin 2) : Bool × Bool :=
  if (c.host d).file.isSome then (true, !(c.host d).fileReadOnly)
  else if c.sd.m_imageFile.isSome then
    let imgP : Byte := if d = 0 then 0x03 else 0x18
    let we : Byte := if d = 0 then 0x04 else 0x20
    (c.sd.mountFlags &&& imgP == imgP,
      c.sd.mountFlags &&& imgP == imgP && c.sd.mountFlags &&& we != 0 && c.sd.m_writable)
  else (false, false)

def readDisk (c : Core) (d : Fin 2) (off : ℕ) : Option (List Byte) :=
  match (c.host d).file with
  | some file => some (slice file.data off 512)
  | none => c.sd.readImage ((c.sd.mountStartSector d).toNat * 512 + off) 512

def writeDisk (c : Core) (d : Fin 2) (off : ℕ) (buf : List Byte) : Option Core :=
  match (c.host d).file with
  | some file =>
    if (c.host d).fileReadOnly then none
    else if h : off + buf.length ≤ D81_SIZE then
      let data : D81File :=
        ⟨splice file.data off buf, file.large_splice h⟩
      some { c with host := Function.update c.host d { c.host d with file := some data } }
    else none
  | none =>
    (c.sd.writeImage ((c.sd.mountStartSector d).toNat * 512 + off) buf).map fun sd =>
      { c with sd := sd }

def offset (c : Core) : Option ℕ := F011Fdc.diskOffset c.track c.sector c.side

def load (c : Core) : Core :=
  match if c.drive < 2 ∧ (c.mounted c.sel).1 then c.offset.bind (c.readDisk c.sel) else none with
  | some tmp =>
    { c with sd := { c.sd with fdcBuffer := F011Fdc.intoBuffer c.sd.fdcBuffer c.ptrFdc tmp } }
  | none => c

def store (c : Core) : Core :=
  let tmp := F011Fdc.fromPointer c.sd.fdcBuffer c.ptrFdc
  (if c.drive < 2 ∧ (c.mounted c.sel).2 then c.offset.bind fun off => c.writeDisk c.sel off tmp
    else none).getD c

def command (c : Core) (val : Byte) : Core :=
  match (val &&& 0xF8).toNat with
  | 0x40 => c.load
  | 0x80 => c.store
  | 0x00 => if val &&& 1 ≠ 0 then { c with ptrCpu := 0, ptrFdc := 0 } else c
  | _ => c

def put (c : Core) (val : Byte) : Core where
  __ := c
  sd := { c.sd with fdcBuffer := Function.update c.sd.fdcBuffer (c.ptrCpu ^^^ c.swap) val }
  ptrCpu := c.ptrCpu + 1

def access (c : Core) : Access → Core
  | .read addr =>
    if addr < 0xD080 ∨ 0xD09F < addr then c
    else if (addr &&& 0x1F).toNat = 0x07 then { c with ptrCpu := c.ptrCpu + 1 }
    else c
  | .write addr val =>
    if addr < 0xD080 ∨ 0xD09F < addr then c
    else match (addr &&& 0x1F).toNat with
      | 0x00 =>
        { c with drive := val.setWidth 3, swap := if val &&& 0x10 ≠ 0 then 0x100 else 0 }
      | 0x01 => c.command val
      | 0x04 => { c with track := val }
      | 0x05 => { c with sector := val }
      | 0x06 => { c with side := val }
      | 0x07 => c.put val
      | _ => c

end Core

/-! ## Status bits -/

theorem and_clear {a m k : Byte} (clear : a &&& k = 0) : a &&& m &&& k = 0 := by
  rw [BitVec.and_assoc, BitVec.and_comm m, ← BitVec.and_assoc, clear]
  simp

theorem or_clear {a m k : Byte} (clear : a &&& k = 0) (apart : m &&& k = 0) : (a ||| m) &&& k = 0 := by
  rw [BitVec.and_comm, BitVec.and_or_distrib_left, BitVec.and_comm k a, BitVec.and_comm k m, clear,
    apart]
  simp

theorem clear_self (a k : Byte) : a &&& ~~~k &&& k = 0 := by
  rw [BitVec.and_assoc, BitVec.and_comm (~~~k), BitVec.and_not_self]
  simp

/-- The status of a drive that is not busy, and is protected only if it cannot be written. -/
structure Quiet (statA : Byte) (canWrite : Bool) : Prop where
  busy : statA &&& SA_BUSY = 0
  prot : canWrite = true → statA &&& SA_PROT = 0

theorem Quiet.or {a m : Byte} {w : Bool} (h : Quiet a w) (busy : m &&& SA_BUSY = 0)
    (prot : m &&& SA_PROT = 0) : Quiet (a ||| m) w :=
  ⟨or_clear h.busy busy, fun writable => or_clear (h.prot writable) prot⟩

theorem Quiet.and {a : Byte} {w : Bool} (h : Quiet a w) (m : Byte) : Quiet (a &&& m) w :=
  ⟨and_clear h.busy, fun writable => and_clear (h.prot writable)⟩

def F011Fdc.QuietDrives (f : F011Fdc) : Prop :=
  ∀ d, Quiet (f.m_drv d).statA (f.m_drv d).canWrite

/-- Between accesses. -/
structure Settled (f : F011Fdc) : Prop where
  quiet : f.QuietDrives
  idle : f.m_curCmd = -1

namespace F011Fdc
variable {f : F011Fdc}

@[simp] theorem core_sel (f : F011Fdc) : f.core.sel = f.sel := rfl

theorem m_drv_setDrv (f : F011Fdc) (v : Drive) :
    (f.setDrv v).m_drv = Function.update f.m_drv f.sel v := rfl

theorem core_setDrv {v : Drive} (host : v.host = f.drv.host) : (f.setDrv v).core = f.core := by
  unfold core
  congr 1
  funext d
  rw [m_drv_setDrv]
  by_cases same : d = f.sel
  · rw [same, Function.update_self, host]
    rfl
  · rw [Function.update_of_ne same]

@[simp] theorem drv_setDrv (f : F011Fdc) (v : Drive) : (f.setDrv v).drv = v :=
  Function.update_self ..

theorem quiet_setDrv {v : Drive} (h : f.QuietDrives) (quiet : Quiet v.statA v.canWrite) :
    (f.setDrv v).QuietDrives := by
  intro d
  rw [m_drv_setDrv]
  by_cases same : d = f.sel
  · rw [same, Function.update_self]
    exact quiet
  · rw [Function.update_of_ne same]
    exact h d

/-! ## Media -/

theorem host_refreshMedia (sd : SdCardDevice) (d : Fin 2) (v : Drive) :
    (v.refreshMedia sd d).host = v.host := by
  unfold Drive.refreshMedia Drive.setDisk
  dsimp only
  split
  · cases (v.media sd d).1 <;> cases (v.media sd d).2.1 <;> rfl
  · rfl

theorem core_refreshMedia (f : F011Fdc) : f.refreshMedia.core = f.core := by
  unfold core refreshMedia
  dsimp only
  congr 1
  funext d
  exact host_refreshMedia f.m_sd d (f.m_drv d)

theorem quiet_setDisk {v : Drive} (h : v.statA &&& SA_BUSY = 0) (haveDisk canWrite : Bool) :
    Quiet (v.setDisk haveDisk canWrite).statA (v.setDisk haveDisk canWrite).canWrite := by
  unfold Drive.setDisk
  cases haveDisk <;> cases canWrite
  · exact ⟨or_clear (and_clear h) (by decide), nofun⟩
  · exact ⟨and_clear (and_clear h), fun _ => clear_self _ _⟩
  · exact ⟨or_clear (or_clear h (by decide)) (by decide), nofun⟩
  · exact ⟨and_clear (or_clear h (by decide)), fun _ => clear_self _ _⟩

theorem quiet_refreshMedia (h : f.QuietDrives) : f.refreshMedia.QuietDrives := by
  intro d
  have busy := (h d).busy
  change Quiet ((f.m_drv d).refreshMedia f.m_sd d).statA
    ((f.m_drv d).refreshMedia f.m_sd d).canWrite
  unfold Drive.refreshMedia
  dsimp only
  split
  · exact quiet_setDisk (by exact busy) _ _
  · exact h d

/-- The two flags of a drive tell what is mounted. -/
def Fresh (f : F011Fdc) : Prop :=
  ∀ d, ((f.m_drv d).haveDisk, (f.m_drv d).canWrite) = f.core.mounted d

theorem mounted_eq (f : F011Fdc) (d : Fin 2) :
    f.core.mounted d = (((f.m_drv d).media f.m_sd d).1, ((f.m_drv d).media f.m_sd d).2.1) := by
  unfold Core.mounted Drive.media core
  dsimp only
  split
  · rfl
  · split <;> rfl

theorem setDisk_flags (v : Drive) (haveDisk canWrite : Bool) :
    ((v.setDisk haveDisk canWrite).haveDisk, (v.setDisk haveDisk canWrite).canWrite) =
      (haveDisk, canWrite) := by
  cases haveDisk <;> cases canWrite <;> rfl

theorem fresh_refreshMedia (f : F011Fdc) : f.refreshMedia.Fresh := by
  intro d
  rw [core_refreshMedia, mounted_eq]
  change (((f.m_drv d).refreshMedia f.m_sd d).haveDisk,
    ((f.m_drv d).refreshMedia f.m_sd d).canWrite) = _
  unfold Drive.refreshMedia
  dsimp only
  split
  next => exact setDisk_flags ..
  next same =>
    simp only [not_or, not_not] at same
    rw [same.1, same.2.1]

theorem fresh_setDrv {v : Drive} (fresh : f.Fresh) (host : v.host = f.drv.host)
    (flags : v.haveDisk = f.drv.haveDisk ∧ v.canWrite = f.drv.canWrite) : (f.setDrv v).Fresh := by
  intro d
  rw [core_setDrv host, ← fresh d]
  rw [m_drv_setDrv]
  by_cases same : d = f.sel
  · rw [same, Function.update_self, flags.1, flags.2]
    rfl
  · rw [Function.update_of_ne same]

/-! ## Sector commands -/

theorem core_finish (f : F011Fdc) (ok : Bool) (request : Byte) :
    (f.finish ok request).core = f.core := by
  cases ok <;> exact core_setDrv rfl

theorem quiet_finish (h : f.QuietDrives) (ok : Bool) (request : Byte) :
    (f.finish ok request).QuietDrives := by
  have here := h f.sel
  cases ok
  · exact quiet_setDrv h (here.or (by decide) (by decide))
  · exact quiet_setDrv h ((here.or (by decide) (by decide)).and _)

theorem core_readSector (fresh : f.Fresh) : f.readSector.core = f.core.load := by
  have have_ : f.drv.haveDisk = (f.core.mounted f.sel).1 := congrArg Prod.fst (fresh f.sel)
  unfold readSector Core.load
  rw [have_]
  change (match if f.m_drive < 2 ∧ (f.core.mounted f.sel).1 = true then
      (diskOffset f.m_track f.m_sector f.m_side).bind (f.readDisk f.sel) else none with
    | some tmp => _ | none => _ : F011Fdc).core =
    match if f.m_drive < 2 ∧ (f.core.mounted f.sel).1 = true then
      (diskOffset f.m_track f.m_sector f.m_side).bind (f.readDisk f.sel) else none with
    | some tmp => _ | none => _
  generalize (if f.m_drive < 2 ∧ (f.core.mounted f.sel).1 = true then
      (diskOffset f.m_track f.m_sector f.m_side).bind (f.readDisk f.sel) else none) = tmp
  cases tmp with
  | none => exact core_finish ..
  | some tmp => exact core_finish ..

theorem quiet_readSector (h : f.QuietDrives) : f.readSector.QuietDrives := by
  unfold readSector
  dsimp only
  split
  · exact quiet_finish (f := { f with m_sd := _ }) h true _
  · exact quiet_finish h false _

theorem core_writeDisk (f : F011Fdc) (d : Fin 2) (off : ℕ) (buf : List Byte) :
    (f.writeDisk d off buf).map core = f.core.writeDisk d off buf := by
  unfold writeDisk Core.writeDisk
  change (match (f.m_drv d).host.file with | some file => _ | none => _ : Option F011Fdc).map core =
    match (f.m_drv d).host.file with | some file => _ | none => _
  cases (f.m_drv d).host.file with
  | none =>
    dsimp only
    rw [Option.map_map]
    rfl
  | some file =>
    change (if (f.m_drv d).host.fileReadOnly = true then none else _ : Option F011Fdc).map core =
      if (f.m_drv d).host.fileReadOnly = true then none else _
    split
    · rfl
    · split
      · rw [Option.map_some]
        congr 1
        unfold core
        congr 1
        funext d'
        dsimp only
        by_cases same : d' = d
        · rw [same, Function.update_self, Function.update_self]
        · rw [Function.update_of_ne same, Function.update_of_ne same]
      · rfl

theorem quiet_writeDisk (h : f.QuietDrives) {d : Fin 2} {off : ℕ} {buf : List Byte} {f' : F011Fdc}
    (written : f.writeDisk d off buf = some f') : f'.QuietDrives := by
  unfold writeDisk at written
  split at written
  · split at written
    · cases written
    · split at written
      · cases written
        intro d'
        by_cases same : d' = d
        · dsimp only
          rw [same, Function.update_self]
          exact h d
        · dsimp only
          rw [Function.update_of_ne same]
          exact h d'
      · cases written
  · obtain ⟨sd, -, rfl⟩ := Option.map_eq_some_iff.mp written
    exact h

/-- What `writeSector` writes, if it does. -/
def written (f : F011Fdc) : Option F011Fdc :=
  if f.m_drive < 2 ∧ f.drv.haveDisk ∧ f.drv.canWrite then
    (diskOffset f.m_track f.m_sector f.m_side).bind fun off =>
      f.writeDisk f.sel off (fromPointer f.m_sd.fdcBuffer f.m_ptrFdc)
  else none

theorem mounted_of_writable (c : Core) (d : Fin 2) (writable : (c.mounted d).2 = true) :
    (c.mounted d).1 = true := by
  unfold Core.mounted at writable ⊢
  split
  · rfl
  · split
    next no image =>
      rw [if_neg no, if_pos image] at writable
      simp only [Bool.and_eq_true] at writable
      exact writable.1.1
    next no image =>
      rw [if_neg no, if_neg image] at writable
      cases writable

theorem core_written (fresh : f.Fresh) :
    (f.written.map core).getD f.core = f.core.store := by
  have flags := fresh f.sel
  have can : f.drv.canWrite = (f.core.mounted f.sel).2 := congrArg Prod.snd flags
  have have_ : f.drv.haveDisk = (f.core.mounted f.sel).1 := congrArg Prod.fst flags
  have same : (f.m_drive < 2 ∧ f.drv.haveDisk = true ∧ f.drv.canWrite = true) ↔
      (f.core.drive < 2 ∧ (f.core.mounted f.core.sel).2 = true) := by
    rw [can, have_]
    exact ⟨fun h => ⟨h.1, h.2.2⟩, fun h => ⟨h.1, mounted_of_writable _ _ h.2, h.2⟩⟩
  unfold written Core.store
  simp only [same]
  split
  · congr 1
    rw [Option.map_bind]
    unfold Core.offset
    change (diskOffset f.m_track f.m_sector f.m_side).bind _ =
      (diskOffset f.m_track f.m_sector f.m_side).bind _
    congr 1
    funext off
    exact core_writeDisk ..
  · rfl

theorem writeSector_eq (f : F011Fdc) :
    f.writeSector = (f.written.getD f).finish f.written.isSome SB_WTREQ := by
  have settle : ∀ done : Option F011Fdc, done.elim (f.finish false SB_WTREQ) (finish · true SB_WTREQ) =
      (done.getD f).finish done.isSome SB_WTREQ := by
    rintro (_ | f') <;> rfl
  rw [← settle]
  unfold writeSector written
  dsimp only
  split <;> rename_i same <;> rw [same] <;> rfl

theorem core_writeSector (fresh : f.Fresh) : f.writeSector.core = f.core.store := by
  rw [writeSector_eq, core_finish, ← core_written fresh]
  cases f.written <;> rfl

theorem quiet_writeSector (h : f.QuietDrives) : f.writeSector.QuietDrives := by
  rw [writeSector_eq]
  refine quiet_finish ?_ _ _
  unfold written
  split
  · cases found : (diskOffset f.m_track f.m_sector f.m_side).bind fun off =>
      f.writeDisk f.sel off (fromPointer f.m_sd.fdcBuffer f.m_ptrFdc) with
    | none => exact h
    | some f' =>
      obtain ⟨off, -, written⟩ := Option.bind_eq_some_iff.mp found
      exact quiet_writeDisk h written
  · exact h

/-! ## Commands -/

theorem store_of_not_writable {c : Core} (h : (c.mounted c.sel).2 = false) : c.store = c := by
  unfold Core.store
  simp [h]

theorem host_step_out (v : Drive) : (step_out v).host = v.host := by
  unfold step_out
  dsimp only
  split <;> split <;> rfl

theorem host_step_in (v : Drive) : (step_in v).host = v.host := by
  unfold step_in
  dsimp only
  split <;> rfl

theorem core_command (h : f.QuietDrives) (fresh : f.Fresh) :
    f.command.core = f.core.command f.m_cmd := by
  unfold command Core.command
  dsimp only
  generalize (f.m_cmd &&& 0xF8).toNat = op
  split
  next =>
    refine (core_readSector (fresh_setDrv fresh ?_ ?_)).trans (congrArg _ (core_setDrv ?_))
    · rfl
    · exact ⟨rfl, rfl⟩
    · rfl
  next =>
    split
    next =>
      refine (core_writeSector (fresh_setDrv fresh ?_ ?_)).trans (congrArg _ (core_setDrv ?_))
      · rfl
      · exact ⟨rfl, rfl⟩
      · rfl
    next protected_ =>
      refine (store_of_not_writable ?_).symm
      have can : f.drv.canWrite = (f.core.mounted f.sel).2 := congrArg Prod.snd (fresh f.sel)
      rw [core_sel, ← can]
      by_contra writable
      exact protected_ ((h f.sel).prot (Bool.not_eq_false _ ▸ writable))
  next =>
    split
    · exact core_setDrv (host_step_out _)
    · rfl
  next => exact core_setDrv (host_step_in _)
  next => exact core_setDrv (f := { f with m_control := _ }) rfl
  next =>
    split
    · exact core_setDrv (f := { f with m_ptrCpu := 0, m_ptrFdc := 0 }) rfl
    · rfl
  next => split <;> simp_all

theorem quiet_step_out {v : Drive} (h : Quiet v.statA v.canWrite) :
    Quiet (step_out v).statA (step_out v).canWrite := by
  unfold step_out
  dsimp only
  split
  · split
    · exact h.or (by decide) (by decide)
    · exact h
  · split
    · exact h.or (by decide) (by decide)
    · exact h

theorem quiet_step_in {v : Drive} (h : Quiet v.statA v.canWrite) :
    Quiet (step_in v).statA (step_in v).canWrite := by
  unfold step_in
  dsimp only
  split <;> exact h.and _

theorem quiet_command (h : f.QuietDrives) : f.command.QuietDrives := by
  have here := h f.sel
  unfold command
  dsimp only
  split
  next => exact quiet_readSector (quiet_setDrv h ((here.or (by decide) (by decide)).and _))
  next =>
    split
    · exact quiet_writeSector (quiet_setDrv h ((here.or (by decide) (by decide)).and _))
    · exact h
  next =>
    split
    · exact quiet_setDrv h (quiet_step_out here)
    · exact h
  next => exact quiet_setDrv h (quiet_step_in here)
  next => exact quiet_setDrv (f := { f with m_control := _ }) h (here.or (by decide) (by decide))
  next =>
    split
    · exact quiet_setDrv (f := { f with m_ptrCpu := 0, m_ptrFdc := 0 }) h (here.and _)
    · exact h
  next => exact h

/-- A drive may be busy with the command, the other is not. -/
structure Armed (f : F011Fdc) : Prop where
  prot : ∀ d, (f.m_drv d).canWrite = true → (f.m_drv d).statA &&& SA_PROT = 0
  busy : ∀ d, d ≠ f.sel → (f.m_drv d).statA &&& SA_BUSY = 0

/-- The selected drive, no longer busy. -/
def released (f : F011Fdc) : F011Fdc :=
  f.setDrv { f.drv with
    statA := f.drv.statA &&& ~~~SA_BUSY
    statB := f.drv.statB ||| SB_IRQ }

theorem quiet_released (h : f.Armed) : f.released.QuietDrives := by
  intro d
  unfold released
  rw [m_drv_setDrv]
  by_cases same : d = f.sel
  · rw [same, Function.update_self]
    exact ⟨clear_self _ _, fun writable => and_clear (h.prot f.sel writable)⟩
  · rw [Function.update_of_ne same]
    exact ⟨h.busy d same, h.prot d⟩

theorem executeCommand_eq (f : F011Fdc) :
    f.executeCommand =
      { (if f.m_curCmd < 0 ∨ 0xFF < f.m_curCmd then f.released else f.released.command) with
        m_curCmd := -1 } := by
  unfold executeCommand
  change (if f.m_curCmd < 0 ∨ 0xFF < f.m_curCmd then { f.released with m_curCmd := -1 }
    else { f.released.command with m_curCmd := -1 }) = _
  split <;> rfl

theorem settled_executeCommand (h : f.Armed) : Settled f.executeCommand := by
  rw [executeCommand_eq]
  refine ⟨?_, rfl⟩
  split
  · exact quiet_released h
  · exact quiet_command (quiet_released h)

/-- A control write only ends the wait. -/
theorem core_executeCommand (h : f.Armed) (fresh : f.Fresh) :
    f.executeCommand.core =
      if f.m_curCmd < 0 ∨ 0xFF < f.m_curCmd then f.core else f.core.command f.m_cmd := by
  have same : f.released.core = f.core := core_setDrv rfl
  rw [executeCommand_eq]
  split
  · exact same
  · refine (core_command (quiet_released h) (fresh_setDrv fresh rfl ⟨rfl, rfl⟩)).trans ?_
    rw [same]
    rfl

theorem and_self_ne_zero (a : Byte) {k : Byte} (set : k ≠ 0) : (a ||| k) &&& k ≠ 0 := by
  have whole : (a ||| k) &&& k = k := by
    ext i hi
    simp only [BitVec.getElem_and, BitVec.getElem_or]
    cases a[i] <;> cases k[i] <;> rfl
  rw [whole]
  exact set

theorem pending_of_busy (busy : f.drv.statA &&& SA_BUSY ≠ 0) : f.pending = f.executeCommand :=
  if_pos busy

theorem pending_of_quiet (h : f.QuietDrives) : f.pending = f :=
  if_neg (not_not.mpr (h f.sel).busy)

/-- The selected drive made busy, from between accesses. -/
theorem armed_setDrv (h : f.QuietDrives) {v : Drive}
    (prot : v.canWrite = true → v.statA &&& SA_PROT = 0) : (f.setDrv v).Armed := by
  constructor
  · intro d
    rw [m_drv_setDrv]
    by_cases same : d = f.sel
    · rw [same, Function.update_self]
      exact prot
    · rw [Function.update_of_ne same]
      exact (h d).prot
  · intro d (other : d ≠ f.sel)
    rw [m_drv_setDrv, Function.update_of_ne other]
    exact (h d).busy

/-- `writeControl` up to the busy bit. -/
def controlled (f : F011Fdc) (val : Byte) : F011Fdc :=
  let f := { f with m_control := val, m_curCmd := if f.m_curCmd = -1 then 0x100 else f.m_curCmd }
  if val.setWidth 3 ≠ f.m_drive then
    let f := { f with m_drive := val.setWidth 3 }
    f.setDrv { f.drv with statB := f.drv.statB &&& ~~~SB_DSKCHG }
  else f

theorem core_controlled (f : F011Fdc) (val : Byte) :
    (f.controlled val).core = { f.core with drive := val.setWidth 3 } := by
  unfold controlled
  dsimp only
  split
  next => exact core_setDrv (f := { f with m_control := val, m_curCmd := _, m_drive := _ }) rfl
  next same =>
    rw [not_not] at same
    rw [same]
    rfl

theorem quiet_controlled (h : f.QuietDrives) (val : Byte) : (f.controlled val).QuietDrives := by
  unfold controlled
  dsimp only
  split
  · exact quiet_setDrv (f := { f with m_control := val, m_curCmd := _, m_drive := _ }) h (h _)
  · exact h

theorem curCmd_controlled (idle : f.m_curCmd = -1) (val : Byte) :
    (f.controlled val).m_curCmd = 0x100 := by
  unfold controlled
  rw [if_pos idle]
  dsimp only
  split <;> rfl

theorem settled_writeControl (h : Settled f) (val : Byte) :
    Settled (f.writeControl val).pending ∧ (f.writeControl val).pending.core =
      { f.core with drive := val.setWidth 3, swap := if val &&& 0x10 ≠ 0 then 0x100 else 0 } := by
  have quiet := quiet_controlled h.quiet val
  have busy : (f.writeControl val).drv.statA &&& SA_BUSY ≠ 0 := by
    change ((f.controlled val).setDrv _).drv.statA &&& SA_BUSY ≠ 0
    rw [drv_setDrv]
    exact and_self_ne_zero _ (by decide)
  have armed : (f.writeControl val).Armed := by
    have set := armed_setDrv quiet (v := { (f.controlled val).drv with
      statA := (f.controlled val).drv.statA ||| SA_BUSY })
      (fun writable => or_clear ((quiet _).prot writable) (by decide))
    exact ⟨set.prot, set.busy⟩
  have only : (f.writeControl val).m_curCmd = 0x100 := curCmd_controlled h.idle val
  rw [pending_of_busy busy]
  refine ⟨settled_executeCommand armed, ?_⟩
  have same : (f.writeControl val).released.core = (f.writeControl val).core := core_setDrv rfl
  have set : ((f.controlled val).setDrv { (f.controlled val).drv with
      statA := (f.controlled val).drv.statA ||| SA_BUSY }).core = (f.controlled val).core :=
    core_setDrv rfl
  rw [executeCommand_eq, only, if_pos (by decide)]
  refine same.trans ?_
  change { ((f.controlled val).setDrv { (f.controlled val).drv with
      statA := (f.controlled val).drv.statA ||| SA_BUSY }).core with
    swap := if val &&& 0x10 ≠ 0 then 0x100 else 0 } = _
  rw [set, core_controlled]

theorem settled_writeCommand (h : Settled f) (fresh : f.Fresh) (val : Byte) :
    Settled (f.writeCommand val).pending ∧
      (f.writeCommand val).pending.core = f.core.command val := by
  have quiet := h.quiet
  have busy : (f.writeCommand val).drv.statA &&& SA_BUSY ≠ 0 := by
    unfold writeCommand
    rw [drv_setDrv, BitVec.and_assoc]
    exact and_self_ne_zero f.drv.statA (k := SA_BUSY) (by decide)
  have armed : (f.writeCommand val).Armed :=
    armed_setDrv (f := { f with m_cmd := val, m_curCmd := val.toNat }) quiet
      (fun writable => and_clear (or_clear ((quiet f.sel).prot writable) (by decide)))
  have set : (f.writeCommand val).core = f.core :=
    core_setDrv (f := { f with m_cmd := val, m_curCmd := val.toNat }) rfl
  have fresh' : (f.writeCommand val).Fresh :=
    fresh_setDrv (f := { f with m_cmd := val, m_curCmd := val.toNat }) fresh rfl ⟨rfl, rfl⟩
  have taken : ¬((f.writeCommand val).m_curCmd < 0 ∨ 0xFF < (f.writeCommand val).m_curCmd) := by
    have := val.isLt
    change ¬((val.toNat : ℤ) < 0 ∨ 0xFF < (val.toNat : ℤ))
    omega
  rw [pending_of_busy busy]
  refine ⟨settled_executeCommand armed, ?_⟩
  rw [core_executeCommand armed fresh', if_neg taken, set]
  rfl

theorem settled_pending (h : Settled f) : Settled f.pending ∧ f.pending.core = f.core := by
  rw [pending_of_quiet h.quiet]
  exact ⟨h, rfl⟩

/-! ## The data register -/

theorem settled_advance (h : Settled f) {v : Drive} (host : v.host = f.drv.host)
    (quiet : Quiet v.statA v.canWrite) :
    Settled (f.advance v) ∧ (f.advance v).core = { f.core with ptrCpu := f.m_ptrCpu + 1 } := by
  unfold advance
  dsimp only
  refine ⟨⟨quiet_setDrv (f := { f with m_ptrCpu := _ }) h.quiet ?_, h.idle⟩,
    core_setDrv (f := { f with m_ptrCpu := _ }) host⟩
  dsimp only
  split
  · exact quiet.or (by decide) (by decide)
  · exact quiet.and _

/-- The lost bit of a buffer that is used up. -/
theorem quiet_lost {v : Drive} (h : Quiet v.statA v.canWrite) :
    Quiet (if v.statA &&& SA_EQ ≠ 0 then { v with statA := v.statA ||| SA_LOST } else v).statA
      (if v.statA &&& SA_EQ ≠ 0 then { v with statA := v.statA ||| SA_LOST } else v).canWrite := by
  split
  · exact h.or (by decide) (by decide)
  · exact h

theorem host_lost (v : Drive) :
    (if v.statA &&& SA_EQ ≠ 0 then { v with statA := v.statA ||| SA_LOST } else v).host =
      v.host := by
  split <;> rfl

theorem settled_readData (h : Settled f) :
    Settled f.readData.2 ∧ f.readData.2.core = { f.core with ptrCpu := f.m_ptrCpu + 1 } :=
  settled_advance h (host_lost _) (quiet_lost ((h.quiet f.sel).and _))

theorem settled_writeData (h : Settled f) (val : Byte) :
    Settled (f.writeData val) ∧ (f.writeData val).core = f.core.put val :=
  settled_advance (f := { f with m_sd := { f.m_sd with
    fdcBuffer := Function.update f.m_sd.fdcBuffer (f.m_ptrCpu ^^^ f.m_swapMask) val } })
    ⟨h.quiet, h.idle⟩ (host_lost _) (quiet_lost ((h.quiet f.sel).and _))

/-! ## Accesses -/

theorem settled_refreshMedia (h : Settled f) : Settled f.refreshMedia :=
  ⟨quiet_refreshMedia h.quiet, h.idle⟩

/-- Between accesses, an access does to the core what the core does by itself. -/
theorem settled_read (h : Settled f) (addr : BitVec 32) :
    Settled (f.ioRead addr).2 ∧ (f.ioRead addr).2.core = f.core.access (.read addr) := by
  have settled := settled_refreshMedia h
  unfold ioRead Core.access
  dsimp only
  split
  next => exact ⟨h, rfl⟩
  next =>
    rw [pending_of_quiet settled.quiet, ← core_refreshMedia f]
    generalize (addr &&& 0x1F).toNat = reg
    split
    next => exact ⟨settled, rfl⟩
    next => exact ⟨settled, rfl⟩
    next => exact ⟨settled, rfl⟩
    next => exact ⟨⟨quiet_setDrv settled.quiet (settled.quiet _), settled.idle⟩, core_setDrv rfl⟩
    next => exact ⟨settled, rfl⟩
    next => exact ⟨settled, rfl⟩
    next => exact ⟨settled, rfl⟩
    next => exact settled_readData settled
    next => exact ⟨settled, rfl⟩
    next => exact ⟨settled, rfl⟩
    next => exact ⟨settled, rfl⟩
    next => exact ⟨settled, by simp_all⟩

theorem settled_write (h : Settled f) (addr : BitVec 32) (val : Byte) :
    Settled (f.ioWrite addr val).2 ∧
      (f.ioWrite addr val).2.core = f.core.access (.write addr val) := by
  have settled := settled_refreshMedia h
  unfold ioWrite Core.access
  dsimp only
  split
  next => exact ⟨h, rfl⟩
  next =>
    rw [← core_refreshMedia f]
    generalize (addr &&& 0x1F).toNat = reg
    split
    next => exact settled_writeControl settled val
    next =>
      rw [if_neg (fun both => both.1 (settled.quiet _).busy)]
      exact settled_writeCommand settled (fresh_refreshMedia f) val
    next =>
      exact settled_pending (f := { f.refreshMedia with m_track := val })
        ⟨settled.quiet, settled.idle⟩
    next =>
      exact settled_pending (f := { f.refreshMedia with m_sector := val })
        ⟨settled.quiet, settled.idle⟩
    next =>
      exact settled_pending (f := { f.refreshMedia with m_side := val })
        ⟨settled.quiet, settled.idle⟩
    next =>
      have data := settled_writeData settled val
      have done := settled_pending data.1
      exact ⟨done.1, done.2.trans data.2⟩
    next =>
      exact settled_pending (f := { f.refreshMedia with m_clock := val })
        ⟨settled.quiet, settled.idle⟩
    next =>
      exact settled_pending (f := { f.refreshMedia with m_step := val })
        ⟨settled.quiet, settled.idle⟩
    next =>
      have done := settled_pending settled
      refine ⟨done.1, done.2.trans ?_⟩
      split <;> simp_all

/-- Between accesses, an access does to the core what the core does by itself. -/
theorem settled_access (h : Settled f) (e : Access) :
    Settled (f.after e) ∧ (f.after e).core = f.core.access e := by
  cases e with
  | read addr => exact settled_read h addr
  | write addr val => exact settled_write h addr val

theorem settled_run (h : Settled f) (es : List Access) :
    Settled (es.foldl after f) ∧ (es.foldl after f).core = es.foldl Core.access f.core := by
  induction es generalizing f with
  | nil => exact ⟨h, rfl⟩
  | cons e rest ih =>
    obtain ⟨settled, same⟩ := settled_access h e
    obtain ⟨last, core⟩ := ih settled
    refine ⟨last, core.trans ?_⟩
    rw [same]
    rfl

/-- After a reset nothing is pending. -/
theorem settled_reset (f : F011Fdc) : Settled f.reset := by
  refine ⟨?_, rfl⟩
  intro d
  exact quiet_refreshMedia (f := { f with
    m_control := 0, m_cmd := 0, m_track := 0, m_sector := 0, m_side := 0, m_clock := 0xFF
    m_step := 0xFF, m_curCmd := -1, m_ptrCpu := 0, m_ptrFdc := 0, m_swapMask := 0, m_drive := 0
    m_drv := fun d => { f.m_drv d with
      statA := 0, statB := 0, headTrack := 0, haveDisk := false, canWrite := false } })
    (fun _ => ⟨by change (0 : Byte) &&& SA_BUSY = 0; decide, nofun⟩) d

/-- What the data register reads. -/
theorem ioRead_data (h : Settled f) :
    (f.ioRead 0xD087).1 = some (f.m_sd.fdcBuffer (f.m_ptrCpu ^^^ f.m_swapMask)) := by
  have quiet := quiet_refreshMedia h.quiet
  unfold ioRead
  rw [if_neg (by decide), pending_of_quiet quiet]
  rfl

end F011Fdc

end Mmemu.Source.F011
