import Mmemu.Library.UndoLog
import Mmemu.Source.Cpu6502Frame
import Mmemu.Source.SparseMemoryBus

/-!
# Writes to the memory buses

What reads show after any sequence of writes, and what undoing the write log brings back. The
log is a circular buffer, so it leads back over as many writes as it has room for.
-/
namespace Mmemu.Guarantees.BusWrites
open Mmemu.Library.UndoLog
open Mmemu.Source
open Mmemu.Source.MemoryBus

abbrev Write := BitVec 32 × BitVec 8

/-- The last of some writes to an address of the bus, or what was there before them. -/
def lastWritten (mask addr : BitVec 32) (before : BitVec 8) (writes : List Write) : BitVec 8 :=
  writes.foldl (fun v w => if addr &&& mask = w.1 &&& mask then w.2 else v) before

/-- Addresses as the bus sees them. -/
def masked (mask : BitVec 32) (writes : List Write) : List Write :=
  writes.map fun w => (w.1 &&& mask, w.2)

theorem and_and_self (addr mask : BitVec 32) : addr &&& mask &&& mask = addr &&& mask := by
  rw [BitVec.and_assoc, BitVec.and_self]

/-! ## The newest entries of a log -/

/-- Pushed items are the newest ones of a buffer that has room for them. -/
theorem recent_foldl_push {α : Type} (c : CircularBuffer α) (items : List α)
    (room : items.length ≤ c.capacity) :
    (items.foldl CircularBuffer.push c).recent.take items.length = items.reverse ∧
      (items.foldl CircularBuffer.push c).capacity = c.capacity := by
  induction items using List.reverseRecOn with
  | nil => exact ⟨List.take_zero, rfl⟩
  | append_singleton items item ih =>
    rw [List.length_append, List.length_singleton] at room
    obtain ⟨newest, capacity⟩ := ih (by omega)
    rw [List.foldl_append]
    refine ⟨?_, capacity⟩
    rw [List.foldl_cons, List.foldl_nil, CircularBuffer.recent_push _ (by omega), capacity,
      List.length_append, List.length_singleton, List.take_succ_cons, List.take_take,
      Nat.min_eq_left (by omega), newest, List.reverse_append]
    rfl

section Logs
variable {σ : Type} (log : σ → CircularBuffer WriteLogEntry) (read : σ → BitVec 32 → BitVec 8)
  (write : σ → BitVec 32 → BitVec 8 → σ)

/-- The entries a run of writes leaves, the oldest first. -/
def entries : σ → List Write → List WriteLogEntry
  | _, [] => []
  | s, (a, v) :: rest => ⟨a, read s a, v⟩ :: entries (write s a v) rest

theorem entries_map (s : σ) (writes : List Write) :
    (entries read write s writes).map (fun e => (e.address, e.before)) =
      logOf read write s writes := by
  induction writes generalizing s with
  | nil => rfl
  | cons w rest ih => exact congrArg _ (ih _)

/-- A run of writes that are all recorded. -/
theorem log_writeAll (inv : σ → Prop) (ok : BitVec 32 → Prop)
    (keeps : ∀ s a v, inv s → inv (write s a v))
    (records : ∀ s a v, inv s → ok a → log (write s a v) = (log s).push ⟨a, read s a, v⟩) {s : σ}
    (hs : inv s) {writes : List Write} (all : ∀ w ∈ writes, ok w.1) :
    log (writeAll write s writes) =
      (entries read write s writes).foldl CircularBuffer.push (log s) := by
  induction writes generalizing s with
  | nil => rfl
  | cons w rest ih =>
    have later := ih (keeps s w.1 w.2 hs) (fun w' mem => all w' (List.mem_cons_of_mem _ mem))
    rw [records s w.1 w.2 hs (all w List.mem_cons_self)] at later
    exact later

/-- Take back the newest entries of the log. -/
def undo (s : σ) (n : ℕ) : σ :=
  ((log s).recent.take n).foldl (fun s e => write s e.address e.before) s

/-- Taking back as many entries as the log has room for takes back all of them. -/
theorem undo_of_size_le (s : σ) {n : ℕ} (room : (log s).size ≤ n) :
    undo log write s (log s).size = undo log write s n := by
  unfold undo
  rw [List.take_of_length_le (by rw [CircularBuffer.length_recent]),
    List.take_of_length_le (by rw [CircularBuffer.length_recent]; exact room)]

theorem read_undo {hits : BitVec 32 → BitVec 32 → Prop} [∀ a x, Decidable (hits a x)]
    {inv : σ → Prop} (memory : Overwrites read write hits inv) (ok : BitVec 32 → Prop)
    (records : ∀ s a v, inv s → ok a → log (write s a v) = (log s).push ⟨a, read s a, v⟩) {s : σ}
    (hs : inv s) {writes : List Write} (all : ∀ w ∈ writes, ok w.1)
    (room : writes.length ≤ (log s).capacity) :
    read (undo log write (writeAll write s writes) writes.length) = read s := by
  have length : (entries read write s writes).length = writes.length := by
    have := congrArg List.length (entries_map read write s writes)
    rw [List.length_map] at this
    rw [this]
    clear this room all hs
    induction writes generalizing s with
    | nil => rfl
    | cons w rest ih => exact congrArg (· + 1) ih
  have newest := (recent_foldl_push (log s) (entries read write s writes) (by omega)).1
  rw [← log_writeAll log read write inv ok memory.keeps records hs all, length] at newest
  unfold undo
  rw [newest]
  have back : (entries read write s writes).reverse.foldl
      (fun s e => write s e.address e.before) (writeAll write s writes) =
        writeAll write (writeAll write s writes) (logOf read write s writes).reverse := by
    rw [← entries_map, ← List.map_reverse, writeAll.eq_def _ _ (List.map _ _), List.foldl_map]
  rw [back]
  exact memory.undo_run hs writes

end Logs

/-! ## The flat bus -/

namespace Flat

def run (b : FlatMemoryBus) (writes : List Write) : FlatMemoryBus :=
  writeAll FlatMemoryBus.write8 b writes

/-- A write that is not ignored. -/
def stores (b : FlatMemoryBus) (addr : BitVec 32) : Bool :=
  match b.findOverlay (addr &&& b.addrMask) with
  | some o => o.writable
  | none => true

/-- The writes that reach the log, as it names them. -/
def recorded (b : FlatMemoryBus) (writes : List Write) : List Write :=
  masked b.addrMask (writes.filter fun w => stores b w.1)

/-- Nothing that was set up changed. -/
structure SameSetup (b b' : FlatMemoryBus) : Prop where
  addrMask : b'.addrMask = b.addrMask
  overlays : b'.overlays = b.overlays

variable (b : FlatMemoryBus)

theorem sameSetup_write8 {b' : FlatMemoryBus} (h : SameSetup b b') (addr : BitVec 32)
    (val : BitVec 8) : SameSetup b (b'.write8 addr val) :=
  ⟨(b'.addrMask_write8 addr val).trans h.addrMask, (b'.overlays_write8 addr val).trans h.overlays⟩

theorem SameSetup.findOverlay {b b' : FlatMemoryBus} (h : SameSetup b b') (addr : BitVec 32) :
    b'.findOverlay addr = b.findOverlay addr := by
  unfold FlatMemoryBus.findOverlay
  rw [h.overlays]

/-- A write shows where no overlay is. -/
theorem read8_write8 (addr x : BitVec 32) (val : BitVec 8) :
    (b.write8 addr val).read8 x =
      if x &&& b.addrMask = addr &&& b.addrMask ∧ b.findOverlay (addr &&& b.addrMask) = none then val
      else b.read8 x := by
  have setup := sameSetup_write8 b ⟨rfl, rfl⟩ addr val
  unfold FlatMemoryBus.read8 FlatMemoryBus.peek8
  rw [setup.addrMask]
  dsimp only
  rw [setup.findOverlay]
  unfold FlatMemoryBus.write8
  dsimp only
  cases here : b.findOverlay (x &&& b.addrMask) with
  | some o =>
    rw [if_neg]
    rintro ⟨same, none⟩
    rw [← same, here] at none
    cases none
  | none =>
    cases there : b.findOverlay (addr &&& b.addrMask) with
    | some o =>
      have other : ¬(x &&& b.addrMask = addr &&& b.addrMask) := by
        intro same
        rw [same, there] at here
        cases here
      rw [if_neg (fun both => other both.1)]
      dsimp only
      split
      · exact Function.update_of_ne other _ _
      · rfl
    | none =>
      dsimp only
      rw [Function.update_apply]
      simp only [and_true]

/-- A write to an address hits where no overlay is in front of the array. -/
def Hits (addr x : BitVec 32) : Prop :=
  x &&& b.addrMask = addr &&& b.addrMask ∧ b.findOverlay (addr &&& b.addrMask) = none

instance (addr x : BitVec 32) : Decidable (Hits b addr x) :=
  match h : b.findOverlay (addr &&& b.addrMask) with
  | some _ => .isFalse fun hits => by rw [hits.2] at h; cases h
  | none =>
    if same : x &&& b.addrMask = addr &&& b.addrMask then .isTrue ⟨same, h⟩
    else .isFalse fun hits => same hits.1

theorem overwrites : Overwrites FlatMemoryBus.read8 FlatMemoryBus.write8 (Hits b) (SameSetup b) where
  keeps := fun _ a v h => sameSetup_write8 b h a v
  read_write := by
    intro s a v x h
    have written := read8_write8 s a x v
    rw [h.addrMask, h.findOverlay] at written
    split
    next hits => exact written.trans (if_pos hits)
    next misses => exact written.trans (if_neg misses)
  shared := by
    intro s a x h hits
    unfold FlatMemoryBus.read8 FlatMemoryBus.peek8
    rw [h.addrMask, hits.1]

/-- An ignored write leaves the bus as it is, and the others are logged. -/
theorem write8_of_not_stores {addr : BitVec 32} (h : stores b addr = false) (val : BitVec 8) :
    b.write8 addr val = b := by
  unfold stores at h
  unfold FlatMemoryBus.write8
  cases found : b.findOverlay (addr &&& b.addrMask) with
  | some o =>
    rw [found] at h
    dsimp only at h
    simp [found, h]
  | none =>
    rw [found] at h
    cases h

theorem writeLog_write8 {s : FlatMemoryBus} (setup : SameSetup b s) {addr : BitVec 32}
    (h : stores b addr = true) (onBus : addr &&& b.addrMask = addr) (val : BitVec 8) :
    (s.write8 addr val).writeLog = s.writeLog.push ⟨addr, s.read8 addr, val⟩ := by
  unfold stores at h
  rw [onBus] at h
  unfold FlatMemoryBus.write8
  dsimp only
  rw [setup.addrMask, setup.findOverlay, onBus]
  cases found : b.findOverlay addr with
  | some o =>
    rw [found] at h
    dsimp only at h ⊢
    rw [if_pos h]
    rfl
  | none => rfl

theorem write8_masked (s : FlatMemoryBus) (addr : BitVec 32) (val : BitVec 8) :
    s.write8 (addr &&& s.addrMask) val = s.write8 addr val := by
  unfold FlatMemoryBus.write8 FlatMemoryBus.peek8
  simp only [and_and_self]

/-- Only the recorded writes matter. -/
theorem run_recorded {s : FlatMemoryBus} (setup : SameSetup b s) (writes : List Write) :
    run s (recorded b writes) = run s writes := by
  induction writes generalizing s with
  | nil => rfl
  | cons w rest ih =>
    have next := ih (sameSetup_write8 b setup w.1 w.2)
    unfold recorded masked at next ih ⊢
    cases storing : stores b w.1 with
    | true =>
      rw [List.filter_cons, if_pos storing, List.map_cons]
      have first : s.write8 (w.1 &&& b.addrMask) w.2 = s.write8 w.1 w.2 := by
        rw [← setup.addrMask]
        exact write8_masked s w.1 w.2
      simp only [run, writeAll, List.foldl_cons, first] at next ⊢
      exact next
    | false =>
      rw [List.filter_cons, if_neg (Bool.eq_false_iff.mp storing), ih setup]
      have same : stores s w.1 = false := by
        unfold stores at storing ⊢
        rw [setup.addrMask, setup.findOverlay]
        exact storing
      have ignored := write8_of_not_stores s same w.2
      simp only [run, writeAll, List.foldl_cons, ignored]

theorem capacity_run (writes : List Write) :
    (run b writes).writeLog.capacity = b.writeLog.capacity := by
  induction writes generalizing b with
  | nil => rfl
  | cons w rest ih =>
    refine (ih (b.write8 w.1 w.2)).trans ?_
    unfold FlatMemoryBus.write8
    dsimp only
    split
    · split <;> rfl
    · rfl

/-- The array shows the last value written. -/
theorem read8_run_ram {s : FlatMemoryBus} (setup : SameSetup b s) {addr : BitVec 32}
    (ram : b.findOverlay (addr &&& b.addrMask) = none) (writes : List Write) :
    (run s writes).read8 addr = lastWritten b.addrMask addr (s.read8 addr) writes := by
  induction writes generalizing s with
  | nil => rfl
  | cons w rest ih =>
    have next := ih (sameSetup_write8 b setup w.1 w.2)
    rw [(overwrites b).read_write s w.1 w.2 addr setup] at next
    have hits : Hits b w.1 addr ↔ addr &&& b.addrMask = w.1 &&& b.addrMask := by
      unfold Hits
      constructor
      · exact And.left
      · intro same
        exact ⟨same, same ▸ ram⟩
    simp only [hits] at next
    exact next

/-- Whatever is written, an overlay shows its own bytes. -/
theorem read8_run_overlay {s : FlatMemoryBus} (setup : SameSetup b s) {addr : BitVec 32}
    {o : RomOverlay} (overlay : b.findOverlay (addr &&& b.addrMask) = some o)
    (writes : List Write) : (run s writes).read8 addr = o.data ((addr &&& b.addrMask) - o.base) := by
  have kept : SameSetup b (run s writes) := (overwrites b).keeps_all setup writes
  unfold FlatMemoryBus.read8 FlatMemoryBus.peek8
  rw [kept.addrMask]
  dsimp only
  rw [kept.findOverlay, overlay]

theorem stores_masked (addr : BitVec 32) : stores b (addr &&& b.addrMask) = stores b addr := by
  unfold stores
  rw [and_and_self]

/-- Undoing the recorded writes restores every reading, if the log has room for them. -/
theorem read8_undo (writes : List Write)
    (room : (recorded b writes).length ≤ b.writeLog.capacity) :
    (undo FlatMemoryBus.writeLog FlatMemoryBus.write8 (run b writes)
      (recorded b writes).length).read8 = b.read8 := by
  have all : ∀ w ∈ recorded b writes, stores b w.1 = true ∧ w.1 &&& b.addrMask = w.1 := by
    intro w mem
    unfold recorded masked at mem
    obtain ⟨w', kept, rfl⟩ := List.mem_map.mp mem
    exact ⟨(stores_masked b w'.1).trans (List.mem_filter.mp kept).2, and_and_self _ _⟩
  have undone := read_undo FlatMemoryBus.writeLog FlatMemoryBus.read8 FlatMemoryBus.write8
    (overwrites b) (fun a => stores b a = true ∧ a &&& b.addrMask = a)
    (fun s a v setup ok => writeLog_write8 b setup ok.1 ok.2 v) ⟨rfl, rfl⟩ all room
  have same : writeAll FlatMemoryBus.write8 b (recorded b writes) = run b writes :=
    run_recorded b ⟨rfl, rfl⟩ writes
  rw [same] at undone
  exact undone

/-- A log full of later writes does not lead back over an earlier one. -/
theorem undo_full_log (w : Write) {rest : List Write}
    (full : (recorded (b.write8 w.1 w.2) rest).length = b.writeLog.capacity) :
    (undo FlatMemoryBus.writeLog FlatMemoryBus.write8 (run b (w :: rest))
      (run b (w :: rest)).writeLog.size).read8 = (b.write8 w.1 w.2).read8 := by
  have first : (b.write8 w.1 w.2).writeLog.capacity = b.writeLog.capacity := capacity_run b [w]
  have size := (run b (w :: rest)).writeLog.size_le
  rw [capacity_run, ← full] at size
  rw [undo_of_size_le FlatMemoryBus.writeLog FlatMemoryBus.write8 _ size]
  exact read8_undo (b.write8 w.1 w.2) rest (by rw [full, first])

end Flat

/-! ## The sparse bus -/

namespace Sparse
open SparseMemoryBus

def run (b : SparseMemoryBus) (writes : List Write) : SparseMemoryBus := writeAll write8 b writes

variable (b : SparseMemoryBus)

theorem readPlace_masked (addr : BitVec 32) :
    b.readPlace (addr &&& b.addrMask) = b.readPlace addr := by
  unfold readPlace
  rw [and_and_self]

theorem read8_eq (addr : BitVec 32) : b.read8 addr = b.memory (b.readPlace addr) := by
  unfold read8
  rw [b.peek8_eq, readPlace_masked]

theorem read8_write8 (addr x : BitVec 32) (val : BitVec 8) :
    (b.write8 addr val).read8 x =
      if b.writePlace addr = b.readPlace x then val else b.read8 x := by
  rw [read8_eq, read8_eq, (b.sameSetup_write8 addr val).readPlace, b.memory_write8,
    Function.update_apply]
  simp only [eq_comm]

/-- Each address has a byte of a page of its own. -/
theorem pagePlace_injective {addr x : BitVec 32} (h : pagePlace addr = pagePlace x) : addr = x := by
  injection h with page offset
  have high := congrArg BitVec.toNat page
  have low := congrArg BitVec.toNat offset
  simp only [getPageAddr, getPageOffset, BitVec.toNat_setWidth, BitVec.toNat_ushiftRight,
    Nat.shiftRight_eq_div_pow] at high low
  refine BitVec.eq_of_toNat_eq ?_
  have := addr.isLt
  have := x.isLt
  omega

/-- An address that a write shows at reads the place the written one reads. -/
theorem readPlace_of_hit {addr x : BitVec 32} (hit : b.writePlace addr = b.readPlace x) :
    b.readPlace x = b.readPlace addr := by
  rw [← hit]
  unfold writePlace readPlace at *
  dsimp only at *
  cases found : b.findRegion (addr &&& b.addrMask) with
  | none => rfl
  | some r =>
    rw [found] at hit
    dsimp only at hit ⊢
    split
    · rfl
    next readOnly =>
      -- the page under a read-only region is not looked at
      rw [if_neg readOnly] at hit
      cases there : b.findRegion (x &&& b.addrMask) with
      | some r' =>
        rw [there] at hit
        cases hit
      | none =>
        rw [there] at hit
        rw [pagePlace_injective hit, there] at found
        cases found

theorem overwrites :
    Overwrites read8 write8 (fun a x => b.writePlace a = b.readPlace x) (SameSetup b) where
  keeps := fun s a v h => h.trans (s.sameSetup_write8 a v)
  read_write := by
    intro s a v x h
    rw [read8_write8, h.writePlace, h.readPlace]
  shared := by
    intro s a x h hit
    rw [read8_eq, read8_eq, h.readPlace, h.readPlace, readPlace_of_hit b hit]

theorem writeLog_write8 (s : SparseMemoryBus) {addr : BitVec 32} (onBus : addr &&& s.addrMask = addr)
    (val : BitVec 8) :
    (s.write8 addr val).writeLog = s.writeLog.push ⟨addr, s.read8 addr, val⟩ := by
  unfold write8 read8 peek8
  rw [onBus, onBus]
  dsimp only
  split
  · split <;> rfl
  · rfl

theorem write8_masked (s : SparseMemoryBus) (addr : BitVec 32) (val : BitVec 8) :
    s.write8 (addr &&& s.addrMask) val = s.write8 addr val := by
  unfold write8
  rw [and_and_self]

/-- No other address of some writes shares the place that an address reads. -/
def Unshared (addr : BitVec 32) (writes : List Write) : Prop :=
  ∀ w ∈ writes, b.writePlace w.1 = b.readPlace addr → addr &&& b.addrMask = w.1 &&& b.addrMask

/-- Memory and writable regions show the last value written. -/
theorem read8_run_writable {s : SparseMemoryBus} (setup : SameSetup b s) {addr : BitVec 32}
    (writable : b.writePlace addr = b.readPlace addr) {writes : List Write}
    (unshared : Unshared b addr writes) :
    (run s writes).read8 addr = lastWritten b.addrMask addr (s.read8 addr) writes := by
  induction writes generalizing s with
  | nil => rfl
  | cons w rest ih =>
    have next := ih (setup.trans (s.sameSetup_write8 w.1 w.2))
      (fun w' mem => unshared w' (List.mem_cons_of_mem _ mem))
    rw [(overwrites b).read_write s w.1 w.2 addr setup] at next
    have hits : b.writePlace w.1 = b.readPlace addr ↔
        addr &&& b.addrMask = w.1 &&& b.addrMask := by
      constructor
      · exact unshared w List.mem_cons_self
      · intro same
        rw [← writable]
        unfold writePlace
        rw [same]
    simp only [hits] at next
    exact next

/-- A read-only region shows its own bytes. -/
theorem read8_run_readOnly {s : SparseMemoryBus} (setup : SameSetup b s) {addr : BitVec 32}
    (readOnly : b.writePlace addr ≠ b.readPlace addr) {writes : List Write}
    (unshared : Unshared b addr writes) : (run s writes).read8 addr = s.read8 addr := by
  induction writes generalizing s with
  | nil => rfl
  | cons w rest ih =>
    have next := ih (setup.trans (s.sameSetup_write8 w.1 w.2))
      (fun w' mem => unshared w' (List.mem_cons_of_mem _ mem))
    have misses : b.writePlace w.1 ≠ b.readPlace addr := by
      intro hit
      refine readOnly (Eq.trans ?_ hit)
      unfold writePlace
      rw [unshared w List.mem_cons_self hit]
    rw [(overwrites b).read_write s w.1 w.2 addr setup, if_neg misses] at next
    exact next

/-- Undoing the writes restores every reading, if the log has room for them. -/
theorem read8_undo (writes : List Write) (room : writes.length ≤ b.writeLog.capacity) :
    (undo writeLog write8 (run b writes) writes.length).read8 = b.read8 := by
  have all : ∀ w ∈ masked b.addrMask writes, w.1 &&& b.addrMask = w.1 := by
    intro w mem
    obtain ⟨w', -, rfl⟩ := List.mem_map.mp mem
    exact and_and_self _ _
  have length : (masked b.addrMask writes).length = writes.length := List.length_map _
  have undone := read_undo writeLog read8 write8 (overwrites b) (fun a => a &&& b.addrMask = a)
    (fun s a v setup ok => writeLog_write8 s (setup.addrMask ▸ ok) v) (SameSetup.refl b) all
    (length ▸ room)
  have same : ∀ {s : SparseMemoryBus}, SameSetup b s →
      writeAll write8 s (masked b.addrMask writes) = run s writes := by
    clear room all length undone
    induction writes with
    | nil => exact fun _ => rfl
    | cons w rest ih =>
      intro s setup
      have first : s.write8 (w.1 &&& b.addrMask) w.2 = s.write8 w.1 w.2 := by
        rw [← setup.addrMask]
        exact write8_masked s w.1 w.2
      have next := ih (setup.trans (s.sameSetup_write8 w.1 w.2))
      simp only [run, writeAll, masked, List.map_cons, List.foldl_cons, first] at next ⊢
      exact next
  rw [same (SameSetup.refl b), length] at undone
  exact undone

/-- Memory outside all regions is shared by no other address. -/
theorem unshared_of_ram {addr : BitVec 32} (ram : b.findRegion (addr &&& b.addrMask) = none)
    (writes : List Write) : Unshared b addr writes := by
  intro w _ hit
  unfold writePlace readPlace at hit
  dsimp only at hit
  rw [ram] at hit
  dsimp only at hit
  split at hit
  · split at hit
    · cases hit
    · exact (pagePlace_injective hit).symm
  · exact (pagePlace_injective hit).symm

end Sparse

/-! ## Both buses -/

/-- What the flat bus promises of a run of writes. -/
structure FlatPromise (b : FlatMemoryBus) (writes : List Write) : Prop where
  peek : ∀ addr, (Flat.run b writes).peek8 addr = (Flat.run b writes).read8 addr
  ram : ∀ addr, b.findOverlay (addr &&& b.addrMask) = none →
    (Flat.run b writes).read8 addr = lastWritten b.addrMask addr (b.read8 addr) writes
  readOnly : ∀ addr o, b.findOverlay (addr &&& b.addrMask) = some o → o.writable = false →
    (Flat.run b writes).read8 addr = o.data ((addr &&& b.addrMask) - o.base)
  undone : (Flat.recorded b writes).length ≤ b.writeLog.capacity → ∀ addr,
    (undo FlatMemoryBus.writeLog FlatMemoryBus.write8 (Flat.run b writes)
      (Flat.recorded b writes).length).read8 addr = b.read8 addr

/-- What the sparse bus promises of a run of writes. -/
structure SparsePromise (b : SparseMemoryBus) (writes : List Write) : Prop where
  peek : ∀ addr, (Sparse.run b writes).peek8 addr = (Sparse.run b writes).read8 addr
  ram : ∀ addr, b.findRegion (addr &&& b.addrMask) = none →
    (Sparse.run b writes).read8 addr = lastWritten b.addrMask addr (b.read8 addr) writes
  writable : ∀ addr r, b.findRegion (addr &&& b.addrMask) = some r → r.writable = true →
    Sparse.Unshared b addr writes →
    (Sparse.run b writes).read8 addr = lastWritten b.addrMask addr (b.read8 addr) writes
  readOnly : ∀ addr r, b.findRegion (addr &&& b.addrMask) = some r → r.writable = false →
    Sparse.Unshared b addr writes →
    (Sparse.run b writes).read8 addr = b.host (r.data + ((addr &&& b.addrMask) - r.base).toNat)
  undone : writes.length ≤ b.writeLog.capacity → ∀ addr,
    (undo SparseMemoryBus.writeLog SparseMemoryBus.write8 (Sparse.run b writes)
      writes.length).read8 addr = b.read8 addr

theorem flatPromise (b : FlatMemoryBus) (writes : List Write) : FlatPromise b writes where
  peek := fun _ => rfl
  ram := fun _ ram => Flat.read8_run_ram b ⟨rfl, rfl⟩ ram writes
  readOnly := fun _ _ overlay _ => Flat.read8_run_overlay b ⟨rfl, rfl⟩ overlay writes
  undone := fun room addr => congrFun (Flat.read8_undo b writes room) addr

theorem sparsePromise (b : SparseMemoryBus) (writes : List Write) : SparsePromise b writes where
  peek := by
    intro addr
    rw [Sparse.read8_eq, SparseMemoryBus.peek8_eq]
  ram := by
    intro addr ram
    refine Sparse.read8_run_writable b (.refl b) ?_ (Sparse.unshared_of_ram b ram writes)
    unfold SparseMemoryBus.writePlace SparseMemoryBus.readPlace
    dsimp only
    rw [ram]
  writable := by
    intro addr r found writable unshared
    refine Sparse.read8_run_writable b (.refl b) ?_ unshared
    unfold SparseMemoryBus.writePlace SparseMemoryBus.readPlace
    dsimp only
    rw [found]
    exact if_pos writable
  readOnly := by
    intro addr r found readOnly unshared
    have other : b.writePlace addr ≠ b.readPlace addr := by
      unfold SparseMemoryBus.writePlace SparseMemoryBus.readPlace
      dsimp only
      rw [found]
      dsimp only
      rw [if_neg (Bool.eq_false_iff.mp readOnly)]
      nofun
    rw [Sparse.read8_run_readOnly b (.refl b) other unshared, Sparse.read8_eq]
    unfold SparseMemoryBus.readPlace
    dsimp only
    rw [found]
    rfl
  undone := fun room addr => congrFun (Sparse.read8_undo b writes room) addr

/-- After any writes, memory shows the last value and read-only overlays their own bytes, and the
log leads back over as many writes as it holds. -/
theorem writes_kept :
    (∀ (b : FlatMemoryBus) (writes : List Write), FlatPromise b writes) ∧
      (∀ (b : SparseMemoryBus) (writes : List Write), SparsePromise b writes) :=
  ⟨flatPromise, sparsePromise⟩

/-- Two regions over one host byte, as the colour RAM of the MEGA65 has them. -/
def mirrored : SparseMemoryBus :=
  ((SparseMemoryBus.new 28 ⟨fun _ keys key => key :: keys, front_perm⟩ fun _ => 0).addRegion
    0x0FF80000 1 0 true).addRegion 0x00080000 1 0 true

/-- One write and then a full log of writes to another address. -/
def tooMany : List Write := (0, 1) :: List.replicate 1000 (1, 1)

/-- A byte in two regions is changed through the other one, and a log that was full does not lead
back to the start. -/
theorem not_kept :
    (Sparse.run mirrored [(0x0FF80000, 1), (0x00080000, 2)]).read8 0x0FF80000 = 2 ∧
      (undo FlatMemoryBus.writeLog FlatMemoryBus.write8 (Flat.run (.new 16) tooMany)
        (Flat.run (.new 16) tooMany).writeLog.size).read8 0 ≠ (FlatMemoryBus.new 16).read8 0 := by
  refine ⟨by decide, ?_⟩
  have full : (Flat.recorded ((FlatMemoryBus.new 16).write8 0 1)
      (List.replicate 1000 (1, 1))).length = 1000 := by
    unfold Flat.recorded masked
    rw [List.length_map, List.filter_replicate, if_pos (by decide), List.length_replicate]
  have back := congrFun (Flat.undo_full_log (.new 16) (0, 1) full) 0
  unfold tooMany
  rw [back]
  decide

end Mmemu.Guarantees.BusWrites

/-!
# Read-modify-write instructions

ASL, LSR, ROL, ROR, INC, DEC and the undocumented SLO, RLA, SRE, RRA, DCP, ISC. The shifts
take address $FFFF for the accumulator, and the undocumented ones read the byte again after
writing it; where neither shows, the instruction acts on the addressed byte.
-/
namespace Mmemu.Guarantees.ReadModifyWrite
open Mmemu.Source.MemoryBus
open Mmemu.Source.Cpu6502

/-! ## What the instructions are for -/

inductive Rmw where
  | ASL | LSR | ROL | ROR | INC | DEC | SLO | RLA | SRE | RRA | DCP | ISC
  deriving DecidableEq, Repr

namespace Rmw

def fn : Rmw → OpcodeFn
  | ASL => .ASL | LSR => .LSR | ROL => .ROL | ROR => .ROR | INC => .INC | DEC => .DEC
  | SLO => .SLO | RLA => .RLA | SRE => .SRE | RRA => .RRA | DCP => .DCP | ISC => .ISC

/-- The modified byte, from P and the byte read. -/
def result (op : Rmw) (p m : BitVec 8) : BitVec 8 :=
  match op with
  | ASL | SLO => m <<< 1
  | LSR | SRE => m >>> 1
  | ROL | RLA => m <<< 1 ||| if flag p FLAG_C then 1 else 0
  | ROR | RRA => m >>> 1 ||| if flag p FLAG_C then 0x80 else 0
  | INC | ISC => m + 1
  | DEC | DCP => m - 1

/-- P with the bit shifted out in the carry; the others leave it. -/
def carried (op : Rmw) (p m : BitVec 8) : BitVec 8 :=
  match op with
  | ASL | ROL | SLO | RLA => carryTo p (flag m 0x80)
  | LSR | ROR | SRE | RRA => carryTo p (flag m 0x01)
  | INC | DEC | DCP | ISC => p

/-- ADC and SBC of a core. -/
def adc (cmos : Bool) (s : CPU6502State) (m : BitVec 8) : CPU6502State :=
  if cmos && flag s.p FLAG_D then adcDecimalCmos s m
  else if flag s.p FLAG_D then addDecimal s m else addBinary s m

def sbc (cmos : Bool) (s : CPU6502State) (m : BitVec 8) : CPU6502State :=
  if cmos && flag s.p FLAG_D then sbcDecimalCmos s m else subtract s m

/-- What becomes of the registers with the modified byte: N and Z for the plain ones, the
second half of the instruction for the undocumented. -/
def combine (op : Rmw) (cmos : Bool) (s : CPU6502State) (m : BitVec 8) : CPU6502State :=
  match op with
  | ASL | LSR | ROL | ROR | INC | DEC => s.updateNZ m
  | SLO => toA s (s.a ||| m)
  | RLA => toA s (s.a &&& m)
  | SRE => toA s (s.a ^^^ m)
  | RRA => adc cmos s m
  | DCP => compare (·.a) s m
  | ISC => sbc cmos s m

/-- The instructions built on a shift. -/
def shifts : Rmw → Bool
  | ASL | LSR | ROL | ROR | SLO | RLA | SRE | RRA => true
  | _ => false

/-- The undocumented ones, which use the modified byte for something else. -/
def combines : Rmw → Bool
  | SLO | RLA | SRE | RRA | DCP | ISC => true
  | _ => false

end Rmw

/-! ## A bus that remembers what is written -/

structure Recorder (ω : Type) where
  bus : ω
  writes : List (BitVec 32 × BitVec 8)

section Instructions
variable {ω : Type} [IBus ω]

instance : IBus (Recorder ω) where
  read8 r addr := ((IBus.read8 r.bus addr).1, { r with bus := (IBus.read8 r.bus addr).2 })
  write8 r addr val := ⟨IBus.write8 r.bus addr val, r.writes ++ [(addr, val)]⟩
  peek8 r addr := IBus.peek8 r.bus addr

abbrev Recorded (ω : Type) := MOS6502 (Recorder ω)

/-- The byte at an address, and the core after reading it. -/
def byteAt (c : Recorded ω) (addr : BitVec 16) : BitVec 8 := (read addr c).1

/-- The instruction at effective address `addr`, begun on core `c` and ended on `c'`, acts on
the byte there: it writes the modified byte and no other, and A and P come from that byte. -/
structure ActsOnByte (op : Rmw) (addr : BitVec 16) (c c' : Recorded ω) : Prop where
  written : c'.bus.writes =
    c.bus.writes ++ [(addr.setWidth 32, op.result c.state.p (byteAt c addr))]
  registers :
    let s := { c.state with p := op.carried c.state.p (byteAt c addr) }
    let done := op.combine c.cmos s (op.result c.state.p (byteAt c addr))
    c'.state.a = done.a ∧ c'.state.p = done.p

/-- The byte that the location holds when the modified byte has been written there. -/
def readBack (op : Rmw) (addr : BitVec 16) (c : Recorded ω) : BitVec 8 :=
  let (m, c) := read addr c
  byteAt (write addr (op.result c.state.p m) c).2 addr

/-- The second half of the instruction makes the same of the byte read back as of the modified
byte; in RAM they are the same byte. -/
def Combined (op : Rmw) (addr : BitVec 16) (c : Recorded ω) : Prop :=
  let s := { c.state with p := op.carried c.state.p (byteAt c addr) }
  let done := op.combine c.cmos s (op.result c.state.p (byteAt c addr))
  let again := op.combine c.cmos s (readBack op addr c)
  again.a = done.a ∧ again.p = done.p

/-- Where the instruction does what it is for. -/
def Meets (op : Rmw) (addr : BitVec 16) (c : Recorded ω) : Prop :=
  (op.shifts = true → addr ≠ 0xFFFF) ∧ (op.combines = true → Combined op addr c)

end Instructions

/-! ## Flags set twice -/

/-- N and Z as two truth values, on which everything else about `nz` depends. -/
def nzOf (p : BitVec 8) (z n : Bool) : BitVec 8 :=
  orIf (orIf (p &&& ~~~(FLAG_N ||| FLAG_Z)) FLAG_Z z) FLAG_N n

theorem nz_nz (p val val' : BitVec 8) : nz (nz p val) val' = nz p val' := by
  have again : ∀ (z n z' n' : Bool) (p : BitVec 8), nzOf (nzOf p z n) z' n' = nzOf p z' n' := by
    decide
  exact again _ _ _ _ p

/-- The other flags stay as they are. -/
theorem nzOf_keeps : ∀ (z n : Bool) (p : BitVec 8),
    nzOf p z n &&& ~~~CVZN = p &&& ~~~CVZN ∧ nzOf p z n &&& FLAG_C = p &&& FLAG_C ∧
      flag (nzOf p z n) FLAG_D = flag p FLAG_D := by
  decide

theorem nz_cleared (p val : BitVec 8) : nz p val &&& ~~~CVZN = p &&& ~~~CVZN :=
  (nzOf_keeps _ _ p).1

theorem nz_carry (p val : BitVec 8) : nz p val &&& FLAG_C = p &&& FLAG_C :=
  (nzOf_keeps _ _ p).2.1

theorem nz_decimal (p val : BitVec 8) : flag (nz p val) FLAG_D = flag p FLAG_D :=
  (nzOf_keeps _ _ p).2.2

theorem toA_updateNZ (s : CPU6502State) (val val' : BitVec 8) :
    toA (s.updateNZ val) val' = toA s val' := by
  simp only [toA, CPU6502State.updateNZ, nz_nz]

/-- ADC sets N and Z anew. -/
theorem adc_updateNZ (cmos : Bool) (s : CPU6502State) (val m : BitVec 8) :
    Rmw.adc cmos (s.updateNZ val) m = Rmw.adc cmos s m := by
  simp only [Rmw.adc, adcDecimalCmos, addDecimal, addBinary, CPU6502State.updateNZ, nz_decimal,
    nz_cleared, nz_carry]

/-! ## The instructions on the addressed byte -/

section Calls
variable {ω : Type} [IBus ω]

/-- The core with the modified byte written and the bit shifted out in the carry. -/
def halfway (op : Rmw) (addr : BitVec 16) (c : Recorded ω) : Recorded ω :=
  { c with
    state := { c.state with p := op.carried c.state.p (byteAt c addr) }
    bus := (write addr (op.result c.state.p (byteAt c addr)) (read addr c).2).2.bus }

/-- `f` is the shift that `op` is built on. -/
def Shifts (op : Rmw) (f : BitVec 8 → BitVec 8 → Bool × BitVec 8) : Prop :=
  ∀ p m, carryTo p (f p m).1 = op.carried p m ∧ (f p m).2 = op.result p m

theorem shifted_memory {op : Rmw} {f : BitVec 8 → BitVec 8 → Bool × BitVec 8}
    (shift : Shifts op f) {addr : BitVec 16} (memory : addr ≠ 0xFFFF) (c : Recorded ω) :
    (shifted f addr c).2 =
      { halfway op addr c with
        state := (halfway op addr c).state.updateNZ (op.result c.state.p (byteAt c addr)) } := by
  obtain ⟨carried, result⟩ := shift c.state.p (byteAt c addr)
  change ((if addr = 0xFFFF then _ else _ : Exec (Recorder ω) ℕ) c).2 = _
  rw [if_neg memory]
  simp only [halfway, ← carried, ← result]
  rfl

/-- What the second half of the instruction is given. -/
def second (op : Rmw) (addr : BitVec 16) (c : Recorded ω) : BitVec 8 :=
  if op.combines then readBack op addr c else op.result c.state.p (byteAt c addr)

/-- A finished instruction that wrote the modified byte and gave `m` to its second half. -/
structure Finished (op : Rmw) (addr : BitVec 16) (c c' : Recorded ω) (m : BitVec 8) : Prop where
  written : c'.bus.writes =
    c.bus.writes ++ [(addr.setWidth 32, op.result c.state.p (byteAt c addr))]
  registers :
    let s := { c.state with p := op.carried c.state.p (byteAt c addr) }
    c'.state.a = (op.combine c.cmos s m).a ∧ c'.state.p = (op.combine c.cmos s m).p

theorem opADC_state (addr : BitVec 16) (c : Recorded ω) :
    (opADC addr c).2.state = Rmw.adc c.cmos c.state (byteAt c addr) ∧
      (opADC addr c).2.bus.writes = c.bus.writes := by
  change ((if c.cmos && flag c.state.p FLAG_D then _ else _ : Exec (Recorder ω) ℕ) _).2.state = _ ∧
    ((if c.cmos && flag c.state.p FLAG_D then _ else _ : Exec (Recorder ω) ℕ) _).2.bus.writes = _
  unfold Rmw.adc
  split <;> exact ⟨rfl, rfl⟩

theorem opSBC_state (addr : BitVec 16) (c : Recorded ω) :
    (opSBC addr c).2.state = Rmw.sbc c.cmos c.state (byteAt c addr) ∧
      (opSBC addr c).2.bus.writes = c.bus.writes := by
  change ((if c.cmos && flag c.state.p FLAG_D then _ else _ : Exec (Recorder ω) ℕ) _).2.state = _ ∧
    ((if c.cmos && flag c.state.p FLAG_D then _ else _ : Exec (Recorder ω) ℕ) _).2.bus.writes = _
  unfold Rmw.sbc
  split <;> exact ⟨rfl, rfl⟩

theorem shifted_finished {op : Rmw} {f : BitVec 8 → BitVec 8 → Bool × BitVec 8}
    (shift : Shifts op f) (plain : ∀ cmos s m, op.combine cmos s m = s.updateNZ m)
    {addr : BitVec 16} (memory : addr ≠ 0xFFFF) (c : Recorded ω) :
    Finished op addr c (shifted f addr c).2 (op.result c.state.p (byteAt c addr)) := by
  rw [shifted_memory shift memory c]
  refine ⟨rfl, ?_⟩
  simp only [plain]
  exact ⟨rfl, rfl⟩

/-- A shift and then an instruction that reads its operand: it reads the byte back, and what
the shift left in N and Z is lost. -/
theorem both_finished {op : Rmw} {f : BitVec 8 → BitVec 8 → Bool × BitVec 8}
    (shift : Shifts op f) {next : BitVec 16 → Exec (Recorder ω) ℕ} {addr : BitVec 16}
    (reads : ∀ c, (next addr c).2.bus.writes = c.bus.writes ∧
      (next addr c).2.state = op.combine c.cmos c.state (byteAt c addr))
    (fresh : ∀ cmos s val m, op.combine cmos (s.updateNZ val) m = op.combine cmos s m)
    (memory : addr ≠ 0xFFFF) (c : Recorded ω) :
    Finished op addr c (both (shifted f) next addr c).2 (readBack op addr c) := by
  change Finished op addr c (next addr (shifted f addr c).2).2 _
  rw [shifted_memory shift memory c]
  obtain ⟨writes, state⟩ := reads { halfway op addr c with
    state := (halfway op addr c).state.updateNZ (op.result c.state.p (byteAt c addr)) }
  rw [fresh] at state
  refine ⟨writes, ?_⟩
  rw [state]
  exact ⟨rfl, rfl⟩

theorem stepThen_finished {op : Rmw} {by_ : BitVec 8}
    (steps : ∀ p m, m + by_ = op.result p m ∧ p = op.carried p m)
    {next : BitVec 16 → Exec (Recorder ω) ℕ} {addr : BitVec 16}
    (reads : ∀ c, (next addr c).2.bus.writes = c.bus.writes ∧
      (next addr c).2.state = op.combine c.cmos c.state (byteAt c addr))
    (c : Recorded ω) :
    Finished op addr c (stepThen by_ next addr c).2 (readBack op addr c) := by
  obtain ⟨result, carried⟩ := steps c.state.p (byteAt c addr)
  obtain ⟨writes, state⟩ := reads (write addr (byteAt c addr + by_) (read addr c).2).2
  have parts : (stepThen by_ next addr c).2 =
      (next addr (write addr (byteAt c addr + by_) (read addr c).2).2).2 := rfl
  rw [result] at parts writes state
  rw [parts]
  refine ⟨writes, ?_⟩
  simp only [state, ← carried]
  exact ⟨rfl, rfl⟩

theorem stepByte_finished {op : Rmw} {by_ : BitVec 8}
    (steps : ∀ p m, m + by_ = op.result p m ∧ p = op.carried p m)
    (plain : ∀ cmos s m, op.combine cmos s m = s.updateNZ m) (addr : BitVec 16)
    (c : Recorded ω) :
    Finished op addr c (stepByte by_ addr c).2 (op.result c.state.p (byteAt c addr)) := by
  obtain ⟨result, carried⟩ := steps c.state.p (byteAt c addr)
  have parts : (stepByte by_ addr c).2 =
      { (write addr (byteAt c addr + by_) (read addr c).2).2 with
        state := c.state.updateNZ (byteAt c addr + by_) } := rfl
  rw [result] at parts
  rw [parts]
  refine ⟨rfl, ?_⟩
  simp only [plain, ← carried]
  trivial

/-- Where it does not take the address for the accumulator, every instruction finishes. -/
theorem call_finished (w : Wiring (Recorder ω)) (op : Rmw) (addr : BitVec 16) (c : Recorded ω)
    (memory : op.shifts = true → addr ≠ 0xFFFF) :
    Finished op addr c (call w op.fn addr c).2 (second op addr c) := by
  have less : ∀ m : BitVec 8, m + 0xFF = m - 1 := by decide
  have shift {op : Rmw} {f : BitVec 8 → BitVec 8 → Bool × BitVec 8}
      (carried : ∀ p m, carryTo p (f p m).1 = op.carried p m)
      (result : ∀ p m, (f p m).2 = op.result p m) : Shifts op f :=
    fun p m => ⟨carried p m, result p m⟩
  cases op with
  | ASL | LSR | ROL | ROR =>
    simp only [Rmw.fn, call, opASL, opLSR, opROL, opROR]
    exact shifted_finished (shift (fun _ _ => rfl) fun _ _ => rfl) (fun _ _ _ => rfl)
      (memory rfl) c
  | INC =>
    simp only [Rmw.fn, call, opINC]
    exact stepByte_finished (fun _ _ => ⟨rfl, rfl⟩) (fun _ _ _ => rfl) addr c
  | DEC =>
    simp only [Rmw.fn, call, opDEC]
    exact stepByte_finished (fun _ m => ⟨less m, rfl⟩) (fun _ _ _ => rfl) addr c
  | SLO | RLA | SRE =>
    simp only [Rmw.fn, call, opSLO, opRLA, opSRE, opASL, opROL, opLSR, opORA, opAND, opEOR]
    refine both_finished (shift (fun _ _ => rfl) fun _ _ => rfl) (fun _ => ⟨rfl, rfl⟩) ?_
      (memory rfl) c
    exact fun _ s val _ => toA_updateNZ s val _
  | RRA =>
    simp only [Rmw.fn, call, opRRA, opROR]
    refine both_finished (shift (fun _ _ => rfl) fun _ _ => rfl)
      (fun c => (opADC_state addr c).symm) ?_ (memory rfl) c
    exact adc_updateNZ
  | DCP =>
    simp only [Rmw.fn, call, opDCP, opCMP]
    exact stepThen_finished (fun _ m => ⟨less m, rfl⟩) (fun _ => ⟨rfl, rfl⟩) c
  | ISC =>
    simp only [Rmw.fn, call, opISC]
    exact stepThen_finished (fun _ _ => ⟨rfl, rfl⟩) (fun c => (opSBC_state addr c).symm) c

/-- On the accumulator's address the instructions built on a shift write nothing. -/
theorem call_accumulator (w : Wiring (Recorder ω)) (op : Rmw) (shift : op.shifts = true)
    (c : Recorded ω) : (call w op.fn 0xFFFF c).2.bus.writes = c.bus.writes := by
  cases op with
  | ASL | LSR | ROL | ROR | SLO | RLA | SRE => rfl
  | RRA =>
    simp only [Rmw.fn, call, opRRA]
    have first : (opROR 0xFFFF c).2.bus = c.bus := rfl
    have second := (opADC_state 0xFFFF (opROR 0xFFFF c).2).2
    rw [first] at second
    exact second
  | INC | DEC | DCP | ISC => cases shift

/-- An instruction acts on the addressed byte precisely if it does not take the address for the
accumulator, and what its second half makes of the byte read back is what it would make of the
modified byte. -/
theorem actsOnByte_iff {w : Wiring (Recorder ω)} {c c' : Recorded ω}
    {d : Decoded (Recorder ω)} (runs : instruction w c = some (d, c')) (op : Rmw)
    (fn : d.info.fn = op.fn) :
    ActsOnByte op d.addr c' (step w c).2 ↔ Meets op d.addr c' := by
  have same : (step w c).2 = { (call w op.fn d.addr c').2 with state := (step w c).2.state } ∧
      (step w c).2.state.a = (call w op.fn d.addr c').2.state.a ∧
      (step w c).2.state.p = (call w op.fn d.addr c').2.state.p := by
    rw [step_instruction runs, perform, fn]
    exact ⟨rfl, rfl, rfl⟩
  obtain ⟨core, a, p⟩ := same
  have writes : (step w c).2.bus.writes = (call w op.fn d.addr c').2.bus.writes := by rw [core]
  constructor
  · intro acts
    have memory : op.shifts = true → d.addr ≠ 0xFFFF := by
      intro shift accumulator
      have written := acts.written
      rw [writes, accumulator, call_accumulator w op shift] at written
      simp at written
    refine ⟨memory, fun combines => ?_⟩
    have finished := (call_finished w op d.addr c' memory).registers
    rw [second, if_pos combines] at finished
    exact ⟨finished.1.symm.trans (a.symm.trans acts.registers.1),
      finished.2.symm.trans (p.symm.trans acts.registers.2)⟩
  · rintro ⟨memory, combined⟩
    have finished := call_finished w op d.addr c' memory
    refine ⟨writes.trans finished.written, ?_, ?_⟩
    · rw [a, finished.registers.1, second]
      split
      next combines => exact (combined combines).1
      · rfl
    · rw [p, finished.registers.2, second]
      split
      next combines => exact (combined combines).2
      · rfl

end Calls

/-! ## The accumulator's address -/

/-- `ASL $FFFF` at $0200 with A = 1, on RAM that is zero elsewhere. -/
def shiftTop : Recorded FlatMemoryBus where
  state := { (default : CPU6502State) with a := 1, sp := 0xFD, p := 0x24, pc := 0x0200 }
  bus :=
    { bus := { FlatMemoryBus.new 16 with
        data := fun addr => match addr.toNat with
          | 0x200 => 0x0E
          | 0x201 | 0x202 => 0xFF
          | _ => 0 }
      writes := [] }
  cmos := false
  curOp := 0
  branchTarget := 0

def alone : Wiring (Recorder FlatMemoryBus) := ⟨none, none, none⟩

theorem actsOnByte_iff_shiftTop :
    ∃ d c', instruction alone shiftTop = some (d, c') ∧ d.info.fn = Rmw.ASL.fn ∧
      (ActsOnByte .ASL d.addr c' (step alone shiftTop).2 ↔ Meets .ASL d.addr c') := by
  have fn : (decode shiftTop.sampled).info.fn = Rmw.ASL.fn := by decide
  exact ⟨_, _, rfl, fn, actsOnByte_iff rfl .ASL fn⟩

theorem not_actsOnByte_shiftTop :
    ∃ d c', instruction alone shiftTop = some (d, c') ∧ d.info.fn = Rmw.ASL.fn ∧
      d.addr = 0xFFFF ∧ ¬ ActsOnByte .ASL d.addr c' (step alone shiftTop).2 := by
  refine ⟨_, _, rfl, by decide, by decide, fun acts => ?_⟩
  have none_written : (step alone shiftTop).2.bus.writes = [] := by decide
  have written := acts.written
  rw [none_written] at written
  exact absurd written.symm (by simp)

end Mmemu.Guarantees.ReadModifyWrite
