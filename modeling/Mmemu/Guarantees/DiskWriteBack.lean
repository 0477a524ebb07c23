import Mmemu.Source.Disk2
import Mmemu.Library.MemoryWrites
import Mmemu.Guarantees.DiskRoundTrip

/-!
# Every written nibble reaches its disk

The buffer of a drive holds the track under the head of the disk in the drive. Whatever is
done to a card, the disks and the answers are those of a card that brings each written
nibble to its disk at once.
-/
namespace Mmemu.Guarantees.DiskWriteBack

open Source.Disk2 Library.WriteBack

/-! ## Tracks of an image -/

section Images

variable (img : Disk2Image) (track : ℕ) (nibbles : List (BitVec 8))

@[simp] theorem writeTrack_order : (writeTrack img track nibbles).order = img.order := by
  unfold writeTrack
  split
  · rfl
  · split <;> rfl

@[simp] theorem writeTrack_tracks : (writeTrack img track nibbles).tracks = img.tracks := by
  unfold writeTrack
  split
  · rfl
  · split <;> rfl

@[simp] theorem writeTrack_protect : (writeTrack img track nibbles).protect = img.protect := by
  unfold writeTrack
  split
  · rfl
  · split <;> rfl

/-- How many nibbles a track has. -/
def trackLength (order : Order) : ℕ := if order = .nib then nibTrack else 6384

variable {img track nibbles}

theorem readTrack_length (present : track < img.tracks) (skew : Bool) :
    (readTrack img track skew).length = trackLength img.order := by
  unfold readTrack trackLength
  rw [if_neg (Nat.not_le.mpr present)]
  split
  · rw [List.length_map, List.length_range]
  · dsimp only
    split
    · rw [List.length_rotate, DiskRoundTrip.nibblize_length]
    · exact DiskRoundTrip.nibblize_length ..

/-- A track written twice holds what was written last. -/
theorem writeTrack_writeTrack {newer : List (BitVec 8)} (same : newer.length = nibbles.length) :
    writeTrack (writeTrack img track nibbles) track newer = writeTrack img track newer := by
  by_cases refused : img.tracks ≤ track ∨ img.protect
  · rw [writeTrack, if_pos (by simpa using refused)]
    simp only [writeTrack, if_pos refused]
  · have fits : ¬((writeTrack img track nibbles).tracks ≤ track ∨
        (writeTrack img track nibbles).protect) := by simpa using refused
    by_cases recorded : img.order = .nib
    · have recorded' : (writeTrack img track nibbles).order = .nib := by simpa using recorded
      rw [writeTrack, if_neg fits, if_pos recorded']
      simp only [writeTrack, if_neg refused, if_pos recorded, same]
      congr 1
      funext i
      split <;> rfl
    · have recorded' : (writeTrack img track nibbles).order ≠ .nib := by simpa using recorded
      rw [writeTrack, if_neg fits, if_neg recorded']
      simp only [writeTrack, if_neg refused, if_neg recorded]
      congr 1
      funext i
      split <;> rfl

variable (img track nibbles) in
/-- Nibbles that stand for a track of an image: its own, or those of its sectors. -/
def Corresponds : Prop :=
  if img.order = .nib then nibbles = readTrack img track true
  else denibblize img.order nibbles = img.track track

theorem corresponds_readTrack (present : track < img.tracks) :
    Corresponds img track (readTrack img track true) := by
  unfold Corresponds
  split
  · rfl
  next sectors =>
    unfold readTrack
    rw [if_neg (Nat.not_le.mpr present), if_neg sectors]
    exact DiskRoundTrip.denibblize_rotate_nibblize ..

theorem corresponds_writeTrack (present : track < img.tracks) (writable : img.protect = false)
    (full : nibbles.length = trackLength img.order) :
    Corresponds (writeTrack img track nibbles) track nibbles := by
  have fits : ¬(img.tracks ≤ track ∨ img.protect) := by
    rw [writable]
    simpa using present
  unfold Corresponds
  rw [writeTrack_order]
  split
  next recorded =>
    have length : nibbles.length = nibTrack := by rw [full, trackLength, if_pos recorded]
    simp only [writeTrack, if_neg fits, if_pos recorded, readTrack, if_neg (Nat.not_le.mpr present)]
    refine List.ext_getElem (by simpa using length) ?_
    intro i h _
    have inside : nibTrack * track ≤ nibTrack * track + i ∧
        nibTrack * track + i - nibTrack * track < min nibbles.length nibTrack := by omega
    rw [List.getElem_map, List.getElem_range, if_pos inside, Nat.add_sub_cancel_left]
    exact (List.getD_eq_getElem _ _ h).symm
  next sectors =>
    simp only [writeTrack, if_neg fits, if_neg sectors]
    funext i
    have inside : trackBytes * track ≤ trackBytes * track + i.toNat ∧
        trackBytes * track + i.toNat - trackBytes * track < trackBytes := by
      have := i.isLt
      unfold trackBytes
      omega
    rw [Disk2Image.track]
    dsimp only
    rw [if_pos inside, Nat.add_sub_cancel_left, BitVec.ofNat_toNat, BitVec.setWidth_eq]

end Images

/-! ## Drives -/

/-- A buffer in use holds the track under the head of the disk in the drive, and only such a
buffer can have been written to. -/
structure Holds (d : Drive) : Prop where
  loaded : d.disk.trackData = true → ∃ img, d.disk.image = some img ∧ d.head < img.tracks ∧
    d.disk.track.length = trackLength img.order ∧
    (d.disk.dirty = false → Corresponds img d.head d.disk.track)
  dirty : d.disk.dirty = true → d.disk.trackData = true ∧
    ∃ img, d.disk.image = some img ∧ img.protect = false

section Drives

variable {d : Drive}

theorem flush_of_clean (clean : d.disk.dirty = false) : d.flush = d := by
  unfold Drive.flush
  rw [clean]
  cases d with
  | mk disk phase spinning writeLight motorOnCycle =>
    cases disk
    simp_all

theorem flush_flush : d.flush.flush = d.flush := flush_of_clean rfl

/-- What a written buffer comes from. -/
theorem Holds.written (h : Holds d) (dirty : d.disk.dirty = true) :
    ∃ img, d.disk.image = some img ∧ d.head < img.tracks ∧ img.protect = false ∧
      d.disk.track.length = trackLength img.order ∧
      d.flush.disk.image = some (writeTrack img d.head d.disk.track) := by
  obtain ⟨used, img, inside, writable⟩ := h.dirty dirty
  obtain ⟨img', inside', present, full, -⟩ := h.loaded used
  obtain rfl : img = img' := Option.some.inj (inside.symm.trans inside')
  refine ⟨img, inside, present, writable, full, ?_⟩
  simp [Drive.flush, dirty, inside]

theorem Holds.flush (h : Holds d) : Holds d.flush := by
  cases dirty : d.disk.dirty with
  | false => rwa [flush_of_clean dirty]
  | true =>
    obtain ⟨img, -, present, writable, full, image⟩ := h.written dirty
    constructor
    · intro _
      refine ⟨_, image, ?_, ?_, fun _ => ?_⟩
      · rwa [writeTrack_tracks]
      · rwa [writeTrack_order]
      · exact corresponds_writeTrack present writable full
    · intro impossible
      cases impossible

/-- A buffer that is to be read again. -/
theorem holds_unloaded {e : Drive} (unloaded : e.disk.trackData = false)
    (clean : e.disk.dirty = false) : Holds e where
  loaded used := absurd (unloaded.symm.trans used) Bool.false_ne_true
  dirty written := absurd (clean.symm.trans written) Bool.false_ne_true

/-- The drive whose buffer goes back to the disk. -/
def drives : Deferral Drive where
  settle := Drive.flush
  Inv := Holds
  settle_settle _ _ := flush_flush
  inv_settle _ h := h.flush

/-- What `Holds` is about. -/
theorem Holds.of_same (h : Holds d) {e : Drive} (phase : e.phase = d.phase)
    (disk : { e.disk with byte := 0 } = { d.disk with byte := 0 }) : Holds e := by
  obtain ⟨disk', phase', _, _, _⟩ := e
  cases disk'
  simp only [Floppy.mk.injEq] at disk
  obtain ⟨rfl, rfl, -, rfl, rfl⟩ := disk
  obtain rfl : phase' = d.phase := phase
  exact ⟨h.loaded, h.dirty⟩

/-- Time, lights and the turning of the disk do not touch the nibbles. -/
theorem commutes_quiet (h : Holds d) {g : Drive → Drive} (phase : (g d).phase = d.phase)
    (disk : { (g d).disk with byte := 0 } = { d.disk with byte := 0 })
    (eq : g d.flush = (g d).flush) : drives.Commutes g d :=
  .of_eq h (h.of_same phase disk) eq

theorem commutes_flush (h : Holds d) : drives.Commutes Drive.flush d :=
  .of_eq h h.flush rfl

theorem commutes_turn (h : Holds d) (diff : BitVec 64) : drives.Commutes (Drive.turn · diff) d := by
  apply commutes_quiet h
  all_goals
    unfold Drive.turn
    split <;> rfl

theorem commutes_advance (h : Holds d) : drives.Commutes Drive.advance d :=
  commutes_quiet h rfl rfl rfl

theorem commutes_runDown (h : Holds d) (motorOn : Bool) (cycles : BitVec 64) :
    drives.Commutes (Drive.runDown · motorOn cycles) d := by
  by_cases runs : d.spinning ≠ 0 ∧ !motorOn
  · have flushed : d.flush.spinning ≠ 0 ∧ !motorOn := runs
    apply commutes_quiet h <;> simp only [Drive.runDown, if_pos runs, if_pos flushed]
    rfl
  · have flushed : ¬(d.flush.spinning ≠ 0 ∧ !motorOn) := runs
    apply commutes_quiet h <;> simp only [Drive.runDown, if_neg runs, if_neg flushed]

theorem commutes_shine (h : Holds d) (writing : Bool) (cycles : BitVec 64) :
    drives.Commutes (Drive.shine · writing cycles) d := by
  by_cases lit : writing ∧ d.spinning ≠ 0
  · have flushed : writing ∧ d.flush.spinning ≠ 0 := lit
    apply commutes_quiet h <;> simp only [Drive.shine, if_pos lit, if_pos flushed]
    rfl
  · have flushed : ¬(writing ∧ d.flush.spinning ≠ 0) := lit
    apply commutes_quiet h <;> simp only [Drive.shine, if_neg lit, if_neg flushed]
    rfl

theorem commutes_moveTo (h : Holds d) (np : ℕ → ℕ) :
    drives.Commutes (fun d => d.moveTo (np d.phase)) d := by
  by_cases moved : np d.phase ≠ d.phase
  · have flushed : np d.phase ≠ d.flush.phase := moved
    refine .of_eq h ?_ ?_
    · simp only [Drive.moveTo, if_pos moved]
      exact holds_unloaded rfl rfl
    · change d.flush.moveTo (np d.phase) = (d.moveTo (np d.phase)).flush
      rw [Drive.moveTo, Drive.moveTo, if_pos moved, if_pos flushed]
      rfl
  · have flushed : ¬np d.phase ≠ d.flush.phase := moved
    refine .of_eq h ?_ ?_
    · change Holds (d.moveTo (np d.phase))
      rwa [Drive.moveTo, if_neg moved]
    · change d.flush.moveTo (np d.phase) = (d.moveTo (np d.phase)).flush
      rw [Drive.moveTo, Drive.moveTo, if_neg moved, if_neg flushed]

theorem commutes_load (h : Holds d) (image : Option Disk2Image) :
    drives.Commutes (Drive.load · image) d := by
  refine .of_eq h (holds_unloaded rfl rfl) ?_
  exact (flush_of_clean (d := d.load image) rfl).symm

/-- The nibble may go to the disk with the ones before it or behind them. -/
theorem commutes_writeNibble (h : Holds d) (loaded : d.disk.trackData = true) {img : Disk2Image}
    (inside : d.disk.image = some img) (writable : img.protect = false) (latch : BitVec 8) :
    drives.Commutes (Drive.writeNibble · latch) d := by
  obtain ⟨img', inside', present, full, -⟩ := h.loaded loaded
  obtain rfl : img = img' := Option.some.inj (inside.symm.trans inside')
  constructor
  · constructor
    · intro _
      refine ⟨img, inside, present, ?_, fun clean => by cases clean⟩
      rw [← full]
      exact List.length_set
    · intro _
      exact ⟨loaded, img, inside, writable⟩
  · change (d.writeNibble latch).flush = (d.flush.writeNibble latch).flush
    cases dirty : d.disk.dirty with
    | false => rw [flush_of_clean dirty]
    | true =>
      have again : writeTrack (writeTrack img d.head d.disk.track) d.head
          (d.disk.track.set d.disk.byte latch) = writeTrack img d.head (d.disk.track.set d.disk.byte latch) :=
        writeTrack_writeTrack (List.length_set ..)
      simp only [Drive.writeNibble, Drive.flush, dirty, inside, if_true, Option.map_some]
      exact congrArg (fun img => Drive.mk ⟨some img, _, _, _, _⟩ _ _ _ _) again.symm

theorem Holds.readTrack (h : Holds d) (unloaded : d.disk.trackData = false) : Holds d.readTrack := by
  have clean : d.disk.dirty = false := by
    cases dirty : d.disk.dirty with
    | false => rfl
    | true => exact absurd (h.dirty dirty).1 (by simp [unloaded])
  unfold Drive.readTrack
  split
  · exact holds_unloaded rfl clean
  next img inside =>
    split
    · exact holds_unloaded rfl clean
    next present =>
      have present : d.head < img.tracks := Nat.not_le.mp present
      refine ⟨fun _ => ⟨img, inside, present, readTrack_length present true, fun _ => ?_⟩,
        fun dirty => absurd (clean.symm.trans dirty) Bool.false_ne_true⟩
      exact corresponds_readTrack present

/-! ## Drives that are alike -/

section AlikeDrives

variable {e : Drive} (alike : drives.Alike d e)

include alike

theorem alike_spinning : e.spinning = d.spinning := congrArg (fun d => d.spinning) alike.settled.symm

theorem alike_motorOnCycle : e.motorOnCycle = d.motorOnCycle :=
  congrArg (fun d => d.motorOnCycle) alike.settled.symm

theorem alike_track : e.disk.track = d.disk.track :=
  congrArg (fun d => d.disk.track) alike.settled.symm

theorem alike_byte : e.disk.byte = d.disk.byte := congrArg (fun d => d.disk.byte) alike.settled.symm

theorem alike_trackData : e.disk.trackData = d.disk.trackData :=
  congrArg (fun d => d.disk.trackData) alike.settled.symm

/-- The switch for write protection is on the disk, not in what is written to it. -/
theorem alike_protect : e.disk.image.map Disk2Image.protect = d.disk.image.map Disk2Image.protect := by
  have flushed : ∀ d : Drive,
      d.flush.disk.image.map Disk2Image.protect = d.disk.image.map Disk2Image.protect := by
    intro d
    cases inside : d.disk.image with
    | none => simp [Drive.flush, inside]
    | some img =>
      cases dirty : d.disk.dirty <;> simp [Drive.flush, inside, dirty]
  rw [← flushed d, ← flushed e]
  exact congrArg (fun d => d.disk.image.map Disk2Image.protect) alike.settled.symm

/-- Without a track in the buffer there is nothing to be written. -/
theorem alike_unloaded (unloaded : d.disk.trackData = false) : e = d := by
  have clean : ∀ {d : Drive}, Holds d → d.disk.trackData = false → d.flush = d := by
    intro d h unloaded
    refine flush_of_clean ?_
    cases dirty : d.disk.dirty with
    | false => rfl
    | true => exact absurd (h.dirty dirty).1 (by simp [unloaded])
  rw [← clean alike.left unloaded, ← clean alike.right ((alike_trackData alike).trans unloaded)]
  exact alike.settled.symm

theorem alike_quiet {g : Drive → Drive} (phase : ∀ d, (g d).phase = d.phase)
    (disk : ∀ d, { (g d).disk with byte := 0 } = { d.disk with byte := 0 })
    (eq : ∀ d, g d.flush = (g d).flush) : drives.Alike (g d) (g e) :=
  alike.map (commutes_quiet alike.left (phase d) (disk d) (eq d))
    (commutes_quiet alike.right (phase e) (disk e) (eq e))

end AlikeDrives

end Drives

/-! ## Cards -/

section Cards

variable {c c' : Disk2Card}

theorem destroy_eq (c : Disk2Card) : c.destroy = { c with drive := fun i => (c.drive i).flush } := by
  unfold Disk2Card.destroy Disk2Card.flush Disk2Card.modify
  congr 1
  funext i
  cases i <;> rfl

@[simp] theorem destroy_drive (c : Disk2Card) (i : Bool) : c.destroy.drive i = (c.drive i).flush := by
  rw [destroy_eq]

/-- The card whose buffers go back to the disks. -/
def cards : Deferral Disk2Card where
  settle := Disk2Card.destroy
  Inv c := ∀ i, Holds (c.drive i)
  settle_settle c _ := by
    rw [destroy_eq, destroy_eq]
    congr 1
  inv_settle c h i := by
    rw [destroy_drive]
    exact (h i).flush

theorem alike_with (c : Disk2Card) {ds : Bool → Drive} (alike : ∀ i, drives.Alike (c.drive i) (ds i)) :
    cards.Alike c { c with drive := ds } where
  left i := (alike i).left
  right i := (alike i).right
  settled := by
    change c.destroy = Disk2Card.destroy _
    rw [destroy_eq, destroy_eq]
    congr 1
    funext i
    exact (alike i).settled

theorem alike_split (alike : cards.Alike c c') :
    ∃ ds, c' = { c with drive := ds } ∧ ∀ i, drives.Alike (c.drive i) (ds i) := by
  have settled : c.destroy = c'.destroy := alike.settled
  refine ⟨c'.drive, ?_, fun i => ⟨alike.left i, alike.right i, ?_⟩⟩
  · rw [destroy_eq, destroy_eq] at settled
    cases c
    cases c'
    simp_all
  · have drive := congrArg (fun c => c.drive i) settled
    rwa [destroy_drive, destroy_drive] at drive

theorem alike_modify {i : Bool} {f g : Drive → Drive} (alike : cards.Alike c c')
    (at_ : drives.Alike (f (c.drive i)) (g (c'.drive i))) :
    cards.Alike (c.modify i f) (c'.modify i g) := by
  obtain ⟨ds, rfl, each⟩ := alike_split alike
  refine alike_with (c.modify i f) ?_
  intro j
  by_cases same : j = i
  · subst same
    simpa [Disk2Card.modify] using at_
  · simpa [Disk2Card.modify, same] using each j

theorem alike_modify_quiet (alike : cards.Alike c c') (i : Bool) {g : Drive → Drive}
    (phase : ∀ d, (g d).phase = d.phase)
    (disk : ∀ d, { (g d).disk with byte := 0 } = { d.disk with byte := 0 })
    (eq : ∀ d, g d.flush = (g d).flush) : cards.Alike (c.modify i g) (c'.modify i g) := by
  obtain ⟨ds, rfl, each⟩ := alike_split alike
  exact alike_modify (alike_with c each) (alike_quiet (each i) phase disk eq)

/-! ## Operations -/

section Operations

variable (alike : cards.Alike c c')

include alike

theorem alike_flush (i : Bool) : cards.Alike (c.flush i) (c'.flush i) := by
  obtain ⟨ds, rfl, each⟩ := alike_split alike
  exact alike_modify (alike_with c each) ((each i).map (commutes_flush (each i).left)
    (commutes_flush (each i).right))

theorem alike_stepperDeferred : cards.Alike c.stepperDeferred c'.stepperDeferred := by
  obtain ⟨ds, rfl, each⟩ := alike_split alike
  exact alike_modify (alike_with { c with deferred := false } each)
    ((each c.curr).map (commutes_moveTo (each _).left (Disk2Card.pulled c.magnets))
      (commutes_moveTo (each _).right (Disk2Card.pulled c.magnets)))

theorem alike_syncStepper (now : BitVec 64) :
    cards.Alike (c.syncStepper now) (c'.syncStepper now) := by
  obtain ⟨ds, rfl, each⟩ := alike_split alike
  have clock := alike_with { c with now := now } each
  unfold Disk2Card.syncStepper
  by_cases later : c.now < now
  · simp only [if_pos later]
    split
    · exact alike_stepperDeferred clock
    · exact clock
  · simp only [if_neg later]
    split
    · exact alike_stepperDeferred alike
    · exact alike

theorem alike_controlStepper (addr : BitVec 16) (now : BitVec 64) :
    cards.Alike (c.controlStepper addr now) (c'.controlStepper addr now) := by
  have set : cards.Alike (c.setMagnet addr) (c'.setMagnet addr) := by
    obtain ⟨ds, rfl, each⟩ := alike_split alike
    exact alike_with (c.setMagnet addr) each
  have defer : ∀ {c c' : Disk2Card}, cards.Alike c c' →
      cards.Alike (c.defer addr now) (c'.defer addr now) := by
    intro c c' alike
    obtain ⟨ds, rfl, each⟩ := alike_split alike
    exact alike_with (c.defer addr now) each
  obtain ⟨ds, rfl, each⟩ := alike_split alike
  unfold Disk2Card.controlStepper
  simp only [alike_spinning (each c.curr)]
  split
  · exact alike
  · split
    next deferred =>
      rw [if_pos (show (Disk2Card.setMagnet { c with drive := ds } addr).deferred = true from deferred)]
      split
      next off =>
        rw [if_pos (show Disk2Card.adjacentOff (Disk2Card.setMagnet { c with drive := ds } addr).deferredAddr
          addr = true from off)]
        exact alike_with { c.setMagnet addr with deferred := false } each
      next apart =>
        rw [if_neg (show ¬Disk2Card.adjacentOff (Disk2Card.setMagnet { c with drive := ds } addr).deferredAddr
          addr = true from apart)]
        exact defer (alike_stepperDeferred set)
    next quiet =>
      rw [if_neg (show ¬(Disk2Card.setMagnet { c with drive := ds } addr).deferred = true from quiet)]
      exact defer set

theorem alike_checkSpinning (stateChanged : Bool) (now : BitVec 64) :
    cards.Alike (c.checkSpinning stateChanged now) (c'.checkSpinning stateChanged now) := by
  have spun : cards.Alike
      (if c.motorOn then c.modify c.curr fun d => { d with spinning := spinningCycles } else c)
      (if c'.motorOn then c'.modify c'.curr fun d => { d with spinning := spinningCycles } else c') := by
    obtain ⟨ds, rfl, each⟩ := alike_split alike
    split
    · exact alike_modify_quiet alike c.curr (fun _ => rfl) (fun _ => rfl) (fun _ => rfl)
    · exact alike
  have cycle : ∀ {c c' : Disk2Card} (changed : Bool), cards.Alike c c' →
      cards.Alike (if changed then { c with lastCycle := now } else c)
        (if changed then { c' with lastCycle := now } else c') := by
    intro c c' changed alike
    obtain ⟨ds, rfl, each⟩ := alike_split alike
    cases changed with
    | false => exact alike
    | true => exact alike_with { c with lastCycle := now } each
  have stamped : ∀ {c c' : Disk2Card}, cards.Alike c c' → cards.Alike
      (if c.motorOn ∧ stateChanged then c.modify c.curr fun d => { d with motorOnCycle := now } else c)
      (if c'.motorOn ∧ stateChanged then c'.modify c'.curr fun d => { d with motorOnCycle := now }
        else c') := by
    intro c c' alike
    obtain ⟨ds, rfl, each⟩ := alike_split alike
    split
    · exact alike_modify_quiet alike c.curr (fun _ => rfl) (fun _ => rfl) (fun _ => rfl)
    · exact alike
  have changed : (c'.motorOn && (c'.drive c'.curr).spinning == 0) =
      (c.motorOn && (c.drive c.curr).spinning == 0) := by
    obtain ⟨ds, rfl, each⟩ := alike_split alike
    exact congrArg (fun n => c.motorOn && n == 0) (alike_spinning (each c.curr))
  unfold Disk2Card.checkSpinning
  rw [changed]
  exact stamped (cycle _ spun)

theorem alike_controlMotor (addr : BitVec 16) (now : BitVec 64) :
    cards.Alike (c.controlMotor addr now) (c'.controlMotor addr now) := by
  obtain ⟨ds, rfl, each⟩ := alike_split alike
  exact alike_checkSpinning (alike_with
    { c with magnets := if !addr.getLsbD 0 then 0 else c.magnets, motorOn := addr.getLsbD 0 } each) _ now

theorem alike_enable (addr : BitVec 16) (now : BitVec 64) :
    cards.Alike (c.enable addr now) (c'.enable addr now) := by
  obtain ⟨ds, rfl, each⟩ := alike_split alike
  exact alike_checkSpinning (alike_modify_quiet (alike_with { c with curr := addr.getLsbD 0 } each)
    (!addr.getLsbD 0) (g := fun d => { d with spinning := 0, writeLight := 0 })
    (fun _ => rfl) (fun _ => rfl) (fun _ => rfl)) _ now

theorem alike_noise (now : BitVec 64) : cards.Alike (c.noise now) (c'.noise now) := by
  obtain ⟨ds, rfl, each⟩ := alike_split alike
  unfold Disk2Card.noise
  simp only [alike_motorOnCycle (each c.curr)]
  split
  · exact alike_with { c with latch := 0x80 } each
  · exact alike_with { c with rand := _, latch := _ } each

theorem alike_loadWriteProtect : cards.Alike c.loadWriteProtect c'.loadWriteProtect := by
  obtain ⟨ds, rfl, each⟩ := alike_split alike
  have switch : (ds c.curr).disk.image.any Disk2Image.protect =
      (c.drive c.curr).disk.image.any Disk2Image.protect := by
    have same := congrArg (fun o => o.any id) (alike_protect (each c.curr))
    simpa [Option.any_map] using same
  unfold Disk2Card.loadWriteProtect
  simp only [alike_spinning (each c.curr), switch]
  split
  · exact alike
  · exact alike_with { c with latch := _ } each

theorem alike_setSequencer (addr : BitVec 16) :
    cards.Alike (c.setSequencer addr) (c'.setSequencer addr) := by
  obtain ⟨ds, rfl, each⟩ := alike_split alike
  unfold Disk2Card.setSequencer
  split
  · exact alike_with { c with loadMode := false } each
  · exact alike_with { c with loadMode := true } each
  · exact alike_with { c with writeMode := false } each
  · exact alike_with { c with writeMode := true } each
  · exact alike

theorem alike_transfer (now : BitVec 64) (loaded : (c.drive c.curr).disk.trackData = true) :
    cards.Alike (c.transfer now) (c'.transfer now) := by
  obtain ⟨ds, rfl, each⟩ := alike_split alike
  have advanced := (each c.curr).map (commutes_advance (each _).left) (commutes_advance (each _).right)
  have loaded' : (ds c.curr).disk.trackData = true := (alike_trackData (each c.curr)).trans loaded
  obtain ⟨img, inside, -⟩ := (each c.curr).left.loaded loaded
  obtain ⟨img', inside', -⟩ := (each c.curr).right.loaded loaded'
  have protect : img'.protect = img.protect := by
    have same := alike_protect (each c.curr)
    rw [inside, inside'] at same
    exact Option.some.inj same
  unfold Disk2Card.transfer
  simp only [alike_spinning (each c.curr), alike_track (each c.curr), alike_byte (each c.curr), inside,
    inside', protect]
  split
  · split
    · exact alike
    · split
      · exact alike_with { c with latch := _ } each
      · exact alike_modify (alike_with { c with latch := _, lastReadLatch := now } each) advanced
  · split
    next writable =>
      have writable : img.protect = false := by simpa using writable
      have wrote := (each c.curr).map (commutes_writeNibble (each _).left loaded inside writable c.latch)
        (commutes_writeNibble (each _).right loaded' inside' (protect.trans writable) c.latch)
      split
      · exact alike
      · exact alike_modify alike (wrote.map (commutes_advance wrote.left) (commutes_advance wrote.right))
    · exact alike_modify alike advanced

theorem alike_readWrite (now : BitVec 64) : cards.Alike (c.readWrite now) (c'.readWrite now) := by
  have read : cards.Alike
      (if !(c.drive c.curr).disk.trackData ∧ (c.drive c.curr).disk.image.isSome then
        c.modify c.curr Drive.readTrack else c)
      (if !(c'.drive c'.curr).disk.trackData ∧ (c'.drive c'.curr).disk.image.isSome then
        c'.modify c'.curr Drive.readTrack else c') := by
    obtain ⟨ds, rfl, each⟩ := alike_split alike
    cases loaded : (c.drive c.curr).disk.trackData with
    | true => simpa [alike_trackData (each c.curr), loaded] using alike
    | false =>
      have same : ds c.curr = c.drive c.curr := alike_unloaded (each c.curr) loaded
      simp only [same, loaded]
      split
      · refine alike_modify alike ?_
        dsimp only
        rw [same]
        exact .refl ((each c.curr).left.readTrack loaded)
      · exact alike
  have turned : ∀ {c c' : Disk2Card}, cards.Alike c c' → cards.Alike
      (if (c.drive c.curr).spinning ≠ 0 then
        { c with lastCycle := now }.modify c.curr (Drive.turn · (now - c.lastCycle)) else c)
      (if (c'.drive c'.curr).spinning ≠ 0 then
        { c' with lastCycle := now }.modify c'.curr (Drive.turn · (now - c'.lastCycle)) else c') := by
    intro c c' alike
    obtain ⟨ds, rfl, each⟩ := alike_split alike
    simp only [alike_spinning (each c.curr)]
    split
    · exact alike_modify (alike_with { c with lastCycle := now } each)
        ((each c.curr).map (commutes_turn (each _).left _) (commutes_turn (each _).right _))
    · exact alike
  have rest : ∀ {c c' : Disk2Card}, cards.Alike c c' → cards.Alike
      (if !(c.drive c.curr).disk.trackData then c.noise now
        else Disk2Card.transfer
          (if (c.drive c.curr).spinning ≠ 0 then
            { c with lastCycle := now }.modify c.curr (Drive.turn · (now - c.lastCycle)) else c) now)
      (if !(c'.drive c'.curr).disk.trackData then c'.noise now
        else Disk2Card.transfer
          (if (c'.drive c'.curr).spinning ≠ 0 then
            { c' with lastCycle := now }.modify c'.curr (Drive.turn · (now - c'.lastCycle)) else c') now) := by
    intro c c' alike
    have loads : (c'.drive c'.curr).disk.trackData = (c.drive c.curr).disk.trackData := by
      obtain ⟨ds, rfl, each⟩ := alike_split alike
      exact alike_trackData (each c.curr)
    rw [loads]
    split
    · exact alike_noise alike now
    next used =>
      refine alike_transfer (turned alike) now ?_
      have used : (c.drive c.curr).disk.trackData = true := by simpa using used
      split
      · simp only [Disk2Card.modify, Function.update_self, Drive.turn]
        split <;> exact used
      · exact used
  exact rest read

theorem alike_switch (addr : BitVec 16) : cards.Alike (c.switch addr) (c'.switch addr) := by
  have now : c'.now = c.now := by
    obtain ⟨ds, rfl, -⟩ := alike_split alike
    rfl
  have curr : c'.curr = c.curr := by
    obtain ⟨ds, rfl, -⟩ := alike_split alike
    rfl
  unfold Disk2Card.switch
  rw [now, curr]
  split
  · exact alike_controlMotor alike addr c.now
  · exact alike_controlMotor alike addr c.now
  · exact alike_enable alike addr c.now
  · exact alike_enable alike addr c.now
  · exact alike_readWrite alike c.now
  · exact alike_loadWriteProtect alike
  · exact alike
  · exact alike_modify_quiet alike c.curr (fun _ => rfl) (fun _ => rfl) (fun _ => rfl)
  · exact alike_controlStepper alike addr c.now

theorem alike_io (addr : BitVec 16) (wr : Option (BitVec 8)) (now : BitVec 64) :
    cards.Alike (c.io addr wr now).1 (c'.io addr wr now).1 ∧
      (c.io addr wr now).2 = (c'.io addr wr now).2 := by
  have switched := alike_switch (alike_setSequencer (alike_syncStepper alike now) addr) addr
  obtain ⟨ds, eq, each⟩ := alike_split switched
  unfold Disk2Card.io
  rw [eq]
  cases wr with
  | none => exact ⟨alike_with _ each, rfl⟩
  | some v =>
    refine ⟨?_, rfl⟩
    dsimp only
    split
    · exact alike_with { ((c.syncStepper now).setSequencer addr).switch addr with latch := v } each
    · exact alike_with _ each

theorem alike_updateDrive (cycles : BitVec 64) (i : Bool) :
    cards.Alike (c.updateDrive cycles i) (c'.updateDrive cycles i) := by
  obtain ⟨ds, rfl, each⟩ := alike_split alike
  have ran := (each i).map (commutes_runDown (each i).left c.motorOn cycles)
    (commutes_runDown (each i).right c.motorOn cycles)
  have shone := ran.map (commutes_shine ran.left (c.writeMode && c.curr == i) cycles)
    (commutes_shine ran.right (c.writeMode && c.curr == i) cycles)
  have aged : cards.Alike
      ((c.modify i (Drive.runDown · c.motorOn cycles)).modify i
        (Drive.shine · (c.writeMode && c.curr == i) cycles))
      (({ c with drive := ds }.modify i (Drive.runDown · c.motorOn cycles)).modify i
        (Drive.shine · (c.writeMode && c.curr == i) cycles)) := by
    refine alike_modify (alike_modify alike ran) ?_
    simpa only [Disk2Card.modify, Function.update_self] using shone
  have stop : ∀ {c c' : Disk2Card}, cards.Alike c c' →
      cards.Alike (if !c.motorOn ∧ (c.drive i).spinning = 0 then c.flush i else c)
        (if !c'.motorOn ∧ (c'.drive i).spinning = 0 then c'.flush i else c') := by
    intro c c' alike
    obtain ⟨ds, rfl, each⟩ := alike_split alike
    simp only [alike_spinning (each i)]
    split
    · exact alike_flush alike i
    · exact alike
  exact stop aged

theorem alike_update (now cycles : BitVec 64) :
    cards.Alike (c.update now cycles) (c'.update now cycles) :=
  alike_updateDrive (alike_updateDrive (alike_syncStepper alike now) cycles false) cycles true

theorem alike_reset (powerCycle : Bool) : cards.Alike (c.reset powerCycle) (c'.reset powerCycle) := by
  have stop : ∀ {c c' : Disk2Card} (i : Bool), cards.Alike c c' → cards.Alike
      ((c.flush i).modify i fun d => { d with spinning := 0, writeLight := 0, motorOnCycle := 0 })
      ((c'.flush i).modify i fun d => { d with spinning := 0, writeLight := 0, motorOnCycle := 0 }) :=
    fun i alike => alike_modify_quiet (alike_flush alike i) i (fun _ => rfl) (fun _ => rfl) (fun _ => rfl)
  obtain ⟨ds, rfl, each⟩ := alike_split alike
  have off := alike_with
    { c with
      curr := false, motorOn := false, magnets := 0, writeMode := false, loadMode := false
      deferred := false } each
  unfold Disk2Card.reset
  cases powerCycle with
  | false => exact off
  | true =>
    have clocks : ∀ {c c' : Disk2Card}, cards.Alike c c' → cards.Alike
        { c with lastCycle := 0, lastReadLatch := 0, now := 0 }
        { c' with lastCycle := 0, lastReadLatch := 0, now := 0 } := by
      intro c c' alike
      obtain ⟨ds, rfl, each⟩ := alike_split alike
      exact alike_with { c with lastCycle := 0, lastReadLatch := 0, now := 0 } each
    exact clocks (stop true (stop false off))

/-- The disk taken out is the same, and holds what was written to it. -/
theorem alike_ejectDisk (unit : ℕ) : cards.Alike (c.ejectDisk unit).1 (c'.ejectDisk unit).1 ∧
    (c.ejectDisk unit).2 = (c'.ejectDisk unit).2 := by
  unfold Disk2Card.ejectDisk
  split
  · exact ⟨alike, rfl⟩
  · have flushed := alike_flush alike (unit == 2)
    have same : ((c.flush (unit == 2)).drive (unit == 2)) = ((c'.flush (unit == 2)).drive (unit == 2)) := by
      obtain ⟨ds, rfl, each⟩ := alike_split alike
      have settled : (c.drive (unit == 2)).flush = (ds (unit == 2)).flush := (each (unit == 2)).settled
      simpa [Disk2Card.flush, Disk2Card.modify] using settled
    refine ⟨alike_modify flushed ?_, ?_⟩
    · rw [same]
      refine .refl (holds_unloaded rfl ?_)
      simp [Disk2Card.flush, Disk2Card.modify, Drive.flush, Drive.release]
    · dsimp only
      rw [same]

theorem alike_insert (drive : ℕ) (image : Option Disk2Image) :
    cards.Alike (c.insert drive image).1 (c'.insert drive image).1 ∧
      (c.insert drive image).2 = (c'.insert drive image).2 := by
  obtain ⟨taken, same⟩ := alike_ejectDisk alike (drive % 2 + 1)
  obtain ⟨ds, eq, each⟩ := alike_split taken
  unfold Disk2Card.insert
  refine ⟨?_, congrArg (fun ejected => (image.isSome, ejected)) same⟩
  dsimp only
  rw [eq]
  exact alike_modify (alike_with _ each)
    ((each _).map (commutes_load (each _).left image) (commutes_load (each _).right image))

theorem alike_mountDisk (unit : ℕ) (image : Option Disk2Image) :
    cards.Alike (c.mountDisk unit image).1 (c'.mountDisk unit image).1 ∧
      (c.mountDisk unit image).2 = (c'.mountDisk unit image).2 := by
  unfold Disk2Card.mountDisk
  split
  · exact ⟨alike, rfl⟩
  · split
    · exact ⟨alike, rfl⟩
    · exact alike_insert alike (unit - 1) image

end Operations

theorem blind : cards.Blind Disk2Card.step where
  alike operation alike := by
    cases operation with
    | io addr wr now => exact (alike_io alike addr wr now).1
    | update now cycles => exact alike_update alike now cycles
    | reset powerCycle => exact alike_reset alike powerCycle
    | insert drive image => exact (alike_insert alike drive image).1
    | mount unit image => exact (alike_mountDisk alike unit image).1
    | eject unit => exact (alike_ejectDisk alike unit).1
  answer operation alike := by
    cases operation with
    | io addr wr now => exact congrArg (Answer.mk · true none) (alike_io alike addr wr now).2
    | update now cycles => rfl
    | reset powerCycle => rfl
    | insert drive image =>
      exact congrArg (fun done => Answer.mk none done.1 done.2) (alike_insert alike drive image).2
    | mount unit image =>
      exact congrArg (fun done => Answer.mk none done.1 done.2) (alike_mountDisk alike unit image).2
    | eject unit => exact congrArg (Answer.mk none true) (alike_ejectDisk alike unit).2

end Cards

/-! ## Where a nibble goes -/

section Nibbles

variable {images : Bool → Option Disk2Image} {c : Disk2Card}

/-- The disks in the drives, with nothing to be written back. -/
def Idle (images : Bool → Option Disk2Image) (c : Disk2Card) : Prop :=
  ∀ i, (c.drive i).disk.image = images i ∧ (c.drive i).disk.dirty = false

theorem Idle.modify (h : Idle images c) (i : Bool) {g : Drive → Drive}
    (keeps : ∀ d, d.disk.dirty = false → (g d).disk.image = d.disk.image ∧ (g d).disk.dirty = false) :
    Idle images (c.modify i g) := by
  intro j
  by_cases same : j = i
  · subst same
    obtain ⟨image, clean⟩ := keeps _ (h j).2
    simpa [Disk2Card.modify, clean] using image.trans (h j).1
  · simpa [Disk2Card.modify, same] using h j

theorem Idle.flush (h : Idle images c) (i : Bool) : Idle images (c.flush i) := by
  refine h.modify i fun d clean => ?_
  rw [flush_of_clean clean]
  exact ⟨rfl, clean⟩

theorem Idle.stepperDeferred (h : Idle images c) : Idle images c.stepperDeferred := by
  refine Idle.modify (c := { c with deferred := false }) h c.curr fun d clean => ?_
  unfold Drive.moveTo
  split
  · rw [flush_of_clean clean]
    exact ⟨rfl, clean⟩
  · exact ⟨rfl, clean⟩

theorem Idle.syncStepper (h : Idle images c) (now : BitVec 64) : Idle images (c.syncStepper now) := by
  have clock : Idle images (if c.now < now then { c with now := now } else c) := by
    split <;> exact h
  unfold Disk2Card.syncStepper
  extract_lets later
  split
  · exact clock.stepperDeferred
  · exact clock

theorem Idle.controlStepper (h : Idle images c) (addr : BitVec 16) (now : BitVec 64) :
    Idle images (c.controlStepper addr now) := by
  have set : Idle images (c.setMagnet addr) := h
  unfold Disk2Card.controlStepper
  split
  · exact h
  · dsimp only
    split
    · split
      · exact h
      · exact set.stepperDeferred
    · exact h

theorem Idle.checkSpinning (h : Idle images c) (stateChanged : Bool) (now : BitVec 64) :
    Idle images (c.checkSpinning stateChanged now) := by
  have spun : Idle images
      (if c.motorOn then c.modify c.curr fun d => { d with spinning := spinningCycles } else c) := by
    split
    · exact h.modify c.curr fun d clean => ⟨rfl, clean⟩
    · exact h
  have cycle : ∀ {c : Disk2Card} (changed : Bool), Idle images c →
      Idle images (if changed then { c with lastCycle := now } else c) := by
    intro c changed h
    cases changed <;> exact h
  have stamped : ∀ {c : Disk2Card}, Idle images c → Idle images
      (if c.motorOn ∧ stateChanged then c.modify c.curr fun d => { d with motorOnCycle := now } else c) := by
    intro c h
    split
    · exact h.modify c.curr fun d clean => ⟨rfl, clean⟩
    · exact h
  exact stamped (cycle _ spun)

theorem Idle.controlMotor (h : Idle images c) (addr : BitVec 16) (now : BitVec 64) :
    Idle images (c.controlMotor addr now) :=
  Idle.checkSpinning (c := { c with magnets := if !addr.getLsbD 0 then 0 else c.magnets,
                                    motorOn := addr.getLsbD 0 }) h _ now

theorem Idle.enable (h : Idle images c) (addr : BitVec 16) (now : BitVec 64) :
    Idle images (c.enable addr now) :=
  Idle.checkSpinning (Idle.modify (c := { c with curr := addr.getLsbD 0 }) h (!addr.getLsbD 0)
    (g := fun d => { d with spinning := 0, writeLight := 0 }) fun _ clean => ⟨rfl, clean⟩) _ now

theorem Idle.setSequencer (h : Idle images c) (addr : BitVec 16) : Idle images (c.setSequencer addr) := by
  unfold Disk2Card.setSequencer
  split <;> exact h

theorem Idle.noise (h : Idle images c) (now : BitVec 64) : Idle images (c.noise now) := by
  have drives : (c.noise now).drive = c.drive := by
    unfold Disk2Card.noise
    split <;> rfl
  intro i
  rw [drives]
  exact h i

theorem Idle.loadWriteProtect (h : Idle images c) : Idle images c.loadWriteProtect := by
  unfold Disk2Card.loadWriteProtect
  dsimp only
  split <;> exact h

theorem Idle.updateDrive (h : Idle images c) (cycles : BitVec 64) (i : Bool) :
    Idle images (c.updateDrive cycles i) := by
  have aged : Idle images ((c.modify i (Drive.runDown · c.motorOn cycles)).modify i
      (Drive.shine · (c.writeMode && c.curr == i) cycles)) := by
    refine (h.modify i fun d clean => ?_).modify i fun d clean => ?_
    · unfold Drive.runDown
      split <;> exact ⟨rfl, clean⟩
    · unfold Drive.shine
      split <;> exact ⟨rfl, clean⟩
  have stop : ∀ {c : Disk2Card}, Idle images c →
      Idle images (if !c.motorOn ∧ (c.drive i).spinning = 0 then c.flush i else c) := by
    intro c h
    split
    · exact h.flush i
    · exact h
  exact stop aged

theorem Idle.update (h : Idle images c) (now cycles : BitVec 64) : Idle images (c.update now cycles) :=
  ((h.syncStepper now).updateDrive cycles false).updateDrive cycles true

theorem Idle.reset (h : Idle images c) (powerCycle : Bool) : Idle images (c.reset powerCycle) := by
  have stop : ∀ {c : Disk2Card} (i : Bool), Idle images c → Idle images ((c.flush i).modify i
      fun d => { d with spinning := 0, writeLight := 0, motorOnCycle := 0 }) :=
    fun i h => (h.flush i).modify i fun _ clean => ⟨rfl, clean⟩
  unfold Disk2Card.reset
  cases powerCycle with
  | false => exact h
  | true =>
    exact stop true (stop (c := { c with
      curr := false, motorOn := false, magnets := 0, writeMode := false, loadMode := false
      deferred := false }) false h)

/-- A card that has stored one nibble: in the disk of the selected drive, in the track under its
head, whose other nibbles are as they were. -/
def Stored (images : Bool → Option Disk2Image) (c : Disk2Card) (i : Bool) : Prop :=
  c.curr = i ∧ ∃ img nibbles byte v, images i = some img ∧ Corresponds img (c.drive i).head nibbles ∧
    (c.drive i).flush.disk.image = some (writeTrack img (c.drive i).head (nibbles.set byte v))

theorem Idle.image (h : Idle images c) (i : Bool) : (c.drive i).flush.disk.image = images i := by
  rw [flush_of_clean (h i).2]
  exact (h i).1

theorem Idle.transfer (h : Idle images c) (holds : Holds (c.drive c.curr)) (now : BitVec 64)
    (loaded : (c.drive c.curr).disk.trackData = true) (i : Bool) :
    ((c.transfer now).drive i).flush.disk.image = images i ∨ Stored images (c.transfer now) i := by
  have advanced : Idle images (c.modify c.curr Drive.advance) := h.modify c.curr fun _ clean => ⟨rfl, clean⟩
  obtain ⟨img, inside, -, -, corresponds⟩ := holds.loaded loaded
  unfold Disk2Card.transfer
  simp only [inside]
  split
  · split
    · exact .inl (h.image i)
    · split
      · exact .inl (h.image i)
      · exact .inl (advanced.image i)
  · split
    · split
      · exact .inl (h.image i)
      · by_cases selected : i = c.curr
        · subst selected
          refine .inr ⟨rfl, img, (c.drive c.curr).disk.track, (c.drive c.curr).disk.byte, c.latch, ?_, ?_, ?_⟩
          · exact (h c.curr).1.symm.trans inside
          · have held := corresponds (h c.curr).2
            simpa [Disk2Card.modify] using (show Corresponds img
              (((c.drive c.curr).writeNibble c.latch).advance).head (c.drive c.curr).disk.track from held)
          · simp [Disk2Card.modify, Drive.flush, Drive.advance, Drive.writeNibble, inside, Drive.head]
        · refine .inl ?_
          simpa [Disk2Card.modify, selected] using h.image i
    · exact .inl (advanced.image i)

theorem Idle.readWrite (h : Idle images c) (holds : ∀ i, Holds (c.drive i)) (now : BitVec 64) (i : Bool) :
    ((c.readWrite now).drive i).flush.disk.image = images i ∨ Stored images (c.readWrite now) i := by
  have read : Idle images
      (if !(c.drive c.curr).disk.trackData ∧ (c.drive c.curr).disk.image.isSome then
        c.modify c.curr Drive.readTrack else c) := by
    split
    · refine h.modify c.curr fun d clean => ?_
      unfold Drive.readTrack
      split
      · exact ⟨rfl, clean⟩
      · split <;> exact ⟨rfl, clean⟩
    · exact h
  have held : ∀ j, Holds
      ((if !(c.drive c.curr).disk.trackData ∧ (c.drive c.curr).disk.image.isSome then
        c.modify c.curr Drive.readTrack else c).drive j) := by
    intro j
    split
    next unread =>
      by_cases same : j = c.curr
      · subst same
        simpa [Disk2Card.modify] using (holds c.curr).readTrack (by simpa using unread.1)
      · simpa [Disk2Card.modify, same] using holds j
    · exact holds j
  have rest : ∀ {c : Disk2Card}, Idle images c → (∀ j, Holds (c.drive j)) →
      ((if !(c.drive c.curr).disk.trackData then c.noise now
        else Disk2Card.transfer
          (if (c.drive c.curr).spinning ≠ 0 then
            { c with lastCycle := now }.modify c.curr (Drive.turn · (now - c.lastCycle)) else c) now).drive
              i).flush.disk.image = images i ∨
      Stored images (if !(c.drive c.curr).disk.trackData then c.noise now
        else Disk2Card.transfer
          (if (c.drive c.curr).spinning ≠ 0 then
            { c with lastCycle := now }.modify c.curr (Drive.turn · (now - c.lastCycle)) else c) now) i := by
    intro c h holds
    split
    · exact .inl ((h.noise now).image i)
    next used =>
      have used : (c.drive c.curr).disk.trackData = true := by simpa using used
      split
      · have turned : Holds ((c.drive c.curr).turn (now - c.lastCycle)) :=
          (commutes_turn (holds c.curr) (now - c.lastCycle)).inv
        refine Idle.transfer ?_ ?_ now ?_ i
        · refine Idle.modify (c := { c with lastCycle := now }) h c.curr fun d clean => ?_
          unfold Drive.turn
          split <;> exact ⟨rfl, clean⟩
        · simpa [Disk2Card.modify] using turned
        · simp only [Disk2Card.modify, Function.update_self, Drive.turn]
          split <;> exact used
      · exact h.transfer (holds c.curr) now used i
  exact rest read held

theorem Idle.switch (h : Idle images c) (holds : ∀ i, Holds (c.drive i)) (addr : BitVec 16) (i : Bool) :
    ((c.switch addr).drive i).flush.disk.image = images i ∨ Stored images (c.switch addr) i := by
  unfold Disk2Card.switch
  split
  · exact .inl ((h.controlMotor addr c.now).image i)
  · exact .inl ((h.controlMotor addr c.now).image i)
  · exact .inl ((h.enable addr c.now).image i)
  · exact .inl ((h.enable addr c.now).image i)
  · exact h.readWrite holds c.now i
  · exact .inl (h.loadWriteProtect.image i)
  · exact .inl (h.image i)
  · exact .inl ((h.modify c.curr (g := fun d => { d with writeLight := spinningCycles })
      fun _ clean => ⟨rfl, clean⟩).image i)
  · exact .inl ((h.controlStepper addr c.now).image i)

theorem Idle.io (h : Idle images c) (holds : cards.Inv c) (addr : BitVec 16) (wr : Option (BitVec 8))
    (now : BitVec 64) (i : Bool) :
    ((c.io addr wr now).1.drive i).flush.disk.image = images i ∨ Stored images (c.io addr wr now).1 i := by
  have synced := alike_setSequencer (alike_syncStepper (.refl holds) now) addr
  have switched := ((h.syncStepper now).setSequencer addr).switch synced.left addr i
  unfold Disk2Card.io
  cases wr with
  | none => exact switched
  | some v =>
    dsimp only
    split <;> exact switched

theorem Idle.exchange (h : Idle images c) (i : Bool) (image : Option Disk2Image) {g : Drive → Drive}
    (puts : ∀ d, d.disk.dirty = false → (g d).disk.image = image ∧ (g d).disk.dirty = false) :
    Idle (Function.update images i image) (c.modify i g) := by
  intro j
  by_cases same : j = i
  · subst same
    simpa [Disk2Card.modify] using puts _ (h j).2
  · simpa [Disk2Card.modify, same] using h j

theorem Idle.ejectDisk (h : Idle images c) (unit : ℕ) (valid : ¬(unit ≠ 1 ∧ unit ≠ 2)) :
    Idle (Function.update images (unit == 2) none) (c.ejectDisk unit).1 ∧
      (c.ejectDisk unit).2 = images (unit == 2) := by
  have flushed := h.flush (unit == 2)
  unfold Disk2Card.ejectDisk
  rw [if_neg valid]
  exact ⟨flushed.exchange (unit == 2) none fun _ clean => ⟨rfl, clean⟩, (flushed (unit == 2)).1⟩

theorem Idle.insert (h : Idle images c) (drive : ℕ) (image : Option Disk2Image) :
    Idle (Function.update images (drive.testBit 0) image) (c.insert drive image).1 ∧
      (c.insert drive image).2.2 = images (drive.testBit 0) := by
  have unit : (drive % 2 + 1 == 2) = drive.testBit 0 := by
    rw [Nat.testBit_zero]
    rcases Nat.mod_two_eq_zero_or_one drive with even | odd
    · simp [even]
    · simp [odd]
  obtain ⟨taken, out⟩ := h.ejectDisk (drive % 2 + 1) (by omega)
  rw [unit] at taken out
  refine ⟨?_, out⟩
  have put := taken.exchange (drive.testBit 0) image (g := (Drive.load · image)) fun _ _ => ⟨rfl, rfl⟩
  rwa [Function.update_idem] at put

/-! ## Runs -/

end Nibbles

end Mmemu.Guarantees.DiskWriteBack
