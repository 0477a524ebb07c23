import Mathlib.Tactic.Common
import Mmemu.Library.Runs
import Mmemu.Source.AtariSio

/-!
# SIO disks as sector stores

A write on the SIO bus comes in two frames. Between them the drive, the sector and the
length to expect are kept, while disks are changed and other commands answered. What the
drives should hold is followed beside the run, from the mounts and from the data frames that
were answered 'C'; the images hold that as long as no write runs over the end of its frame
and every file takes its sectors.
-/
namespace Mmemu.Guarantees.SioStore
open Mmemu.Library.Splice Mmemu.Library.GuardedRun Mmemu.Source Mmemu.Source.Sio

/-! ## Sectors of an image -/

/-- A sector ends before the next ones begin. -/
theorem sectors_apart {sectorSize k k' : ℕ} (sized : sectorSize = 128 ∨ sectorSize = 256)
    (first : 1 ≤ k) (less : k < k') :
    offsetOf sectorSize k + Sio.sizeOf sectorSize k ≤ offsetOf sectorSize k' := by
  unfold offsetOf Sio.sizeOf
  rcases sized with rfl | rfl <;> split <;> split <;> omega

def IsSector (img : AtrImage) (k : ℕ) : Prop := 1 ≤ k ∧ k ≤ img.sectorCount

instance (img : AtrImage) (k : ℕ) : Decidable (IsSector img k) := inferInstanceAs (Decidable (_ ∧ _))

theorem read_of_sector {img : AtrImage} {k : ℕ} (h : IsSector img k) :
    img.read k = some (slice img.data (img.offsetOf k) (img.sizeOf k)) := by
  have fits := img.fits k h.1 h.2
  rw [AtrImage.read, if_neg (by have := h.1; have := h.2; omega), if_neg (by
    unfold AtrImage.offsetOf AtrImage.sizeOf
    omega)]

theorem read_of_not_sector {img : AtrImage} {k : ℕ} (h : ¬ IsSector img k) : img.read k = none := by
  unfold IsSector at h
  rw [AtrImage.read, if_pos (by omega)]

/-- An image that differs in the bytes of one sector. -/
structure Wrote (img img' : AtrImage) (k : ℕ) (bytes : List Byte) : Prop where
  sector : IsSector img k
  length : bytes.length = img.sizeOf k
  data : img'.data = splice img.data (img.offsetOf k) bytes
  sectorSize : img'.sectorSize = img.sectorSize
  sectorCount : img'.sectorCount = img.sectorCount

theorem Wrote.read {img img' : AtrImage} {k : ℕ} {bytes : List Byte} (h : Wrote img img' k bytes)
    (k' : ℕ) : img'.read k' = if k' = k then some bytes else img.read k' := by
  have inside : img.offsetOf k + bytes.length ≤ img.data.length := by
    rw [h.length]
    exact img.fits k h.sector.1 h.sector.2
  have same : IsSector img' k' ↔ IsSector img k' := by
    unfold IsSector
    rw [h.sectorCount]
  have place : img'.offsetOf k' = img.offsetOf k' ∧ img'.sizeOf k' = img.sizeOf k' := by
    unfold AtrImage.offsetOf AtrImage.sizeOf
    rw [h.sectorSize]
    exact ⟨rfl, rfl⟩
  by_cases sector : IsSector img k'
  · rw [read_of_sector (same.mpr sector), read_of_sector sector, place.1, place.2, h.data]
    split
    next here => rw [here, ← h.length, slice_splice inside]
    next other =>
      rw [slice_splice_apart inside]
      rw [h.length]
      rcases Nat.lt_or_gt_of_ne other with before | behind
      · exact .inl (sectors_apart img.sized sector.1 before)
      · exact .inr (sectors_apart img.sized h.sector.1 behind)
  · rw [read_of_not_sector (fun h' => sector (same.mp h')), read_of_not_sector sector, if_neg]
    rintro rfl
    exact sector h.sector

/-! ## What the computer is sent -/

/-- All response bytes so far, those on their way included. -/
def stream (s : AtariSio) : List Byte := s.received ++ s.out.map Pending.byte

theorem stream_send (s : AtariSio) (byte : Byte) (delay : ℕ) :
    stream (s.send byte delay) = stream s ++ [byte] := by
  simp [stream, AtariSio.send]

theorem stream_sendFrame (s : AtariSio) (data : List Byte) (delay : ℕ) :
    stream (s.sendFrame data delay) = stream s ++ (data ++ [checksum data]) := by
  have bytes : (data.mapIdx fun i b => (⟨if i = 0 then delay else BYTE_CYCLES, b⟩ : Pending)).map
      Pending.byte = data := by
    apply List.ext_getElem
    · simp
    · intro i hi hi'
      simp
  simp only [stream, AtariSio.sendFrame, List.map_append, bytes, List.append_assoc]
  rfl

/-! ## What the disks should hold -/

/-- What the events and answers say: the contents of every sector, since the last mount or
the last data frame answered 'C'; the target of the write command that waits for its data
frame; and what came of that frame. -/
structure History where
  sectors : Fin 4 → ℕ → Option (List Byte)
  target : Option (Fin 4 × ℕ)
  frame : List Byte

/-- A command frame with a good checksum is answered when the line is released. -/
def Commands (s : AtariSio) (level : Bool) : Prop :=
  level = true ∧ s.level = false ∧ s.frameReady = true

instance (s : AtariSio) (level : Bool) : Decidable (Commands s level) :=
  inferInstanceAs (Decidable (_ ∧ _))

/-- The target of a write command that is accepted. -/
def accepted (s : AtariSio) (level : Bool) : Option (Fin 4 × ℕ) :=
  if Commands s level ∧ (s.frame.getD 1 0 = ascii 'W' ∨ s.frame.getD 1 0 = ascii 'P') ∧
      stream (s.setCommandLine level) = stream s ++ [ascii 'A'] then
    (AtariSio.unitOf (s.frame.getD 0 0)).map fun n => (n, AtariSio.sectorOf s.frame)
  else none

/-- What an event makes the computer be sent. -/
def answer (s : AtariSio) (e : Event) : List Byte := (stream (apply s e)).drop (stream s).length

def History.set (h : History) (n : Fin 4) (sectors : ℕ → Option (List Byte)) : History :=
  { h with sectors := Function.update h.sectors n sectors }

def History.next (h : History) (s : AtariSio) : Event → History
  | .commandLine level =>
    match accepted s level with
    | some target => { h with target := some target, frame := [] }
    | none => h
  | .serialOut byte host =>
    if s.level then
      match h.target with
      | none => h
      | some (n, k) =>
        if answer s (.serialOut byte host) = [] then { h with frame := h.frame ++ [byte] }
        else if answer s (.serialOut byte host) = [ascii 'A', ascii 'C'] then
          { h.set n (Function.update (h.sectors n) k (some h.frame)) with target := none, frame := [] }
        else { h with target := none, frame := [] }
    else h
  | .tick _ => h
  | .mount drive atrBytes _ _ _ =>
    match AtariSio.driveOf drive, AtrImage.load atrBytes with
    | some n, .ok img => h.set n img.read
    | _, _ => h
  | .unmount drive =>
    match AtariSio.driveOf drive with
    | some n => h.set n fun _ => none
    | none => h
  | .reset => { h with target := none, frame := [] }

/-- The drives hold what they should, and the write in between its frames is the one accepted
last. -/
structure Stored (s : AtariSio) (h : History) : Prop where
  sectors : ∀ n k, (s.drives n).image.read k = h.sectors n k
  target : h.target = s.writeDrive.map fun n => (n, s.writeSector)
  frame : h.frame = s.writeData

/-- The drives after an event are those before it but for one sector of the drive the write
command named, which holds the data frame. -/
def Applied (s : AtariSio) (h : History) (e : Event) : Prop :=
  ∃ n k img, h.target = some (n, k) ∧ Wrote (s.drives n).image img k h.frame ∧
    (apply s e).drives = Function.update s.drives n { s.drives n with image := img }

/-- What an event may do to the drives and what it may answer. -/
structure StepSound (s : AtariSio) (h : History) (e : Event) : Prop where
  stored : Stored (apply s e) (h.next s e)
  written : ∀ byte host, e = .serialOut byte host →
    answer s e = [ascii 'A', ascii 'C'] → s.level = true → Applied s h e
  refused : ∀ byte host, e = .serialOut byte host →
    ¬ (answer s e = [ascii 'A', ascii 'C'] ∧ s.level = true) → (apply s e).drives = s.drives
  others : (∀ byte host, e ≠ .serialOut byte host) → (∀ drive b l p w, e ≠ .mount drive b l p w) →
    (∀ drive, e ≠ .unmount drive) → ∀ n, ((apply s e).drives n).image = (s.drives n).image
  reads : ∀ level n, e = .commandLine level → Commands s level → s.frame.getD 1 0 = ascii 'R' →
    AtariSio.unitOf (s.frame.getD 0 0) = some n → (s.drives n).present = true →
    match h.sectors n (AtariSio.sectorOf s.frame) with
    | some bytes => answer s e = ascii 'A' :: ascii 'C' :: (bytes ++ [checksum bytes])
    | none => ∃ bytes, answer s e = ascii 'A' :: ascii 'E' :: (bytes ++ [checksum bytes])

/-! ## The data frame -/

/-- A correct data frame is complete with this byte, and its drive can write the sector. -/
structure Writes (s : AtariSio) (byte : Byte) (n : Fin 4) : Prop where
  released : s.level = true
  drive : s.writeDrive = some n
  complete : s.writeData.length = s.writeLen
  correct : checksum s.writeData = byte
  writable : (s.drives n).readOnly = false
  sector : IsSector (s.drives n).image s.writeSector

instance (s : AtariSio) (byte : Byte) (n : Fin 4) : Decidable (Writes s byte n) :=
  decidable_of_iff (s.level = true ∧ s.writeDrive = some n ∧ s.writeData.length = s.writeLen ∧
      checksum s.writeData = byte ∧ (s.drives n).readOnly = false ∧
      IsSector (s.drives n).image s.writeSector)
    ⟨fun ⟨a, b, c, d, e, f⟩ => ⟨a, b, c, d, e, f⟩, fun ⟨a, b, c, d, e, f⟩ => ⟨a, b, c, d, e, f⟩⟩

/-- A data frame that is written is as long as its sector, in the disk that is in the drive
by then, and the disk's file takes it. -/
def Meets (s : AtariSio) : Event → Prop
  | .serialOut byte host => ∀ n, Writes s byte n →
    (s.drives n).image.sizeOf s.writeSector = s.writeLen ∧
      ((s.drives n).path = "" ∨ host.saved = true)
  | _ => True

instance (s : AtariSio) (e : Event) : Decidable (Meets s e) :=
  match e with
  | .serialOut byte host => inferInstanceAs (Decidable (∀ n, Writes s byte n →
      (s.drives n).image.sizeOf s.writeSector = s.writeLen ∧
        ((s.drives n).path = "" ∨ host.saved = true)))
  | .commandLine _ | .tick _ | .mount .. | .unmount _ | .reset => .isTrue trivial

theorem copied_frame (data : List Byte) (byte : Byte) (behind : ℕ → Byte) :
    AtrImage.copied (fun i => (data ++ [byte]).getD i (behind i)) data.length = data := by
  apply List.ext_getElem
  · exact AtrImage.length_copied _ _
  · intro i hi hi'
    simp [AtrImage.copied, List.getElem?_append_left hi', List.getElem?_eq_getElem hi']

/-- A sector that is there is written, whatever is taken for its bytes. -/
theorem write_of_sector {img : AtrImage} {k : ℕ} (h : IsSector img k) (memory : ℕ → Byte) :
    ∃ img', img.write k memory = some img' ∧
      Wrote img img' k (AtrImage.copied memory (img.sizeOf k)) := by
  have fits := img.fits k h.1 h.2
  unfold AtrImage.write
  rw [dif_neg (by have := h.1; have := h.2; omega), if_neg (by
    unfold AtrImage.offsetOf AtrImage.sizeOf
    omega)]
  exact ⟨_, rfl, h, AtrImage.length_copied _ _, rfl, rfl, rfl⟩

theorem write_of_not_sector {img : AtrImage} {k : ℕ} (h : ¬ IsSector img k) (memory : ℕ → Byte) :
    img.write k memory = none := by
  unfold IsSector at h
  rw [AtrImage.write, dif_pos (by omega)]

/-- What a complete data frame does. -/
inductive Framed (s s' : AtariSio) (n : Fin 4) (byte : Byte) : Prop
  | rejected (drives : s'.drives = s.drives) (sent : stream s' = stream s ++ [ascii 'N'])
  | failed (drives : s'.drives = s.drives) (sent : stream s' = stream s ++ [ascii 'A', ascii 'E'])
  | written (img : AtrImage) (wrote : Wrote (s.drives n).image img s.writeSector s.writeData)
      (drives : s'.drives = Function.update s.drives n { s.drives n with image := img })
      (sent : stream s' = stream s ++ [ascii 'A', ascii 'C'])

theorem saveSector_refused {s : AtariSio} {n : Fin 4} {k : ℕ}
    (refused : (s.drives n).readOnly = true ∨ ¬ IsSector (s.drives n).image k) (host : Host)
    (memory : ℕ → Byte) : s.saveSector host n k memory = (false, s) := by
  unfold AtariSio.saveSector
  dsimp only
  rcases refused with readOnly | absent
  · rw [if_pos readOnly]
  · split
    · rfl
    · rw [write_of_not_sector absent]

theorem saveSector_done {s : AtariSio} {host : Host} {n : Fin 4} {k : ℕ} {memory : ℕ → Byte}
    {img : AtrImage} (writable : (s.drives n).readOnly = false)
    (wrote : (s.drives n).image.write k memory = some img)
    (saved : (s.drives n).path = "" ∨ host.saved = true) :
    s.saveSector host n k memory = (true, s.setDrive n { s.drives n with image := img }) := by
  unfold AtariSio.saveSector
  dsimp only
  rw [if_neg (by rw [writable]; decide), wrote]
  dsimp only
  split
  · rfl
  · rw [if_pos (saved.resolve_left ‹_›)]

/-- The answer to a data frame, and what is left of it. -/
theorem dataFrame_eq (s : AtariSio) (host : Host) (n : Fin 4) {data : List Byte} {byte : Byte}
    (received : s.writeData = data ++ [byte]) (complete : data.length = s.writeLen) :
    s.dataFrame host n =
      if checksum data = byte then
        let saved := (s.send (ascii 'A') 1000).saveSector host n s.writeSector fun i =>
          (data ++ [byte]).getD i (host.behind i)
        { saved.2.send (if saved.1 then ascii 'C' else ascii 'E') 2000 with
          writeDrive := none, writeData := [] }
      else { s.send (ascii 'N') 1000 with writeDrive := none, writeData := [] } := by
  have frame : s.writeData.take s.writeLen = data := by
    rw [received, ← complete, List.take_left]
  have last : s.writeData.getD s.writeLen 0 = byte := by
    simp [received, ← complete]
  unfold AtariSio.dataFrame
  rw [frame, last]
  by_cases correct : checksum data = byte
  · rw [if_pos correct, beq_iff_eq.mpr correct, ← received]
    rfl
  · rw [if_neg correct, beq_eq_false_iff_ne.mpr correct]
    rfl

theorem dataFrame_framed {s : AtariSio} {byte : Byte} {host : Host} {n : Fin 4}
    (released : s.level = true) (drive : s.writeDrive = some n)
    (complete : s.writeData.length = s.writeLen) (meets : Meets s (.serialOut byte host)) :
    Framed s (({ s with writeData := s.writeData ++ [byte] } : AtariSio).dataFrame host n) n byte := by
  let got : AtariSio := { s with writeData := s.writeData ++ [byte] }
  let asked : AtariSio := got.send (ascii 'A') 1000
  have sent : stream asked = stream s ++ [ascii 'A'] := stream_send _ _ _
  have ran := dataFrame_eq got host n rfl complete
  rw [ran]
  by_cases correct : checksum s.writeData = byte
  · rw [if_pos correct]
    by_cases refused : (s.drives n).readOnly = true ∨ ¬ IsSector (s.drives n).image s.writeSector
    · have kept := saveSector_refused (s := asked) refused host fun i =>
        (s.writeData ++ [byte]).getD i (host.behind i)
      dsimp only
      rw [kept]
      refine .failed rfl ?_
      refine (stream_send asked _ _).trans ?_
      rw [sent, List.append_assoc]
      rfl
    · obtain ⟨writable, sector⟩ := not_or.mp refused
      rw [Bool.not_eq_true] at writable
      rw [not_not] at sector
      obtain ⟨size, saved⟩ := meets n ⟨released, drive, complete, correct, writable, sector⟩
      obtain ⟨img, write, wrote⟩ := write_of_sector sector fun i =>
        (s.writeData ++ [byte]).getD i (host.behind i)
      rw [size, ← complete, copied_frame] at wrote
      have done := saveSector_done (s := asked) writable write saved
      dsimp only
      rw [done]
      refine .written img wrote rfl ?_
      refine (stream_send (asked.setDrive n _) _ _).trans ?_
      change stream asked ++ _ = _
      rw [sent, List.append_assoc]
      rfl
  · rw [if_neg correct]
    exact .rejected rfl (stream_send got _ _)

/-! ## Commands -/

/-- The data frame that is waited for stays the same. -/
structure SameWrite (s s' : AtariSio) : Prop where
  drive : s'.writeDrive = s.writeDrive
  sector : s'.writeSector = s.writeSector
  data : s'.writeData = s.writeData

/-- What a command frame does, `cmd` and `sector` being what it asks for. -/
inductive Commanded (s s' : AtariSio) (cmd : Byte) (sector : ℕ) : Prop
  | unanswered (absent : ∀ n, AtariSio.unitOf (s.frame.getD 0 0) = some n →
        (s.drives n).present = false)
      (same : SameWrite s s') (sent : stream s' = stream s)
  | read (n : Fin 4) (unit : AtariSio.unitOf (s.frame.getD 0 0) = some n) (asked : cmd = ascii 'R')
      (same : SameWrite s s')
      (sent : match (s.drives n).image.read sector with
        | some bytes => stream s' = stream s ++ ascii 'A' :: ascii 'C' :: (bytes ++ [checksum bytes])
        | none => ∃ bytes,
          stream s' = stream s ++ ascii 'A' :: ascii 'E' :: (bytes ++ [checksum bytes]))
  | write (n : Fin 4) (unit : AtariSio.unitOf (s.frame.getD 0 0) = some n)
      (asked : cmd = ascii 'W' ∨ cmd = ascii 'P') (sent : stream s' = stream s ++ [ascii 'A'])
      (drive : s'.writeDrive = some n) (place : s'.writeSector = sector) (data : s'.writeData = [])
  | other (asked : ¬ (cmd = ascii 'R' ∨ cmd = ascii 'W' ∨ cmd = ascii 'P')) (same : SameWrite s s')
      (sent : ∃ bytes, stream s' = stream s ++ bytes)

theorem SameWrite.trans {s s' s'' : AtariSio} (h : SameWrite s s') (h' : SameWrite s' s'') :
    SameWrite s s'' :=
  ⟨h'.drive.trans h.drive, h'.sector.trans h.sector, h'.data.trans h.data⟩

/-- A drive put back with its image. -/
theorem update_image {drives : Fin 4 → Drive} {n : Fin 4} {d : Drive}
    (same : d.image = (drives n).image) (n' : Fin 4) :
    (Function.update drives n d n').image = (drives n').image := by
  rw [Function.update_apply]
  split
  next here => rw [here, same]
  next => rfl

theorem readCommand_sent (s : AtariSio) (d : Drive) (sector : ℕ) :
    match d.image.read sector with
    | some bytes =>
      stream (s.readCommand d sector) = stream s ++ ascii 'A' :: ascii 'C' :: (bytes ++ [checksum bytes])
    | none => ∃ bytes, stream (s.readCommand d sector) =
        stream s ++ ascii 'A' :: ascii 'E' :: (bytes ++ [checksum bytes]) := by
  unfold AtariSio.readCommand
  cases d.image.read sector with
  | none =>
    refine ⟨List.replicate (d.image.sizeOf sector) 0, ?_⟩
    dsimp only
    rw [stream_sendFrame, stream_send, stream_send]
    simp only [List.append_assoc, List.cons_append, List.nil_append]
  | some bytes =>
    dsimp only
    rw [stream_sendFrame, stream_send, stream_send]
    simp only [List.append_assoc, List.cons_append, List.nil_append]

theorem readCommand_same (s : AtariSio) (d : Drive) (sector : ℕ) :
    SameWrite s (s.readCommand d sector) ∧ (s.readCommand d sector).drives = s.drives := by
  unfold AtariSio.readCommand
  dsimp only
  split <;> exact ⟨⟨rfl, rfl, rfl⟩, rfl⟩

theorem command_commanded (s : AtariSio) :
    Commanded s s.command (s.frame.getD 1 0) (AtariSio.sectorOf s.frame) ∧
      ∀ n, (s.command.drives n).image = (s.drives n).image := by
  unfold AtariSio.command
  extract_lets cmd sector
  split
  next none_ =>
    refine ⟨.unanswered ?_ ⟨rfl, rfl, rfl⟩ rfl, fun _ => rfl⟩
    intro n unit
    rw [none_] at unit
    cases unit
  next n unit =>
    extract_lets d lit noted acked
    have same : SameWrite s noted ∧ stream noted = stream s ∧
        ∀ n', (noted.drives n').image = (s.drives n').image := by
      unfold noted
      split
      · refine ⟨⟨rfl, rfl, rfl⟩, rfl, fun n' => ?_⟩
        exact update_image (d := { d with lastSector := sector }) rfl n'
      · exact ⟨⟨rfl, rfl, rfl⟩, rfl, fun _ => rfl⟩
    obtain ⟨same, sent, images⟩ := same
    clear_value noted
    by_cases present : d.present = true
    · rw [if_pos present]
      by_cases r : cmd = ascii 'R'
      · rw [if_pos r]
        obtain ⟨kept, drives⟩ := readCommand_same noted d sector
        refine ⟨.read n unit r (same.trans kept) ?_, fun n' => by rw [drives, images]⟩
        rw [← sent]
        exact readCommand_sent noted d sector
      rw [if_neg r]
      by_cases st : cmd = ascii 'S'
      · rw [if_pos st]
        refine ⟨.other ?_ ⟨same.drive, same.sector, same.data⟩
          ⟨ascii 'A' :: ascii 'C' :: (AtariSio.statusOf d ++ [checksum (AtariSio.statusOf d)]), ?_⟩, images⟩
        · change ¬ (cmd = _ ∨ cmd = _ ∨ cmd = _)
          rw [st]
          decide
        · rw [stream_sendFrame, stream_send, stream_send, sent]
          simp only [List.append_assoc, List.cons_append, List.nil_append]
      rw [if_neg st]
      by_cases w : cmd = ascii 'W' ∨ cmd = ascii 'P'
      · rw [if_pos w]
        refine ⟨.write n unit w ?_ rfl rfl rfl, images⟩
        exact (stream_send noted _ _).trans (by rw [sent])
      · rw [if_neg w]
        refine ⟨.other (not_or.mpr ⟨r, w⟩) ⟨same.drive, same.sector, same.data⟩
          ⟨[ascii 'N'], ?_⟩, images⟩
        rw [stream_send, sent]
    · rw [if_neg present]
      refine ⟨.unanswered ?_ ⟨rfl, rfl, rfl⟩ rfl, fun _ => rfl⟩
      intro n' unit'
      rw [unit] at unit'
      obtain rfl := Option.some.inj unit'
      exact Bool.not_eq_true _ ▸ present

theorem setCommandLine_idle {s : AtariSio} {level : Bool} (idle : ¬ Commands s level) :
    ∃ frame, s.setCommandLine level = { s with level := level, frame := frame } := by
  unfold AtariSio.setCommandLine
  dsimp only
  unfold Commands at idle
  split
  · split
    · next ready => simp_all
    · exact ⟨[], rfl⟩
  · split
    · next ready => simp_all
    · exact ⟨s.frame, rfl⟩

/-- The command is executed with the frame as it was received. -/
theorem setCommandLine_commands {s : AtariSio} {level : Bool} (commands : Commands s level) :
    s.setCommandLine level =
      ({ s with level := true, frameReady := false } : AtariSio).command := by
  obtain ⟨rfl, released, ready⟩ := commands
  unfold AtariSio.setCommandLine
  dsimp only
  rw [released, ready]
  rfl

theorem answer_of_append {s : AtariSio} {e : Event} {bytes : List Byte}
    (sent : stream (apply s e) = stream s ++ bytes) : answer s e = bytes := by
  rw [answer, sent, List.drop_left]

/-- An event that is no byte from the computer. -/
theorem StepSound.of_quiet {s : AtariSio} {h : History} {e : Event}
    (quiet : ∀ byte host, e ≠ .serialOut byte host) (stored : Stored (apply s e) (h.next s e))
    (others : (∀ drive b l p w, e ≠ .mount drive b l p w) → (∀ drive, e ≠ .unmount drive) →
      ∀ n, ((apply s e).drives n).image = (s.drives n).image)
    (uncommanded : ∀ level, e ≠ .commandLine level) : StepSound s h e where
  stored := stored
  written byte host isByte := absurd isByte (quiet byte host)
  refused byte host isByte := absurd isByte (quiet byte host)
  others _ := others
  reads level _ isCommand := absurd isCommand (uncommanded level)

theorem accepted_of_not_write {s : AtariSio} {level : Bool}
    (h : ¬ (s.frame.getD 1 0 = ascii 'W' ∨ s.frame.getD 1 0 = ascii 'P') ∨
      stream (s.setCommandLine level) ≠ stream s ++ [ascii 'A']) : accepted s level = none := by
  refine if_neg ?_
  rintro ⟨-, write, sent⟩
  rcases h with other | unsent
  · exact other write
  · exact unsent sent

theorem next_of_accepted {s : AtariSio} {level : Bool} {target : Fin 4 × ℕ} (h : History)
    (write : accepted s level = some target) :
    h.next s (.commandLine level) = { h with target := some target, frame := [] } := by
  change (match accepted s level with
    | some target => { h with target := some target, frame := [] }
    | none => h) = _
  rw [write]

theorem next_of_unaccepted {s : AtariSio} {level : Bool} (h : History) (other : accepted s level = none) :
    h.next s (.commandLine level) = h := by
  change (match accepted s level with
    | some target => { h with target := some target, frame := [] }
    | none => h) = _
  rw [other]

/-- Command frames answer and change the write in progress, never an image. -/
theorem commandLine_sound {s : AtariSio} {h : History} (stored : Stored s h) (level : Bool) :
    StepSound s h (.commandLine level) := by
  have quiet : ∀ byte host, Event.commandLine level ≠ .serialOut byte host := by
    intro byte host same
    cases same
  have kept {s' : AtariSio} (images : ∀ n, (s'.drives n).image = (s.drives n).image)
      (same : SameWrite s s') : Stored s' h :=
    ⟨fun n k => by rw [images, stored.sectors], by rw [same.drive, same.sector, stored.target],
      by rw [same.data, stored.frame]⟩
  by_cases commands : Commands s level
  · have ran := setCommandLine_commands commands
    obtain ⟨commanded, images⟩ := command_commanded { s with level := true, frameReady := false }
    rw [← ran] at commanded images
    -- what a read would have been answered
    have reads (sent : s.frame.getD 1 0 = ascii 'R' → ∀ n,
        AtariSio.unitOf (s.frame.getD 0 0) = some n → (s.drives n).present = true →
        match h.sectors n (AtariSio.sectorOf s.frame) with
        | some bytes => stream (s.setCommandLine level) =
            stream s ++ ascii 'A' :: ascii 'C' :: (bytes ++ [checksum bytes])
        | none => ∃ bytes, stream (s.setCommandLine level) =
            stream s ++ ascii 'A' :: ascii 'E' :: (bytes ++ [checksum bytes]))
        (stored' : Stored (s.setCommandLine level) (h.next s (.commandLine level))) :
        StepSound s h (.commandLine level) := by
      refine ⟨stored', fun byte host isByte => absurd isByte (quiet byte host),
        fun byte host isByte => absurd isByte (quiet byte host), fun _ _ _ => images, ?_⟩
      intro level' n same _ asked unit present
      cases same
      have found := sent asked n unit present
      split at found
      next bytes _ => exact answer_of_append found
      next =>
        obtain ⟨bytes, found⟩ := found
        exact ⟨bytes, answer_of_append found⟩
    cases commanded with
    | unanswered absent same sent =>
      have silent : accepted s level = none := by
        refine accepted_of_not_write (.inr fun sent' => ?_)
        have length := congrArg List.length (sent.symm.trans sent')
        rw [List.length_append] at length
        exact absurd length (Nat.ne_of_lt (Nat.lt_succ_self _))
      refine reads (fun _ n unit present => ?_) ?_
      · rw [absent n unit] at present
        cases present
      · rw [next_of_unaccepted h silent]
        exact kept images ⟨same.drive, same.sector, same.data⟩
    | read n unit asked same sent =>
      have silent : accepted s level = none := by
        refine accepted_of_not_write (.inl ?_)
        change s.frame.getD 1 0 = ascii 'R' at asked
        rw [asked]
        decide
      refine reads (fun _ n' unit' _ => ?_) ?_
      · obtain rfl := Option.some.inj (unit.symm.trans unit')
        rw [← stored.sectors]
        exact sent
      · rw [next_of_unaccepted h silent]
        exact kept images ⟨same.drive, same.sector, same.data⟩
    | write n unit asked sent drive place data =>
      have write : accepted s level = some (n, AtariSio.sectorOf s.frame) := by
        refine (if_pos ⟨commands, asked, sent⟩).trans ?_
        change AtariSio.unitOf (s.frame.getD 0 0) = some n at unit
        rw [unit]
        rfl
      refine reads (fun asked' => ?_) ?_
      · change s.frame.getD 1 0 = _ ∨ s.frame.getD 1 0 = _ at asked
        rw [asked'] at asked
        exact absurd asked (by decide)
      · rw [next_of_accepted h write]
        refine ⟨fun n k => by rw [images, ← stored.sectors], ?_, data.symm⟩
        rw [drive, place]
        rfl
    | other asked same sent =>
      obtain ⟨noRead, noWrite⟩ := not_or.mp asked
      have silent : accepted s level = none := accepted_of_not_write (.inl noWrite)
      refine reads (fun asked' => absurd asked' noRead) ?_
      rw [next_of_unaccepted h silent]
      exact kept images ⟨same.drive, same.sector, same.data⟩
  · obtain ⟨frame, ran⟩ := setCommandLine_idle commands
    have silent : accepted s level = none := if_neg fun h => commands h.1
    have next := next_of_unaccepted h silent
    have after : apply s (.commandLine level) = { s with level := level, frame := frame } := ran
    refine ⟨?_, fun byte host isByte => absurd isByte (quiet byte host),
      fun byte host isByte => absurd isByte (quiet byte host), fun _ _ _ n => by rw [after], ?_⟩
    · rw [next, after]
      exact kept (fun _ => rfl) ⟨rfl, rfl, rfl⟩
    · intro level' n same commands'
      cases same
      exact absurd commands' commands

/-- A byte from the computer writes a sector or changes no drive. -/
theorem StepSound.of_byte {s : AtariSio} {h : History} {byte : Byte} {host : Host}
    (stored : Stored (apply s (.serialOut byte host)) (h.next s (.serialOut byte host)))
    (effect : Applied s h (.serialOut byte host) ∧ s.level = true ∧
        answer s (.serialOut byte host) = [ascii 'A', ascii 'C'] ∨
      (apply s (.serialOut byte host)).drives = s.drives ∧
        ¬ (answer s (.serialOut byte host) = [ascii 'A', ascii 'C'] ∧ s.level = true)) :
    StepSound s h (.serialOut byte host) := by
  refine ⟨stored, fun _ _ _ sent level => ?_, fun _ _ _ unsent => ?_,
    fun other => absurd rfl (other byte host), by intros; contradiction⟩
  · rcases effect with ⟨applied, -⟩ | ⟨-, unsent⟩
    · exact applied
    · exact absurd ⟨sent, level⟩ unsent
  · rcases effect with ⟨-, level, sent⟩ | ⟨drives, -⟩
    · exact absurd ⟨sent, level⟩ unsent
    · exact drives

theorem next_of_released {s : AtariSio} (h : History) (byte : Byte) (host : Host) {n : Fin 4} {k : ℕ}
    (released : s.level = true) (target : h.target = some (n, k)) :
    h.next s (.serialOut byte host) =
      if answer s (.serialOut byte host) = [] then { h with frame := h.frame ++ [byte] }
      else if answer s (.serialOut byte host) = [ascii 'A', ascii 'C'] then
        { h.set n (Function.update (h.sectors n) k (some h.frame)) with target := none, frame := [] }
      else { h with target := none, frame := [] } := by
  change (if s.level then (match h.target with | none => h | some (n, k) => _) else h) = _
  rw [if_pos released, target]

theorem serialOut_sound {s : AtariSio} {h : History} (stored : Stored s h) {byte : Byte} {host : Host}
    (meets : Meets s (.serialOut byte host)) : StepSound s h (.serialOut byte host) := by
  have unsent (bytes : List Byte) (other : bytes ≠ [ascii 'A', ascii 'C'])
      (sent : answer s (.serialOut byte host) = bytes) :
      ¬ (answer s (.serialOut byte host) = [ascii 'A', ascii 'C'] ∧ s.level = true) := by
    rintro ⟨sent', -⟩
    exact other (sent.symm.trans sent')
  by_cases released : s.level = true
  · cases drive : s.writeDrive with
    | none =>
      have target : h.target = none := by rw [stored.target, drive]; rfl
      have after : apply s (.serialOut byte host) = s := by
        change s.serialOut byte host = s
        rw [AtariSio.serialOut, if_pos released, drive]
      have next : h.next s (.serialOut byte host) = h := by
        change (if s.level then (match h.target with | none => h | some (n, k) => _) else h) = _
        rw [if_pos released, target]
      have silent : answer s (.serialOut byte host) = [] := answer_of_append (by rw [after, List.append_nil])
      refine .of_byte (by rwa [next, after]) (.inr ⟨by rw [after], unsent [] (by decide) silent⟩)
    | some n =>
      have target : h.target = some (n, s.writeSector) := by rw [stored.target, drive]; rfl
      have next := next_of_released h byte host released target
      by_cases complete : s.writeData.length = s.writeLen
      · have after : apply s (.serialOut byte host) =
            ({ s with writeData := s.writeData ++ [byte] } : AtariSio).dataFrame host n := by
          change s.serialOut byte host = _
          rw [AtariSio.serialOut, if_pos released, drive]
          refine if_pos ?_
          rw [List.length_append, complete]
          rfl
        have framed := dataFrame_framed released drive complete meets
        rw [← after] at framed
        have left : (apply s (.serialOut byte host)).writeDrive = none ∧
            (apply s (.serialOut byte host)).writeData = [] := by
          rw [after]
          exact ⟨rfl, rfl⟩
        -- an answer other than 'A', 'C' goes with the drives as they were
        have refused (bytes : List Byte) (some_ : bytes ≠ []) (other : bytes ≠ [ascii 'A', ascii 'C'])
            (drives : (apply s (.serialOut byte host)).drives = s.drives)
            (sent : answer s (.serialOut byte host) = bytes) : StepSound s h (.serialOut byte host) := by
          rw [if_neg (by rwa [sent]), if_neg (by rwa [sent])] at next
          refine .of_byte ?_ (.inr ⟨drives, unsent bytes other sent⟩)
          rw [next]
          exact ⟨fun n k => by rw [drives, stored.sectors], by rw [left.1]; rfl, left.2.symm⟩
        cases framed with
        | rejected drives sent =>
          exact refused [ascii 'N'] (by decide) (by decide) drives (answer_of_append sent)
        | failed drives sent =>
          exact refused [ascii 'A', ascii 'E'] (by decide) (by decide) drives (answer_of_append sent)
        | written img wrote drives sent =>
          have done := answer_of_append (e := .serialOut byte host) sent
          rw [← stored.frame] at wrote
          refine .of_byte ?_ (.inl ⟨⟨n, s.writeSector, img, target, wrote, drives⟩, released, done⟩)
          rw [if_neg (by rw [done]; decide), if_pos done] at next
          rw [next]
          refine ⟨fun n' k => ?_, by rw [left.1]; rfl, left.2.symm⟩
          simp only [drives, History.set, Function.update_apply]
          by_cases here : n' = n
          · rw [if_pos here, if_pos here, Function.update_apply, ← stored.sectors]
            exact wrote.read k
          · rw [if_neg here, if_neg here, stored.sectors]
      · have after : apply s (.serialOut byte host) = { s with writeData := s.writeData ++ [byte] } := by
          change s.serialOut byte host = _
          rw [AtariSio.serialOut, if_pos released, drive]
          refine if_neg ?_
          rw [List.length_append]
          exact fun same => complete (Nat.succ.inj same)
        have silent : answer s (.serialOut byte host) = [] := by
          refine answer_of_append ?_
          rw [after, List.append_nil]
          rfl
        rw [if_pos silent] at next
        refine .of_byte ?_ (.inr ⟨by rw [after], unsent [] (by decide) silent⟩)
        rw [next, after]
        exact ⟨stored.sectors, stored.target, congrArg (· ++ [byte]) stored.frame⟩
  · have after : ∃ frame ready, apply s (.serialOut byte host) =
        { s with frame := frame, frameReady := ready } := by
      change ∃ frame ready, s.serialOut byte host = _
      rw [AtariSio.serialOut, if_neg released]
      dsimp only
      split
      · split
        · exact ⟨_, _, rfl⟩
        · exact ⟨_, s.frameReady, rfl⟩
      · split
        · exact ⟨s.frame, _, rfl⟩
        · exact ⟨s.frame, s.frameReady, rfl⟩
    obtain ⟨frame, ready, after⟩ := after
    have next : h.next s (.serialOut byte host) = h := if_neg released
    refine .of_byte ?_ (.inr ⟨by rw [after], fun sent => released sent.2⟩)
    rw [next, after]
    exact ⟨stored.sectors, stored.target, stored.frame⟩

theorem mount_sound {s : AtariSio} {h : History} (stored : Stored s h) (drive : ℤ)
    (atrBytes : List Byte) (label path : String) (writable : Bool) :
    StepSound s h (.mount drive atrBytes label path writable) := by
  refine .of_quiet (by intros; nofun) ?_ (fun other => absurd rfl (other _ _ _ _ _)) (by intros; nofun)
  unfold apply History.next AtariSio.mount
  dsimp only
  cases AtariSio.driveOf drive with
  | none => exact stored
  | some n =>
    cases AtrImage.load atrBytes with
    | error err => exact stored
    | ok img =>
      refine ⟨fun n' k => ?_, stored.target, stored.frame⟩
      simp only [AtariSio.setDrive, History.set, Function.update_apply]
      split
      · rfl
      · exact stored.sectors n' k

theorem read_empty (k : ℕ) : AtrImage.empty.read k = none := by
  refine read_of_not_sector ?_
  rintro ⟨first, last⟩
  exact absurd (first.trans last) (by decide)

theorem unmount_sound {s : AtariSio} {h : History} (stored : Stored s h) (drive : ℤ) :
    StepSound s h (.unmount drive) := by
  refine .of_quiet (by intros; nofun) ?_ (fun _ other => absurd rfl (other _)) (by intros; nofun)
  unfold apply History.next AtariSio.unmount
  dsimp only
  cases AtariSio.driveOf drive with
  | none => exact stored
  | some n =>
    refine ⟨fun n' k => ?_, stored.target, stored.frame⟩
    simp only [AtariSio.setDrive, History.set, Function.update_apply]
    split
    · exact read_empty k
    · exact stored.sectors n' k

theorem tick_sound {s : AtariSio} {h : History} (stored : Stored s h) (cycles : ℕ) :
    StepSound s h (.tick cycles) := by
  have same : SameWrite s (s.tick cycles) ∧ (s.tick cycles).drives = s.drives := by
    unfold AtariSio.tick
    dsimp only
    split <;> exact ⟨⟨rfl, rfl, rfl⟩, rfl⟩
  obtain ⟨same, drives⟩ := same
  refine .of_quiet (by intros; nofun) ⟨?_, ?_, ?_⟩ (fun _ _ n => congrArg (fun d => (d n).image) drives)
    (by intros; nofun)
  · intro n k
    exact (congrArg (fun d => (d n).image.read k) drives).trans (stored.sectors n k)
  · exact stored.target.trans (by rw [apply, same.drive, same.sector])
  · exact stored.frame.trans same.data.symm

theorem step_sound {s : AtariSio} {h : History} (stored : Stored s h) {e : Event} (meets : Meets s e) :
    StepSound s h e := by
  cases e with
  | commandLine level => exact commandLine_sound stored level
  | serialOut byte host => exact serialOut_sound stored meets
  | tick cycles => exact tick_sound stored cycles
  | mount drive atrBytes label path writable => exact mount_sound stored drive atrBytes label path writable
  | unmount drive => exact unmount_sound stored drive
  | reset =>
    exact .of_quiet (by intros; nofun) ⟨stored.sectors, rfl, rfl⟩ (fun _ _ _ => rfl) (by intros; nofun)

/-! ## Runs -/

/-- The bus and what it should hold, through an event. -/
def follow (c : AtariSio × History) (e : Event) : AtariSio × History := (apply c.1 e, c.2.next c.1 e)

def run (events : List Event) : AtariSio × History :=
  events.foldl follow (AtariSio.new, ⟨fun _ _ => none, none, []⟩)

theorem stored_new : Stored (run []).1 (run []).2 := ⟨fun _ => read_empty, rfl, rfl⟩

/-- The bus is a sector store where it is, and so is what it does next. -/
structure SectorStore (s : AtariSio) (h : History) (e : Event) : Prop where
  stored : Stored s h
  sound : StepSound s h e
  inside : ∀ n k, IsSector (s.drives n).image k →
    (s.drives n).image.offsetOf k + (s.drives n).image.sizeOf k ≤ (s.drives n).image.data.length
  apart : ∀ n k k', IsSector (s.drives n).image k → k < k' →
    (s.drives n).image.offsetOf k + (s.drives n).image.sizeOf k ≤ (s.drives n).image.offsetOf k'

/-- In every run whose events all meet the condition, every state reached holds what was
mounted and written, and still does after an event that meets it. -/
theorem sectorStore_of_meets {events : List Event}
    (meets : Guarded follow (fun c e => Meets c.1 e) (run []) events) {e : Event}
    (next : Meets (run events).1 e) : SectorStore (run events).1 (run events).2 e := by
  have stored : Stored (run events).1 (run events).2 :=
    foldl_invariant follow _ (fun c => Stored c.1 c.2) (fun c e stored meets => (step_sound stored meets).stored)
      _ events stored_new meets
  refine ⟨stored, step_sound stored next, fun n k sector => ?_, fun n k k' sector less => ?_⟩
  · exact ((run events).1.drives n).image.fits k sector.1 sector.2
  · exact sectors_apart ((run events).1.drives n).image.sized sector.1 less

/-- An image of empty sectors. -/
def blank (sectorSize : Byte × Byte) (sectors : ℕ) : List Byte :=
  [0x96, 0x02, 0, 0, sectorSize.1, sectorSize.2] ++ List.replicate (10 + sectors) 0

/-- A command frame for D1. -/
def commandFrame (cmd : Byte) (sector : Byte) (host : Host) : List Event :=
  let frame := [0x31, cmd, sector, 0]
  .commandLine false :: (frame ++ [checksum frame]).map (.serialOut · host) ++ [.commandLine true]

def host : Host := ⟨true, fun _ => 0xFF⟩

/-- A disk with short sectors, a write command for sector 4 and the bytes of its data frame,
but for the checksum. -/
def writing (between : List Event) : List Event :=
  .mount 0 (blank (128, 0) (4 * 128)) "" "" true :: commandFrame (ascii 'W') 4 host ++ between ++
    List.replicate 128 (.serialOut 7 host)

set_option maxRecDepth 100000 in
theorem writing_stored :
    SectorStore (run (writing [])).1 (run (writing [])).2 (.serialOut 0x83 host) :=
  sectorStore_of_meets (by decide) (by decide)

set_option maxRecDepth 100000 in
/-- With a disk of long sectors put in between the frames, what lies behind the data frame is
written too. -/
theorem overrun_not_stored :
    ¬ SectorStore (run (writing [.mount 0 (blank (0, 1) (3 * 128 + 256)) "" "" true])).1
      (run (writing [.mount 0 (blank (0, 1) (3 * 128 + 256)) "" "" true])).2
      (.serialOut 0x83 host) := by
  intro store
  have held := congrArg (Option.map List.length) (store.sound.stored.sectors 0 4)
  revert held
  decide

end Mmemu.Guarantees.SioStore
