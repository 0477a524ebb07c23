import Mmemu.Source.CbmImageDos

/-!
# Commodore DOS: what the bus calls do to open files

A file open for reading is its bytes and a position. Data, commands and block access leave
every such file as it is; only opening, closing and reading a channel change it.
-/
namespace Mmemu.Source.CbmDos

/-- The file a channel is open on for reading: what it holds and how much is read. -/
def Channel.file (c : Channel) : Option (Bytes × ℕ) :=
  if c.opened && !c.buffer && !c.writing then some (c.data, c.pos) else none

@[simp] theorem Channel.file_closed : Channel.closed.file = none := rfl

theorem Channel.file_buffer {c : Channel} (h : c.buffer = true) : c.file = none := by
  simp [file, h]

theorem Channel.file_writing {c : Channel} (h : c.writing = true) : c.file = none := by
  simp [file, h]

namespace CbmImageDos
variable {δ : Type} [CbmSectorDisk δ]

def files (d : CbmImageDos δ) (k : Fin 16) : Option (Bytes × ℕ) := (d.ch k).file

omit [CbmSectorDisk δ] in
theorem files_setCh (d : CbmImageDos δ) (k : Fin 16) (c : Channel) :
    (d.setCh k c).files = Function.update d.files k c.file := by
  funext j
  by_cases same : j = k
  · subst same
    simp [files, setCh]
  · simp [files, setCh, same]

/-- The open files and the state of the bus calls stay. -/
structure Frame (d d' : CbmImageDos δ) : Prop where
  files : d'.files = d.files
  listening : d'.listening = d.listening
  talking : d'.talking = d.talking
  opening : d'.opening = d.opening
  channel : d'.channel = d.channel
  unit : d.unit ≤ 30 → d'.unit ≤ 30

omit [CbmSectorDisk δ] in
theorem Frame.refl (d : CbmImageDos δ) : Frame d d := ⟨rfl, rfl, rfl, rfl, rfl, id⟩

omit [CbmSectorDisk δ] in
theorem Frame.trans {d d' d'' : CbmImageDos δ} (h : Frame d d') (h' : Frame d' d'') :
    Frame d d'' :=
  ⟨h'.files.trans h.files, h'.listening.trans h.listening, h'.talking.trans h.talking,
    h'.opening.trans h.opening, h'.channel.trans h.channel, h'.unit ∘ h.unit⟩

omit [CbmSectorDisk δ] in
theorem Frame.ite {d a b : CbmImageDos δ} {c : Prop} [Decidable c] (yes : Frame d a)
    (no : Frame d b) : Frame d (if c then a else b) := by
  split
  · exact yes
  · exact no

omit [CbmSectorDisk δ] in
theorem frame_setError (d : CbmImageDos δ) (code : ℕ) (text : String) (track sector : ℕ) :
    Frame d (d.setError code text track sector) := by
  refine ⟨?_, ?_, ?_, ?_, ?_, ?_⟩
  · funext k
    simp [files, setError]
  all_goals simp [setError]

omit [CbmSectorDisk δ] in
/-- Setting the error after something else. -/
theorem Frame.setError {d d' : CbmImageDos δ} (h : Frame d d') (code : ℕ) (text : String)
    (track sector : ℕ) : Frame d (d'.setError code text track sector) :=
  h.trans (frame_setError d' code text track sector)

omit [CbmSectorDisk δ] in
theorem Frame.loggedIn {d d' : CbmImageDos δ} (h : Frame d d') (on : Bool) :
    Frame d { d' with loggedIn := on } := h.trans ⟨rfl, rfl, rfl, rfl, rfl, id⟩

omit [CbmSectorDisk δ] in
theorem frame_disk (d : CbmImageDos δ) (disk : δ) : Frame d { d with disk := disk } :=
  ⟨rfl, rfl, rfl, rfl, rfl, id⟩

omit [CbmSectorDisk δ] in
theorem frame_dosResult (d : CbmImageDos δ) (code track : ℕ) : Frame d (d.dosResult code track) := by
  unfold dosResult
  split <;> exact frame_setError ..

omit [CbmSectorDisk δ] in
/-- A channel without a file may change as long as it gets none. -/
theorem frame_setCh {d : CbmImageDos δ} {k : Fin 16} {c : Channel} (old : d.files k = none)
    (new : c.file = none) : Frame d (d.setCh k c) := by
  refine ⟨?_, rfl, rfl, rfl, rfl, id⟩
  rw [files_setCh, new, ← old, Function.update_eq_self]

omit [CbmSectorDisk δ] in
theorem bufferChannel_eq_some {d : CbmImageDos δ} {n : ℕ} {k : Fin 16}
    (h : d.bufferChannel n = some k) : (d.ch k).buffer = true := by
  unfold bufferChannel at h
  split at h
  · cases h
  · split at h
    next buffer =>
      rw [← Option.some.inj h]
      exact buffer
    · cases h

theorem frame_blockRead (d : CbmImageDos δ) (args : Bytes) (u1 : Bool) :
    Frame d (d.blockRead args u1) := by
  unfold blockRead
  split
  next chn _ t sec _ _ =>
    split
    · exact frame_setError ..
    next k found =>
      have buffer := bufferChannel_eq_some found
      split
      · exact frame_setError ..
      · refine .setError (frame_setCh (Channel.file_buffer buffer) (Channel.file_buffer ?_)) ..
        dsimp only
        split <;> exact buffer
  · exact frame_setError ..

theorem frame_blockWrite (d : CbmImageDos δ) (args : Bytes) (u2 : Bool) :
    Frame d (d.blockWrite args u2) := by
  unfold blockWrite
  split
  next chn _ t sec _ _ =>
    split
    · exact frame_setError ..
    next k found =>
      have buffer := bufferChannel_eq_some found
      have stored (c : Channel) (still : c.buffer = true) (disk : δ) :
          Frame d { d.setCh k c with disk := disk } :=
        (frame_setCh (Channel.file_buffer buffer) (Channel.file_buffer still)).trans
          ⟨rfl, rfl, rfl, rfl, rfl, id⟩
      refine .ite (frame_setError ..) (.ite (frame_setError ..) ?_)
      refine .ite (.setError (stored _ ?_ _) ..) (.setError (stored _ ?_ _) ..)
      all_goals split <;> exact buffer
  · exact frame_setError ..

omit [CbmSectorDisk δ] in
theorem frame_bufferPointer (d : CbmImageDos δ) (args : Bytes) : Frame d (d.bufferPointer args) := by
  unfold bufferPointer
  split
  · split
    · exact frame_setError ..
    next k found =>
      have buffer := bufferChannel_eq_some found
      refine .setError (frame_setCh (Channel.file_buffer buffer) (Channel.file_buffer ?_)) ..
      exact buffer
  · exact frame_setError ..

omit [CbmSectorDisk δ] in
theorem frame_pushStatus (d : CbmImageDos δ) (status : Byte) : Frame d (d.pushStatus status) :=
  ⟨rfl, rfl, rfl, rfl, rfl, id⟩

theorem frame_burstRead (t : ℕ) (noTransfer : Bool) (n s : ℕ) (d : CbmImageDos δ) :
    Frame d (burstRead t noTransfer n s d) := by
  induction n generalizing s d with
  | zero => exact .refl d
  | succ n ih =>
    unfold burstRead
    split
    · exact frame_pushStatus d _
    · refine Frame.trans ?_ (ih _ _)
      exact .ite (frame_pushStatus d _) ⟨rfl, rfl, rfl, rfl, rfl, id⟩

omit [CbmSectorDisk δ] in
theorem frame_burstUtility (d : CbmImageDos δ) (a : Bytes) : Frame d (d.burstUtility a) := by
  unfold burstUtility
  split
  · exact frame_setError ..
  · split
    · exact frame_setError ..
    · split
      next bounds =>
        refine .setError ?_ ..
        exact ⟨rfl, rfl, rfl, rfl, rfl, fun _ => bounds.2⟩
      · exact frame_setError ..

theorem frame_burst (d : CbmImageDos δ) (b : Bytes) : Frame d (d.burst b) := by
  have cleared : Frame d { d with burstOut := [], bwLeft := 0 } := ⟨rfl, rfl, rfl, rfl, rfl, id⟩
  have kept {d' : CbmImageDos δ} (h : Frame { d with burstOut := [], bwLeft := 0 } d') :
      Frame d d' := cleared.trans h
  unfold burst
  split
  · exact kept ⟨rfl, rfl, rfl, rfl, rfl, id⟩
  · refine .ite (.setError (kept (frame_pushStatus ..)) ..) ?_
    split
    · exact .setError (kept (frame_burstRead ..)) ..
    · refine .setError (kept ?_) ..
      exact ⟨rfl, rfl, rfl, rfl, rfl, id⟩
    · refine .setError (kept ?_) ..
      exact ⟨rfl, rfl, rfl, rfl, rfl, id⟩
    · refine .setError (kept ?_) ..
      exact ⟨rfl, rfl, rfl, rfl, rfl, id⟩
    · refine .setError (.loggedIn (.ite (kept ?_) (.ite (kept ?_) (kept ?_))) false) ..
      all_goals exact ⟨rfl, rfl, rfl, rfl, rfl, id⟩
    · refine .setError (.ite (kept ?_) (kept ?_)) ..
      all_goals exact ⟨rfl, rfl, rfl, rfl, rfl, id⟩
    · refine .setError (.ite (.ite (kept ?_) (kept ?_)) (.ite (kept ?_) (kept ?_))) ..
      all_goals exact ⟨rfl, rfl, rfl, rfl, rfl, id⟩
    · refine .ite (.setError (kept ?_) ..) (.ite (kept (frame_burstUtility ..))
        (.setError (kept ?_) ..))
      all_goals exact ⟨rfl, rfl, rfl, rfl, rfl, id⟩

theorem frame_scratchAll (patterns : List Bytes) (total : ℕ) (d : CbmImageDos δ) :
    Frame d (scratchAll patterns total d).2 := by
  induction patterns generalizing total d with
  | nil => exact .refl d
  | cons pat rest ih =>
    unfold scratchAll
    split
    · exact ih total d
    · cases CbmSectorDisk.scratch d.disk (dropDrive pat) with
      | mk n disk => exact (frame_disk d disk).trans (ih _ _)

/-- No command of the command channel touches an open file. -/
theorem frame_command (d : CbmImageDos δ) (raw : Bytes) : Frame d (d.command raw) := by
  unfold command
  refine .ite (frame_burst ..) ?_
  generalize dropLineEnds raw = cmd
  cases cmd with
  | nil => exact .refl d
  | cons c rest =>
    refine .ite (frame_setError ..) (.ite (frame_blockRead ..) (.ite (frame_blockRead ..)
      (.ite (frame_bufferPointer ..) (.ite (frame_blockWrite ..) (.ite (frame_blockWrite ..) ?_)))))
    have refused : Frame d
        (if c = chr 'N' || c = chr 'C' || c = chr 'V' || startsWith (c :: rest) "M-W" then
          d.setError 26 "WRITE PROTECT ON" else d.setError 31 "SYNTAX ERROR") :=
      .ite (frame_setError ..) (frame_setError ..)
    cases after ':' (c :: rest) with
    | none => exact refused
    | some arg =>
      refine .ite (.ite (frame_setError ..) (.ite ?_ ?_)) refused
      · exact (frame_scratchAll ..).trans (frame_dosResult ..)
      · cases after '=' arg with
        | none => exact frame_setError ..
        | some source =>
          dsimp only
          cases CbmSectorDisk.rename d.disk (arg.takeWhile (· != chr '=')) (dropDrive source) with
          | mk code disk => exact (frame_disk d disk).trans (frame_dosResult ..)

omit [CbmSectorDisk δ] in
theorem frame_burstWriteByte (d : CbmImageDos δ) (b : Byte) : Frame d (d.burstWriteByte b).2 := by
  unfold burstWriteByte
  split
  · exact .refl d
  · exact ⟨rfl, rfl, rfl, rfl, rfl, id⟩

theorem frame_burstFinishSector (d : CbmImageDos δ) : Frame d d.burstFinishSector := by
  unfold burstFinishSector
  split
  · exact .refl d
  · exact ⟨rfl, rfl, rfl, rfl, rfl, id⟩

omit [CbmSectorDisk δ] in
theorem frame_takeFastload (d : CbmImageDos δ) : Frame d d.takeFastload.2 := by
  unfold takeFastload
  split
  · exact ⟨rfl, rfl, rfl, rfl, rfl, id⟩
  · exact .refl d

/-! ## The bus calls -/

theorem frame_ciout (d : CbmImageDos δ) (a : Byte) : Frame d (d.ciout a).2 := by
  have ended (cmd : Bytes) : Frame d { d.command d.cmd with cmd := cmd } :=
    (frame_command d d.cmd).trans ⟨rfl, rfl, rfl, rfl, rfl, id⟩
  unfold ciout
  split
  · exact .refl d
  · split
    · refine .ite ?_ (.refl d)
      exact ⟨rfl, rfl, rfl, rfl, rfl, id⟩
    · split
      · dsimp only
        split
        · exact ended []
        · refine .ite ?_ (.refl d)
          exact ⟨rfl, rfl, rfl, rfl, rfl, id⟩
      · dsimp only
        split
        next writing =>
          exact frame_setCh (Channel.file_writing writing) (Channel.file_writing writing)
        · split
          next buffer =>
            exact frame_setCh (Channel.file_buffer buffer) (Channel.file_buffer buffer)
          · split
            · exact frame_setError ..
            · exact .refl d

omit [CbmSectorDisk δ] in
theorem files_tksa (d : CbmImageDos δ) (a : Byte) : (d.tksa a).2.files = d.files := by
  unfold tksa
  split <;> rfl

omit [CbmSectorDisk δ] in
theorem channel_tksa {d : CbmImageDos δ} {a : Byte} (talking : (d.tksa a).2.talking = true) :
    (d.tksa a).2.channel = channelOf a := by
  unfold tksa at talking ⊢
  cases on : d.talking with
  | false => simp [on] at talking
  | true => rfl

theorem files_closeChannel (d : CbmImageDos δ) (k : Fin 16) :
    (d.closeChannel k).files = Function.update d.files k none := by
  unfold closeChannel
  dsimp only
  split
  · cases CbmSectorDisk.writeFile d.disk (d.ch k).wname (d.ch k).wtype (d.ch k).data
        (d.ch k).replace with
    | mk code disk =>
      have kept := (frame_disk d disk).trans (frame_dosResult { d with disk := disk } code 0)
      rw [files_setCh, kept.files, Channel.file_closed]
  · rw [files_setCh, Channel.file_closed]

/-- A secondary address closes its channel or leaves the files. -/
theorem files_second (d : CbmImageDos δ) (a : Byte) (k : Fin 16) (data : Bytes) (pos : ℕ)
    (h : (d.second a).2.files k = some (data, pos)) :
    d.files k = some (data, pos) ∧ (a &&& 0xF0 = 0xE0 → d.listening = true → channelOf a ≠ k) := by
  unfold second at h
  split at h
  next silent =>
    refine ⟨h, fun _ listening => ?_⟩
    simp [listening] at silent
  next =>
    dsimp only at h
    split at h
    · rw [files_closeChannel] at h
      by_cases same : k = channelOf a
      · subst same
        simp at h
      · rw [Function.update_of_ne same] at h
        exact ⟨h, fun _ _ => Ne.symm same⟩
    next other =>
      have kept : d.files k = some (data, pos) := by
        split at h <;> exact h
      exact ⟨kept, fun close => absurd close other⟩

/-- What opening does to the files and to the bus calls. -/
structure Opened (d d' : CbmImageDos δ) (k : Fin 16) : Prop where
  files : ∃ f, d'.files = Function.update d.files k f ∧
    ∀ data pos, f = some (data, pos) → k ≠ 15 ∧ pos = 0
  listening : d'.listening = d.listening
  talking : d'.talking = d.talking
  opening : d'.opening = d.opening
  channel : d'.channel = d.channel
  unit : d.unit ≤ 30 → d'.unit ≤ 30

omit [CbmSectorDisk δ] in
/-- A channel left without a file. -/
theorem opened_none {d : CbmImageDos δ} {k : Fin 16} {c : Channel} (file : c.file = none)
    (code : ℕ) (text : String) : Opened d ((d.setCh k c).setError code text) k := by
  refine ⟨⟨none, ?_, ?_⟩, rfl, rfl, rfl, rfl, id⟩
  · rw [(frame_setError _ code text 0 0).files, files_setCh, file]
  · rintro data pos ⟨⟩

omit [CbmSectorDisk δ] in
/-- A channel open on a file from its start. -/
theorem opened_some {d : CbmImageDos δ} {k : Fin 16} (ordinary : k ≠ 15) (data : Bytes)
    (code : ℕ) (text : String) :
    Opened d ((d.setCh k { Channel.closed with opened := true, data := data }).setError code text)
      k := by
  refine ⟨⟨some (data, 0), ?_, ?_⟩, rfl, rfl, rfl, rfl, id⟩
  · rw [(frame_setError _ code text 0 0).files, files_setCh]
    rfl
  · rintro _ _ ⟨⟩
    exact ⟨ordinary, rfl⟩

theorem opened_openWrite (d : CbmImageDos δ) (k : Fin 16) (name opts : Bytes) (append : Bool) :
    Opened d (d.openWrite k name opts append) k := by
  unfold openWrite
  split
  · exact opened_none rfl ..
  · dsimp only
    split
    · split
      · exact opened_none rfl ..
      · refine opened_none ?_ ..
        rfl
    · generalize (CbmSectorDisk.getDirectory d.disk).any _ = exists_
      cases exists_ with
      | true => exact opened_none rfl ..
      | false =>
        refine opened_none ?_ ..
        rfl

theorem opened_openRead (d : CbmImageDos δ) {k : Fin 16} (ordinary : k ≠ 15) (name : Bytes) :
    Opened d (d.openRead k name) k := by
  unfold openRead
  dsimp only
  split
  · exact opened_some ordinary ..
  · exact opened_none rfl ..

theorem opened_openChannel (d : CbmImageDos δ) (k : Fin 16) (spec : Bytes) :
    Opened d (d.openChannel k spec) k := by
  unfold openChannel
  split
  next =>
    have kept : Frame (d.setCh k .closed)
        (if spec.isEmpty then d.setCh k .closed else (d.setCh k .closed).command spec) :=
      .ite (.refl _) (frame_command ..)
    refine ⟨⟨none, ?_, ?_⟩, kept.listening, kept.talking, kept.opening, kept.channel, kept.unit⟩
    · rw [kept.files, files_setCh, Channel.file_closed]
    · rintro data pos ⟨⟩
  next ordinary =>
    split
    · exact opened_none rfl ..
    · dsimp only
      split
      · exact opened_some ordinary ..
      · split
        · exact opened_openWrite ..
        · exact opened_openRead d ordinary _

theorem unit_openWrite (d : CbmImageDos δ) (k : Fin 16) (name opts : Bytes) (append : Bool) :
    (d.openWrite k name opts append).unit = d.unit := by
  unfold openWrite
  split
  · rfl
  · dsimp only
    split
    · split <;> rfl
    · generalize (CbmSectorDisk.getDirectory d.disk).any _ = exists_
      cases exists_ <;> rfl

theorem unit_openRead (d : CbmImageDos δ) (k : Fin 16) (name : Bytes) :
    (d.openRead k name).unit = d.unit := by
  unfold openRead
  dsimp only
  split <;> rfl

/-- A channel other than the command channel keeps the unit number. -/
theorem unit_openChannel (d : CbmImageDos δ) {k : Fin 16} (ordinary : k ≠ 15) (spec : Bytes) :
    (d.openChannel k spec).unit = d.unit := by
  unfold openChannel
  rw [if_neg ordinary]
  split
  · rfl
  · dsimp only
    split
    · rfl
    · split
      · exact unit_openWrite ..
      · exact unit_openRead ..

/-! ## Reading a byte -/

omit [CbmSectorDisk δ] in
/-- A byte of an open file is read and the position moves on. -/
theorem acptr_eq_some {d : CbmImageDos δ} (talking : d.talking = true) (ordinary : d.channel ≠ 15)
    {data : Bytes} {pos : ℕ} (file : d.files d.channel = some (data, pos)) :
    d.acptr.1 = (if data.length ≤ pos then 0x42 else if pos + 1 = data.length then 0x40 else 0) ∧
      (pos < data.length → d.acptr.2.1 = data.getD pos 0) ∧
      d.acptr.2.2.files = Function.update d.files d.channel
        (some (data, if pos < data.length then pos + 1 else pos)) := by
  unfold files Channel.file at file
  split at file
  next reading =>
    simp only [Bool.and_eq_true, Bool.not_eq_true'] at reading
    obtain ⟨⟨opened, buffer⟩, writing⟩ := reading
    simp only [Option.some.injEq, Prod.mk.injEq] at file
    obtain ⟨rfl, rfl⟩ := file
    have asIs : d.files d.channel = some ((d.ch d.channel).data, (d.ch d.channel).pos) := by
      simp [files, Channel.file, opened, buffer, writing]
    unfold acptr
    simp only [talking, Bool.not_true, Bool.false_eq_true, if_false, ordinary, buffer, opened,
      false_or]
    split
    next ended =>
      refine ⟨rfl, fun inside => by omega, ?_⟩
      rw [if_neg (by omega), ← asIs, Function.update_eq_self]
    next inside =>
      refine ⟨rfl, fun _ => rfl, ?_⟩
      rw [files_setCh, if_pos (by omega)]
      simp [Channel.file, opened, buffer, writing]
  next => cases file

omit [CbmSectorDisk δ] in
/-- Reading from anything else leaves the files. -/
theorem files_acptr {d : CbmImageDos δ}
    (other : d.talking = false ∨ d.channel = 15 ∨ d.files d.channel = none) :
    d.acptr.2.2.files = d.files := by
  unfold acptr
  split
  · rfl
  next on =>
    split
    · dsimp only
      split
      · exact (frame_setError ..).files
      · rfl
    next ordinary =>
      have none : d.files d.channel = none := by
        rcases other with silent | command | none
        · simp [silent] at on
        · exact absurd command ordinary
        · exact none
      dsimp only
      split
      next buffer =>
        refine (frame_setCh none (Channel.file_buffer ?_)).files
        exact buffer
      · split
        · rfl
        next open_ =>
          refine (frame_setCh none ?_).files
          unfold files Channel.file at none
          unfold Channel.file
          split at none
          · cases none
          next closed => exact if_neg closed

omit [CbmSectorDisk δ] in
/-- Either no file moves on, and a file that is open has no byte to give, or the file of the
channel gives its next byte. -/
theorem acptr_cases {d : CbmImageDos δ} (command : d.files 15 = none) :
    (d.acptr.2.2.files = d.files ∧
      (d.acptr.1 = -2 ∨ d.acptr.1 = 0x42 ∨ d.talking = true ∧ d.files d.channel = none)) ∨
    ∃ data pos, ¬(d.acptr.1 = -2 ∨ d.acptr.1 = 0x42) ∧ d.talking = true ∧
      d.files d.channel = some (data, pos) ∧ pos < data.length ∧ d.acptr.2.1 = data.getD pos 0 ∧
      d.acptr.2.2.files = Function.update d.files d.channel (some (data, pos + 1)) := by
  cases talking : d.talking with
  | false =>
    refine .inl ⟨files_acptr (.inl talking), .inl ?_⟩
    unfold acptr
    simp [talking]
  | true =>
    cases file : d.files d.channel with
    | none => exact .inl ⟨files_acptr (.inr (.inr file)), .inr (.inr ⟨rfl, rfl⟩)⟩
    | some read =>
      obtain ⟨data, pos⟩ := read
      have ordinary : d.channel ≠ 15 := by
        intro same
        rw [same, command] at file
        cases file
      obtain ⟨status, byte, files⟩ := acptr_eq_some talking ordinary file
      by_cases inside : pos < data.length
      · rw [if_pos inside] at files
        have read : ¬(d.acptr.1 = -2 ∨ d.acptr.1 = 0x42) := by
          rw [status, if_neg (by omega)]
          split <;> decide
        exact .inr ⟨data, pos, read, rfl, rfl, inside, byte inside, files⟩
      · rw [if_neg inside, ← file, Function.update_eq_self] at files
        rw [if_pos (by omega)] at status
        exact .inl ⟨files, .inr (.inl status)⟩

omit [CbmSectorDisk δ] in
/-- What reading a byte leaves alone. -/
theorem acptr_keeps (d : CbmImageDos δ) :
    d.acptr.2.2.talking = d.talking ∧ d.acptr.2.2.channel = d.channel ∧
      d.acptr.2.2.opening = d.opening ∧ d.acptr.2.2.unit = d.unit := by
  unfold acptr
  split
  · exact ⟨rfl, rfl, rfl, rfl⟩
  · split
    · dsimp only
      split <;> exact ⟨rfl, rfl, rfl, rfl⟩
    · dsimp only
      split
      · exact ⟨rfl, rfl, rfl, rfl⟩
      · split <;> exact ⟨rfl, rfl, rfl, rfl⟩

end CbmImageDos

end Mmemu.Source.CbmDos
