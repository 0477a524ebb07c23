import Mmemu.Source.CbmDosFrame
import Mmemu.Source.IecDrive

/-!
# The IEC drive: what it asks of the DOS

A burst fastload opens, reads and closes channel 0; a command byte goes to the DOS as one bus
call; an offered byte is the one kept or the next one of the channel.
-/
namespace Mmemu.Source.IecBus
open Mmemu.Source.CbmDos

namespace IecDrive
variable {δ : Type} [CbmSectorDisk δ]

section Calls
omit [CbmSectorDisk δ]

theorem listen_ours {d : CbmImageDos δ} {a : Byte} (ours : (a &&& 0x1F).toNat = d.unit) :
    d.listen a = (-1, { d with listening := true, active := true }) := by
  unfold CbmImageDos.listen
  rw [if_neg (not_not.mpr ours)]

theorem talk_ours {d : CbmImageDos δ} {a : Byte} (ours : (a &&& 0x1F).toNat = d.unit) :
    d.talk a = (-1, { d with talking := true, active := true }) := by
  unfold CbmImageDos.talk
  rw [if_neg (not_not.mpr ours)]

theorem untlk_eq (d : CbmImageDos δ) :
    (d.untlk).2.files = d.files ∧ (d.untlk).2.talking = false ∧ (d.untlk).2.opening = d.opening ∧
      (d.untlk).2.unit = d.unit := by
  unfold CbmImageDos.untlk
  cases on : d.talking with
  | true => exact ⟨rfl, rfl, rfl, rfl⟩
  | false => exact ⟨rfl, on, rfl, rfl⟩

end Calls

/-- A secondary address that opens: the name follows. -/
theorem second_open {d : CbmImageDos δ} (listening : d.listening = true) :
    (d.second 0xF0).2 = { d with channel := 0, opening := true, name := [] } := by
  unfold CbmImageDos.second
  simp only [listening, Bool.not_true, Bool.false_eq_true, if_false]
  rw [if_neg (by decide), if_pos (by decide)]
  rfl

/-- The bytes of a name are collected. -/
theorem ciout_name {d : CbmImageDos δ} (listening : d.listening = true) (opening : d.opening = true)
    (bytes : Bytes) : ∃ name, bytes.foldl (fun d a => (d.ciout a).2) d = { d with name := name } := by
  induction bytes generalizing d with
  | nil => exact ⟨d.name, rfl⟩
  | cons a rest ih =>
    have one : ∃ name, (d.ciout a).2 = { d with name := name } := by
      unfold CbmImageDos.ciout
      rw [if_neg (by simp [listening]), if_pos opening]
      dsimp only
      split
      · exact ⟨_, rfl⟩
      · exact ⟨d.name, rfl⟩
    obtain ⟨name, one⟩ := one
    rw [List.foldl_cons, one]
    exact ih listening opening

theorem unlsn_open {d : CbmImageDos δ} (listening : d.listening = true)
    (opening : d.opening = true) :
    (d.unlsn).2 =
      { d with listening := false, active := false, opening := false }.openChannel d.channel
        d.name := by
  unfold CbmImageDos.unlsn
  simp [listening, opening]

/-- Without a name to open, an UNLISTEN at most runs a command. -/
theorem unlsn_else {d : CbmImageDos δ} (h : ¬(d.listening = true ∧ d.opening = true)) :
    (d.unlsn).2.files = d.files ∧ (d.unit ≤ 30 → (d.unlsn).2.unit ≤ 30) := by
  unfold CbmImageDos.unlsn
  split
  · exact ⟨rfl, id⟩
  next listening =>
    have named : ¬d.opening = true := fun opening => h ⟨by simpa using listening, opening⟩
    dsimp only
    rw [if_neg named]
    split
    · have frame := CbmImageDos.frame_command { d with listening := false, active := false } d.cmd
      exact ⟨frame.files, frame.unit⟩
    · exact ⟨rfl, id⟩

omit [CbmSectorDisk δ] in
/-- Reading a file through channel 0 changes that channel only. -/
theorem fastloadBytes_frame (guard : ℕ) {d : CbmImageDos δ} (zero : d.channel = 0) :
    (∀ k ≠ 0, (fastloadBytes guard d).2.files k = d.files k) ∧
      (fastloadBytes guard d).2.opening = d.opening ∧
      (fastloadBytes guard d).2.unit = d.unit := by
  have one (d : CbmImageDos δ) (zero : d.channel = 0) : ∀ k ≠ 0, d.acptr.2.2.files k = d.files k := by
    intro k other
    cases talking : d.talking with
    | false => rw [CbmImageDos.files_acptr (.inl talking)]
    | true =>
      cases file : d.files d.channel with
      | none => rw [CbmImageDos.files_acptr (.inr (.inr file))]
      | some read =>
        obtain ⟨-, -, files⟩ := CbmImageDos.acptr_eq_some talking (by rw [zero]; decide) file
        rw [files, zero, Function.update_of_ne other]
  induction guard generalizing d with
  | zero => exact ⟨fun _ _ => rfl, rfl, rfl⟩
  | succ guard ih =>
    obtain ⟨-, channel, opening, unit⟩ := d.acptr_keeps
    unfold fastloadBytes
    dsimp only
    split
    · exact ⟨one d zero, opening, unit⟩
    · split
      · exact ⟨one d zero, opening, unit⟩
      · obtain ⟨files, opening', unit'⟩ := ih (channel.trans zero)
        exact ⟨fun k other => (files k other).trans (one d zero k other), opening'.trans opening,
          unit'.trans unit⟩

theorem unit_mask : ∀ u ≤ 30, ((0x20 ||| BitVec.ofNat 8 u : Byte) &&& 0x1F).toNat = u ∧
    ((0x40 ||| BitVec.ofNat 8 u : Byte) &&& 0x1F).toNat = u := by decide

theorem closeChannel_keeps (d : CbmImageDos δ) (k : Fin 16) :
    (d.closeChannel k).talking = d.talking ∧ (d.closeChannel k).opening = d.opening ∧
      (d.closeChannel k).channel = d.channel ∧ (d.closeChannel k).listening = d.listening ∧
      (d.closeChannel k).unit = d.unit := by
  unfold CbmImageDos.closeChannel
  dsimp only
  split
  · cases CbmSectorDisk.writeFile d.disk (d.ch k).wname (d.ch k).wtype (d.ch k).data
        (d.ch k).replace with
    | mk code disk =>
      unfold CbmImageDos.dosResult
      dsimp only
      split <;> exact ⟨rfl, rfl, rfl, rfl, rfl⟩
  · exact ⟨rfl, rfl, rfl, rfl, rfl⟩

theorem unit_second (d : CbmImageDos δ) (b : Byte) : (d.second b).2.unit = d.unit := by
  unfold CbmImageDos.second
  split
  · rfl
  · dsimp only
    split
    · exact (closeChannel_keeps _ _).2.2.2.2
    · split <;> rfl

/-- Closing channel 0 as a listener that is told so and let go. -/
theorem close_zero {d : CbmImageDos δ} (listening : d.listening = true)
    (silent : d.talking = false) (unit : d.unit ≤ 30) :
    ((d.second 0xE0).2.unlsn).2.files = Function.update d.files 0 none ∧
      ((d.second 0xE0).2.unlsn).2.talking = false ∧
      ((d.second 0xE0).2.unlsn).2.opening = false ∧ ((d.second 0xE0).2.unlsn).2.unit ≤ 30 := by
  have closed : (d.second 0xE0).2 =
      { d with channel := 0, opening := false }.closeChannel 0 := by
    unfold CbmImageDos.second
    rw [if_neg (by simp [listening])]
    dsimp only
    rw [if_pos (by decide)]
    rfl
  obtain ⟨talking, opening, channel, still, same⟩ :=
    closeChannel_keeps { d with channel := 0, opening := false } 0
  have released : ∀ e : CbmImageDos δ, e.opening = false → e.channel = 0 → e.listening = true →
      (e.unlsn).2 = { e with listening := false, active := false } := by
    intro e opening channel listening
    unfold CbmImageDos.unlsn
    rw [if_neg (by simp [listening])]
    dsimp only
    rw [if_neg (by simp [opening]), if_neg (by simp [channel])]
  rw [closed, released _ opening channel (still.trans listening)]
  exact ⟨CbmImageDos.files_closeChannel _ 0, talking.trans silent, opening,
    le_of_eq_of_le same unit⟩

omit [CbmSectorDisk δ] in
/-- Made to talk on channel 0. -/
theorem talk_zero {d : CbmImageDos δ} {a : Byte} (ours : (a &&& 0x1F).toNat = d.unit) :
    ((d.talk a).2.tksa 0x60).2 =
      { d with talking := true, active := true, channel := 0 } := by
  rw [talk_ours ours]
  rfl

/-- What a fastload leaves: channel 0 closed, nobody talking. -/
theorem fastload_frame {d : CbmImageDos δ} (unit : d.unit ≤ 30) (name : Bytes) :
    (fastload d name).files = Function.update d.files 0 none ∧
      (fastload d name).talking = false ∧ (fastload d name).opening = false ∧
      (fastload d name).unit ≤ 30 := by
  obtain ⟨listenMask, talkMask⟩ := unit_mask d.unit unit
  obtain ⟨text, named⟩ : ∃ text, name.foldl (fun d a => (d.ciout a).2)
      ((d.listen (0x20 ||| BitVec.ofNat 8 d.unit)).2.second 0xF0).2 =
        { d with listening := true, active := true, channel := 0, opening := true, name := text } := by
    rw [listen_ours listenMask, second_open rfl]
    exact ciout_name rfl rfl name
  generalize opening : { d with
    listening := false, active := false, channel := 0, opening := false
    name := text }.openChannel 0 text = e
  have released : ({ d with
      listening := true, active := true, channel := 0, opening := true
      name := text } : CbmImageDos δ).unlsn.2 = e := (unlsn_open rfl rfl).trans opening
  have openedUnit : e.unit = d.unit := opening ▸ CbmImageDos.unit_openChannel _ (by decide) text
  have openedFiles : ∀ k ≠ 0, e.files k = d.files k := by
    obtain ⟨f, files, -⟩ := (CbmImageDos.opened_openChannel { d with
      listening := false, active := false, channel := 0, opening := false
      name := text } 0 text).files
    intro k other
    rw [← opening, files, Function.update_of_ne other]
    rfl
  have offered : ((e.talk (0x40 ||| BitVec.ofNat 8 d.unit)).2.tksa 0x60).2 =
      { e with talking := true, active := true, channel := 0 } :=
    talk_zero (talkMask.trans openedUnit.symm)
  generalize reading : fastloadBytes (2 ^ 24)
    { e with talking := true, active := true, channel := 0 } = read
  obtain ⟨readFiles, -, readUnit⟩ := fastloadBytes_frame (2 ^ 24)
    (d := { e with talking := true, active := true, channel := 0 }) rfl
  rw [reading] at readFiles readUnit
  obtain ⟨untalked, silent, -, untalkedUnit⟩ := untlk_eq read.2
  have back : (read.2.untlk).2.unit = d.unit :=
    untalkedUnit.trans (readUnit.trans openedUnit)
  have closing := close_zero (d := { (read.2.untlk).2 with listening := true, active := true }) rfl
    silent (le_of_eq_of_le back unit)
  have whole : fastload d name =
      { ((({ (read.2.untlk).2 with listening := true, active := true } :
          CbmImageDos δ).second 0xE0).2.unlsn).2 with
        burstOut := if read.1.length < 2 then [0x02]
          else fastloadBlocks read.1 read.1.length 0 } := by
    unfold fastload
    dsimp only
    rw [named, released, offered, reading, listen_ours (listenMask.trans back.symm)]
  rw [whole]
  obtain ⟨files, talking, opened, units⟩ := closing
  refine ⟨?_, talking, opened, units⟩
  refine files.trans ?_
  funext k
  by_cases zero : k = 0
  · rw [zero, Function.update_self, Function.update_self]
  · rw [Function.update_of_ne zero, Function.update_of_ne zero]
    exact (congrFun untalked k).trans ((readFiles k zero).trans (openedFiles k zero))

end IecDrive

/-! ## Reactions that take no byte from a channel and give none -/

/-- The drive has the bus as a talker. -/
def St.talks : St → Bool
  | .turnaround | .txStart | .txWaitListener | .txEoiWait | .txEoiRelease | .txBitSetup
  | .txBitValid | .txFrame => true
  | _ => false

/-- A byte is on its way to the listener. -/
def St.sends : St → Bool
  | .txWaitListener | .txEoiWait | .txEoiRelease | .txBitSetup | .txBitValid | .txFrame => true
  | _ => false

/-- The part a drive plays on the bus, and the byte it read ahead. -/
structure Part where
  listener : Bool
  talker : Bool
  lastWasOurListen : Bool
  lastWasOurTalk : Bool
  hasPending : Bool
  pendingByte : Byte
  pendingStatus : ℤ
  pendingChannel : Option (Fin 16)

namespace IecDrive
variable {δ : Type} [CbmSectorDisk δ]

omit [CbmSectorDisk δ] in
def part (d : IecDrive δ) : Part where
  listener := d.listener
  talker := d.talker
  lastWasOurListen := d.lastWasOurListen
  lastWasOurTalk := d.lastWasOurTalk
  hasPending := d.hasPending
  pendingByte := d.pendingByte
  pendingStatus := d.pendingStatus
  pendingChannel := d.pendingChannel

/-- The open files and the part played stay, and no byte is set out. -/
structure Still (d d' : IecDrive δ) : Prop where
  dos : CbmImageDos.Frame d.dos d'.dos
  part : d'.part = d.part
  talks : d'.st.talks = true → d.st.talks = true
  sends : d'.st.sends = true → d.st.sends = true ∧ d'.txByte = d.txByte

section Quiet
omit [CbmSectorDisk δ]

theorem Still.trans {d d' d'' : IecDrive δ} (h : Still d d') (h' : Still d' d'') :
    Still d d'' where
  dos := h.dos.trans h'.dos
  part := h'.part.trans h.part
  talks := h.talks ∘ h'.talks
  sends := fun on =>
    ⟨(h.sends (h'.sends on).1).1, (h'.sends on).2.trans (h.sends (h'.sends on).1).2⟩

/-- A change of the lines, the clocks and the state alone. -/
theorem Still.of {d d' : IecDrive δ} (dos : d'.dos = d.dos) (part : d'.part = d.part)
    (txByte : d'.txByte = d.txByte) (talks : d'.st.talks = true → d.st.talks = true)
    (sends : d'.st.sends = true → d.st.sends = true) : Still d d' where
  dos := dos ▸ .refl _
  part := part
  talks := talks
  sends := fun on => ⟨sends on, txByte⟩

theorem still_sendBurst (d : IecDrive δ) : Still d d.sendBurst := by
  unfold sendBurst
  split
  · exact .of rfl rfl rfl id id
  · exact ⟨⟨rfl, rfl, rfl, rfl, rfl, id⟩, rfl, id, fun on => ⟨on, rfl⟩⟩

/-- A change of the DOS that leaves the files. -/
theorem still_dos (d : IecDrive δ) {dos : CbmImageDos δ} (frame : CbmImageDos.Frame d.dos dos) :
    Still d { d with dos := dos } := ⟨frame, rfl, id, fun on => ⟨on, rfl⟩⟩

/-- Leaving for a state in which the drive has nothing to send. -/
theorem still_enter (d : IecDrive δ) {st : St} (silent : st.talks = false)
    (none : st.sends = false) : Still d (d.enter st) := by
  refine .of rfl rfl rfl ?_ ?_
  · intro on
    exact absurd (silent.symm.trans on) Bool.false_ne_true
  · intro on
    exact absurd (none.symm.trans on) Bool.false_ne_true

end Quiet

theorem still_received (d : IecDrive δ) (b : Byte) : Still d (d.received b) := by
  unfold received
  split
  · exact still_dos d (CbmImageDos.frame_ciout d.dos b)
  · exact .of rfl rfl rfl id id

theorem still_fastByteFromHost (d : IecDrive δ) (b : Byte) : Still d (d.fastByteFromHost b) := by
  unfold fastByteFromHost
  split
  · exact .of rfl rfl rfl id id
  · split
    · have written := still_dos d (CbmImageDos.frame_burstWriteByte d.dos b)
      cases made : d.dos.burstWriteByte b with
      | mk complete dos =>
        rw [made] at written
        dsimp only
        split
        · exact written.trans (still_enter _ rfl rfl)
        · exact written.trans (.of rfl rfl rfl id id)
    · split
      · refine Still.trans ?_ (still_received _ b)
        exact .of rfl rfl rfl nofun nofun
      · exact .of rfl rfl rfl id id

/-- A byte is received under ATN, one is looked for, or one is waited to be taken. -/
def moves (d : IecDrive δ) : Bool :=
  (d.st = .rxFrameEnd && d.busClk && d.underAtn) || d.st = .txStart ||
    (d.st = .txFrame && d.busData)

theorem still_react {d : IecDrive δ} (quiet : d.moves = false) (clkRose : Bool) :
    Still d (d.react clkRose) := by
  unfold moves at quiet
  simp only [Bool.or_eq_false_iff, Bool.and_eq_false_iff, decide_eq_false_iff_not] at quiet
  obtain ⟨⟨command, offer⟩, taken⟩ := quiet
  -- what a state without the DOS does: lines, clocks and the next state
  have lines {d' : IecDrive δ} (dos : d'.dos = d.dos) (part : d'.part = d.part)
      (txByte : d'.txByte = d.txByte) (talks : d.st.talks = false → d'.st.talks = false)
      (sends : d.st.sends = false → d'.st.sends = false) : Still d d' := by
    refine .of dos part txByte ?_ ?_
    · intro on
      by_contra off
      simp [talks (Bool.not_eq_true _ ▸ off)] at on
    · intro on
      by_contra off
      simp [sends (Bool.not_eq_true _ ▸ off)] at on
  unfold react
  cases st : d.st with
  | rxFrameEnd =>
    dsimp only
    split
    next clk =>
      have under : d.underAtn = false := by
        rcases command with (other | idle) | under
        · exact absurd st other
        · simp [clk] at idle
        · exact under
      split
      next on => exact absurd (under.symm.trans on) Bool.false_ne_true
      · refine Still.trans ?_ (still_received _ _)
        exact .of rfl rfl rfl nofun nofun
    · exact lines rfl rfl rfl id id
  | txStart => exact absurd st offer
  | txFrame =>
    have waiting : d.busData = false := taken.resolve_left (not_not.mpr st)
    dsimp only
    rw [if_neg (by simp [waiting])]
    split
    · exact lines rfl rfl rfl (fun _ => rfl) (fun _ => rfl)
    · exact lines rfl rfl rfl id id
  | burstOut =>
    dsimp only
    split
    · refine Still.trans ?_ (still_sendBurst _)
      exact lines rfl rfl rfl (fun _ => rfl) (fun _ => rfl)
    · exact lines rfl rfl rfl id id
  | burstStatus =>
    dsimp only
    split
    · refine Still.trans ?_ (still_enter _ rfl rfl)
      refine Still.trans ?_ (still_sendBurst _)
      exact ⟨CbmImageDos.frame_burstFinishSector d.dos, rfl, nofun, nofun⟩
    · exact lines rfl rfl rfl id id
  | _ =>
    dsimp only
    repeat' split
    all_goals
      exact lines rfl rfl rfl (by simp [enter, startBurstSector, toHost, st, St.talks])
        (by simp [enter, startBurstSector, toHost, sendFast, st, St.sends])

theorem react_command {d : IecDrive δ} (st : d.st = .rxFrameEnd) (clk : d.busClk = true)
    (under : d.underAtn = true) (clkRose : Bool) :
    d.react clkRose = ({ d with dData := true }.enter .rxWaitReady).command d.byte := by
  unfold react
  dsimp only
  split
  case h_7 =>
    rw [if_pos clk]
    exact if_pos under
  all_goals
    next other => cases st.symm.trans other

theorem react_start {d : IecDrive δ} (st : d.st = .txStart) (clkRose : Bool) :
    d.react clkRose = { d with dClk := true, dData := false } ∨
      d.react clkRose = ({ d with dClk := true, dData := false } : IecDrive δ).offer := by
  unfold react
  dsimp only
  split
  case h_14 =>
    split
    · exact .inr rfl
    · exact .inl rfl
  all_goals
    next other => cases st.symm.trans other

/-- The listener takes the byte, which is then no longer kept. -/
theorem react_taken {d : IecDrive δ} (st : d.st = .txFrame) (taken : d.busData = true)
    (clkRose : Bool) :
    (d.react clkRose).dos = d.dos ∧
      (d.react clkRose).part = { d.part with hasPending := false } ∧
      (d.react clkRose).st.sends = false := by
  unfold react
  dsimp only
  split
  case h_20 =>
    rw [if_pos taken]
    split
    · exact ⟨rfl, rfl, rfl⟩
    · exact ⟨rfl, rfl, rfl⟩
  all_goals
    next other => cases st.symm.trans other

omit [CbmSectorDisk δ] in
theorem still_atnStart (d : IecDrive δ) : Still d d.atnStart := by
  refine ⟨?_, rfl, nofun, nofun⟩
  exact ⟨rfl, rfl, rfl, rfl, rfl, id⟩

omit [CbmSectorDisk δ] in
/-- When ATN is released only a talker gets the bus. -/
theorem resume_keeps (d : IecDrive δ) :
    d.resume.dos = d.dos ∧ d.resume.part = d.part ∧ d.resume.st.sends = false ∧
      (d.resume.st.talks = true → d.talker = true) := by
  unfold resume
  split
  · exact ⟨rfl, rfl, rfl, nofun⟩
  · split
    next on => exact ⟨rfl, rfl, rfl, fun _ => on⟩
    · split
      · exact ⟨rfl, rfl, rfl, nofun⟩
      · exact ⟨rfl, rfl, rfl, nofun⟩

/-- A fastload is served when one was asked for. -/
theorem serveFastload_cases (d : IecDrive δ) :
    ((d.fastToHost && d.dos.fastloadPending) = false ∧ Still d d.serveFastload) ∨
    ((d.fastToHost && d.dos.fastloadPending) = true ∧ ∃ name dos,
      CbmImageDos.Frame d.dos dos ∧ d.serveFastload = { d with dos := fastload dos name }) := by
  have frame := CbmImageDos.frame_takeFastload d.dos
  unfold serveFastload
  unfold CbmImageDos.takeFastload at frame ⊢
  cases fast : d.fastToHost with
  | false => exact .inl ⟨rfl, .of rfl rfl rfl id id⟩
  | true =>
    cases pending : d.dos.fastloadPending with
    | false => exact .inl ⟨rfl, .of rfl rfl rfl id id⟩
    | true =>
      rw [pending] at frame
      exact .inr ⟨rfl, _, _, frame, rfl⟩

/-! ## The commands under ATN -/

section Commands
variable {d : IecDrive δ} {b : Byte}

theorem command_listen (range : 0x20 ≤ b ∧ b ≤ 0x3E) (silent : d.talker = false)
    (ours : (b &&& 0x1F).toNat = d.dos.unit) :
    d.command b = { d with
      lastWasOurListen := true, lastWasOurTalk := false, listener := true
      dos := { d.dos with listening := true, active := true } } := by
  unfold command
  dsimp only
  rw [if_pos range]
  rw [listen_ours ours]
  generalize (b &&& 0x1F).toNat = device at ours
  subst ours
  simp [silent]

theorem command_talk (range : 0x40 ≤ b ∧ b ≤ 0x5E) (ours : (b &&& 0x1F).toNat = d.dos.unit) :
    d.command b = { d with
      lastWasOurListen := false, lastWasOurTalk := true, talker := true
      dos := { d.dos with talking := true, active := true } } := by
  unfold command
  dsimp only
  rw [if_neg (by bv_omega), if_neg (by bv_omega), if_pos range]
  rw [talk_ours ours]
  generalize (b &&& 0x1F).toNat = device at ours
  subst ours
  simp

/-- A drive that was told nothing lets other commands pass. -/
theorem still_command (listener : d.listener = false) (talker : d.talker = false)
    (listen : d.lastWasOurListen = false) (talk : d.lastWasOurTalk = false)
    (other : (0x20 ≤ b ∧ b ≤ 0x3E) ∨ (0x40 ≤ b ∧ b ≤ 0x5E) → (b &&& 0x1F).toNat ≠ d.dos.unit) :
    Still d (d.command b) := by
  have same {l t : Bool} (l_eq : l = false) (t_eq : t = false) :
      Still d { d with lastWasOurListen := l, lastWasOurTalk := t } := by
    subst l_eq t_eq
    refine .of rfl ?_ rfl id id
    unfold part
    rw [listen, talk]
  unfold command
  dsimp only
  split
  next range =>
    have foreign := decide_eq_false (other (.inl range))
    simp only [foreign, Bool.false_eq_true, if_false, Bool.and_false]
    exact same rfl rfl
  · split
    · rw [listener]
      exact same rfl rfl
    · split
      next range =>
        have foreign := decide_eq_false (other (.inr range))
        rw [foreign, if_neg Bool.false_ne_true, if_neg (Bool.eq_false_iff.mp talker)]
        exact same rfl rfl
      · split
        · rw [talker]
          exact same rfl rfl
        · rw [listen, talk]
          split <;> exact .of rfl rfl rfl id id

theorem command_tksa (range : 0x60 ≤ b) (listen : d.lastWasOurListen = false)
    (talk : d.lastWasOurTalk = true) :
    d.command b = { d with
      hasPending := d.hasPending && (some (channelOf b) = d.pendingChannel : Bool)
      pendingChannel := some (channelOf b), dos := (d.dos.tksa b).2 } := by
  unfold command
  dsimp only
  rw [if_neg (by bv_omega), if_neg (by bv_omega), if_neg (by bv_omega), if_neg (by bv_omega),
    if_pos range, if_neg (by simp [listen]), if_pos talk]
  by_cases same : some (channelOf b) = d.pendingChannel
  · simp [same]
  · simp [same]

theorem command_second (range : 0x60 ≤ b) (listen : d.lastWasOurListen = true) :
    d.command b = { d with dos := (d.dos.second b).2, hasPending := false } := by
  unfold command
  dsimp only
  rw [if_neg (by bv_omega), if_neg (by bv_omega), if_neg (by bv_omega), if_neg (by bv_omega),
    if_pos range, if_pos listen]

theorem command_untalk :
    d.command 0x5F = { d with
      dos := if d.talker then (d.dos.untlk).2 else d.dos
      talker := false, lastWasOurListen := false, lastWasOurTalk := false } := by
  unfold command
  dsimp only
  rw [if_neg (by decide), if_neg (by decide), if_neg (by decide), if_pos rfl]
  cases on : d.talker <;> simp [on]

theorem command_unlisten :
    d.command 0x3F = { d with
      dos := if d.listener then (d.dos.unlsn).2 else d.dos
      listener := false, lastWasOurListen := false, lastWasOurTalk := false } := by
  unfold command
  dsimp only
  rw [if_neg (by decide), if_pos rfl]
  cases on : d.listener <;> simp [on]

end Commands

end IecDrive

end Mmemu.Source.IecBus
