import Mmemu.Library.Runs
import Mmemu.Source.IecDriveFrame

/-!
# The channels of an IEC drive

A computer that speaks in whole sequences, TALK to UNTALK and LISTEN to UNLISTEN, takes from
each channel the bytes of its file in order, as long as no secondary address for another
channel arrives while the drive holds a byte it read ahead.
-/
namespace Mmemu.Guarantees.IecChannels
open Mmemu.Library.GuardedRun
open Mmemu.Source.CbmDos
open Mmemu.Source.IecBus

inductive BusEvent where
  | lines (atn clk data : Bool)
  | tick (cycles : ℕ)
  | fastByte (b : Byte)
  deriving DecidableEq, Repr

/-- How far the computer is in what it tells the drive. -/
inductive Dialogue where
  | free
  | talk
  | talking (k : Fin 16)
  | listen
  | listening
  deriving DecidableEq, Repr

/-- A file opened on a channel, and the bytes of it the computer acknowledged. -/
structure Reading where
  file : Bytes
  taken : Bytes
  deriving DecidableEq, Repr

section Sessions
variable {δ : Type} [CbmSectorDisk δ]

structure Session (δ : Type) where
  drive : IecDrive δ
  dialogue : Dialogue
  readings : Fin 16 → Reading

/-- The command byte the drive takes now. -/
def commandByte (d : IecDrive δ) : Option Byte :=
  if d.st = .rxFrameEnd ∧ d.busClk ∧ d.underAtn then some d.byte else none

/-- The listener takes the byte that was sent. -/
def acknowledged (d : IecDrive δ) : Bool := d.st = .txFrame && d.busData

def Dialogue.next (unit : ℕ) (b : Byte) : Dialogue → Dialogue
  | .free =>
    if (0x20 ≤ b ∧ b ≤ 0x3E) ∧ (b &&& 0x1F).toNat = unit then .listen
    else if (0x40 ≤ b ∧ b ≤ 0x5E) ∧ (b &&& 0x1F).toNat = unit then .talk
    else .free
  | .talk => .talking (channelOf b)
  | .talking _ => .free
  | .listen => .listening
  | .listening => .free

/-- The next command of a whole sequence. A channel open for reading is listened to only to
close it. -/
def Dialogue.Allows (d : IecDrive δ) (b : Byte) : Dialogue → Prop
  | .free => True
  | .talk => 0x60 ≤ b
  | .talking _ => b = 0x5F
  | .listen => 0x60 ≤ b ∧ (b &&& 0xF0 = 0xE0 ∨ d.dos.files (channelOf b) = none)
  | .listening => b = 0x3F

/-- The channel that an UNLISTEN opens. -/
def openedBy (d : IecDrive δ) (b : Byte) : Option (Fin 16) :=
  if b = 0x3F ∧ d.listener ∧ d.dos.listening ∧ d.dos.opening then some d.dos.channel else none

/-- A burst fastload takes channel 0 when ATN is released. -/
def fastloads (d : IecDrive δ) : Bool :=
  d.prevAtn && !d.cAtn && d.fastToHost && d.dos.fastloadPending

namespace Session

def followAtn (s : Session δ) : Session δ where
  drive := s.drive.followAtn
  dialogue := s.dialogue
  readings := if fastloads s.drive then Function.update s.readings 0 ⟨[], []⟩ else s.readings

/-- What the computer has read of channel `k` once it took the byte sent. -/
def accepted (s : Session δ) (k : Fin 16) : Fin 16 → Reading :=
  if (s.drive.dos.files k).isSome then
    Function.update s.readings k
      { s.readings k with taken := (s.readings k).taken ++ [s.drive.txByte] }
  else s.readings

/-- What it has read once an UNLISTEN opened a channel and left the drive so. -/
def reopened (s : Session δ) (b : Byte) (d : IecDrive δ) : Fin 16 → Reading :=
  match openedBy s.drive b with
  | some k => Function.update s.readings k ⟨((d.dos.files k).map Prod.fst).getD [], []⟩
  | none => s.readings

/-- The drive reacts, and the computer with it. -/
def reactTo (s : Session δ) (clkRose : Bool) : Session δ :=
  let d' := s.drive.react clkRose
  match commandByte s.drive with
  | some b =>
    { drive := d'
      dialogue := s.dialogue.next s.drive.dos.unit b
      readings := s.reopened b d' }
  | none =>
    { drive := d'
      dialogue := s.dialogue
      readings :=
        if acknowledged s.drive then
          match s.dialogue with
          | .talking k => s.accepted k
          | _ => s.readings
        else s.readings }

def react (s : Session δ) : Session δ :=
  { s with drive := { s.drive with prevClk := s.drive.busClk } }.reactTo
    (s.drive.prevClk && !s.drive.busClk)

def setLines (s : Session δ) (atn clk data : Bool) : Session δ :=
  { s with drive := { s.drive with cAtn := atn, cClk := clk, cData := data } }

def advance (s : Session δ) (cycles : ℕ) : Session δ :=
  { s with drive := { s.drive with now := s.drive.now + cycles } }

/-- The state in which the drive looks at its lines. -/
def observed (s : Session δ) : BusEvent → Session δ
  | .lines atn clk data => s.setLines atn clk data
  | .tick cycles => s.advance cycles
  | .fastByte _ => s

def step (s : Session δ) (e : BusEvent) : Session δ :=
  match e with
  | .fastByte b => { s with drive := s.drive.fastByteFromHost b }
  | e => (s.observed e).followAtn.react

/-- A mounted drive before the computer says anything. -/
def start (us : ℕ → ℚ) (fastSerial : Bool) (dos : CbmImageDos δ) : Session δ where
  drive := .mounted us fastSerial dos
  dialogue := .free
  readings := fun k =>
    match dos.files k with
    | some (data, pos) => ⟨data, data.take pos⟩
    | none => ⟨[], []⟩

end Session

/-- The computer speaks in whole sequences and releases ATN between them. -/
def Orderly (s : Session δ) : BusEvent → Prop
  | .fastByte _ => True
  | e =>
    (∀ b ∈ commandByte (s.observed e).followAtn.drive,
      s.dialogue.Allows (s.observed e).followAtn.drive b) ∧
    (s.drive.prevAtn = true → (s.observed e).drive.cAtn = false →
      s.dialogue ≠ .talk ∧ s.dialogue ≠ .listen)

/-- A secondary address for another channel while a byte of an open file is held. -/
def Discards (d : IecDrive δ) (b : Byte) : Prop :=
  d.hasPending = true ∧ 0x60 ≤ b ∧ (d.lastWasOurListen = true ∨ d.lastWasOurTalk = true) ∧
    ∃ k ∈ d.pendingChannel, channelOf b ≠ k ∧ d.dos.files k ≠ none

def Keeps (s : Session δ) : BusEvent → Prop
  | .fastByte _ => True
  | e => ∀ b ∈ commandByte (s.observed e).followAtn.drive,
      ¬ Discards (s.observed e).followAtn.drive b

/-! ## What was read and what is still held -/

/-- The bytes taken and the byte held are what was read of the file that is open. -/
structure Reading.Follows (r : Reading) (file : Option (Bytes × ℕ)) (held : Bytes) : Prop where
  taken : r.taken <+: r.file
  read : ∀ data pos, file = some (data, pos) → r.file = data ∧ r.taken ++ held = data.take pos

namespace Reading.Follows
variable {r : Reading} {data : Bytes} {pos : ℕ} {b : Byte} {held : Bytes}

theorem closed {file : Option (Bytes × ℕ)} (h : r.Follows file held) (held' : Bytes) :
    r.Follows none held' := ⟨h.taken, nofun⟩

theorem opened (data : Bytes) : Follows ⟨data, []⟩ (some (data, 0)) [] := by
  refine ⟨List.nil_prefix, ?_⟩
  rintro _ _ ⟨⟩
  exact ⟨rfl, rfl⟩

theorem acknowledged (h : r.Follows (some (data, pos)) [b]) :
    Follows { r with taken := r.taken ++ [b] } (some (data, pos)) [] := by
  obtain ⟨file, read⟩ := h.read data pos rfl
  refine ⟨?_, ?_⟩
  · dsimp only
    rw [read, file]
    exact List.take_prefix pos data
  · rintro _ _ ⟨⟩
    exact ⟨file, (List.append_nil _).trans read⟩

theorem offered (h : r.Follows (some (data, pos)) []) (inside : pos < data.length) :
    r.Follows (some (data, pos + 1)) [data.getD pos 0] := by
  obtain ⟨file, read⟩ := h.read data pos rfl
  refine ⟨h.taken, ?_⟩
  rintro _ _ ⟨⟩
  refine ⟨file, ?_⟩
  rw [List.append_nil] at read
  rw [read, List.take_succ_eq_append_getElem inside, List.getD_eq_getElem?_getD,
    List.getElem?_eq_getElem inside, Option.getD_some]

end Reading.Follows

/-- The byte of a channel that the drive read ahead. -/
def held (d : IecDrive δ) (k : Fin 16) : Bytes :=
  if d.hasPending = true ∧ d.pendingChannel = some k then [d.pendingByte] else []

omit [CbmSectorDisk δ] in
theorem held_of_not {d : IecDrive δ} (none : d.hasPending = false) (k : Fin 16) :
    held d k = [] := by
  simp [held, none]

/-- The drive plays the part it was given. -/
def Told (d : IecDrive δ) : Dialogue → Prop
  | .free => d.listener = false ∧ d.talker = false ∧ d.lastWasOurListen = false ∧
      d.lastWasOurTalk = false
  | .talk => d.listener = false ∧ d.lastWasOurListen = false ∧ d.lastWasOurTalk = true
  | .talking k => d.listener = false ∧ d.pendingChannel = some k ∧
      (d.dos.talking = true → d.dos.channel = k)
  | .listen => d.talker = false ∧ d.lastWasOurListen = true ∧ d.dos.listening = true
  | .listening => d.talker = false ∧ d.hasPending = false

structure Inv (s : Session δ) : Prop where
  command : s.drive.dos.files 15 = none
  unit : s.drive.dos.unit ≤ 30
  reading : ∀ k, (s.readings k).Follows (s.drive.dos.files k) (held s.drive k)
  told : Told s.drive s.dialogue
  talks : s.drive.st.talks = true → ∃ k, s.dialogue = .talking k
  sends : s.drive.st.sends = true →
    s.drive.hasPending = true ∧ s.drive.txByte = s.drive.pendingByte
  pending : s.drive.hasPending = true →
    s.drive.pendingStatus ≠ -2 ∧ s.drive.pendingStatus ≠ 0x42

omit [CbmSectorDisk δ] in
theorem Told.same {d d' : IecDrive δ} (dos : CbmImageDos.Frame d.dos d'.dos)
    (part : d'.part = d.part) {dialogue : Dialogue} (h : Told d dialogue) : Told d' dialogue := by
  have listener : d'.listener = d.listener := congrArg Part.listener part
  have talker : d'.talker = d.talker := congrArg Part.talker part
  have listen : d'.lastWasOurListen = d.lastWasOurListen := congrArg Part.lastWasOurListen part
  have talk : d'.lastWasOurTalk = d.lastWasOurTalk := congrArg Part.lastWasOurTalk part
  have hasPending : d'.hasPending = d.hasPending := congrArg Part.hasPending part
  have channel : d'.pendingChannel = d.pendingChannel := congrArg Part.pendingChannel part
  cases dialogue with
  | free =>
    unfold Told at h ⊢
    rw [listener, talker, listen, talk]
    exact h
  | talk =>
    unfold Told at h ⊢
    rw [listener, listen, talk]
    exact h
  | talking k =>
    unfold Told at h ⊢
    rw [listener, channel, dos.talking, dos.channel]
    exact h
  | listen =>
    unfold Told at h ⊢
    rw [talker, listen, dos.listening]
    exact h
  | listening =>
    unfold Told at h ⊢
    rw [talker, hasPending]
    exact h

omit [CbmSectorDisk δ] in
theorem held_same {d d' : IecDrive δ} (part : d'.part = d.part) (k : Fin 16) :
    held d' k = held d k := by
  have hasPending : d'.hasPending = d.hasPending := congrArg Part.hasPending part
  have channel : d'.pendingChannel = d.pendingChannel := congrArg Part.pendingChannel part
  have byte : d'.pendingByte = d.pendingByte := congrArg Part.pendingByte part
  unfold held
  rw [hasPending, channel, byte]

omit [CbmSectorDisk δ] in
/-- The files and the part played are all the invariant is about. -/
theorem Inv.same {s : Session δ} (h : Inv s) {d : IecDrive δ}
    (dos : CbmImageDos.Frame s.drive.dos d.dos) (part : d.part = s.drive.part)
    (talks : d.st.talks = true → ∃ k, s.dialogue = .talking k)
    (sends : d.st.sends = true → s.drive.st.sends = true ∧ d.txByte = s.drive.txByte) :
    Inv { s with drive := d } where
  command := (congrFun dos.files 15).trans h.command
  unit := dos.unit h.unit
  reading := by
    intro k
    rw [held_same part k, dos.files]
    exact h.reading k
  told := h.told.same dos part
  talks := talks
  sends := by
    intro on
    obtain ⟨before, same⟩ := sends on
    obtain ⟨has, byte⟩ := h.sends before
    exact ⟨(congrArg Part.hasPending part).trans has,
      (same.trans byte).trans (congrArg Part.pendingByte part).symm⟩
  pending := by
    intro has
    have status : d.pendingStatus = s.drive.pendingStatus := congrArg Part.pendingStatus part
    rw [status]
    exact h.pending ((congrArg Part.hasPending part).symm.trans has)

omit [CbmSectorDisk δ] in
/-- A reaction that moves no byte. -/
theorem Inv.still {s : Session δ} (h : Inv s) {d : IecDrive δ} (still : IecDrive.Still s.drive d) :
    Inv { s with drive := d } :=
  h.same still.dos still.part (h.talks ∘ still.talks) still.sends

omit [CbmSectorDisk δ] in
/-- The byte kept is set out again. -/
theorem Inv.offer_again {s : Session δ} (h : Inv s) (st : s.drive.st = .txStart)
    (has : s.drive.hasPending = true) : Inv { s with drive := s.drive.offer } := by
  obtain ⟨first, second⟩ := h.pending has
  have again : s.drive.offer = { s.drive with
      txByte := s.drive.pendingByte
      txLast := s.drive.pendingStatus.toNat &&& 0x40 ≠ 0
      dClk := false
      hasPending := true }.enter .txWaitListener := by
    unfold IecDrive.offer
    rw [if_pos has]
    dsimp only
    rw [if_neg (not_or.mpr ⟨first, second⟩)]
  rw [again]
  have same : ∀ k, held s.drive k = held ({ s.drive with
      txByte := s.drive.pendingByte
      txLast := s.drive.pendingStatus.toNat &&& 0x40 ≠ 0
      dClk := false
      hasPending := true }.enter .txWaitListener) k := by
    intro k
    unfold held
    rw [has]
    rfl
  refine ⟨h.command, h.unit, fun k => same k ▸ h.reading k, ?_, ?_, ?_, fun _ => h.pending has⟩
  · obtain ⟨k, dialogue⟩ := h.talks (by rw [st]; rfl)
    have told := h.told
    dsimp only
    rw [dialogue] at told ⊢
    exact told
  · exact fun _ => h.talks (by rw [st]; rfl)
  · exact fun _ => ⟨rfl, rfl⟩

omit [CbmSectorDisk δ] in
/-- The next byte of the channel is read and set out. -/
theorem Inv.offer_next {s : Session δ} (h : Inv s) (st : s.drive.st = .txStart)
    (none : s.drive.hasPending = false) : Inv { s with drive := s.drive.offer } := by
  obtain ⟨k, dialogue⟩ := h.talks (by rw [st]; rfl)
  have told := h.told
  rw [dialogue] at told
  obtain ⟨listener, channel, speaks⟩ := told
  obtain ⟨talking, onChannel, -, sameUnit⟩ := s.drive.dos.acptr_keeps
  have cases := CbmImageDos.acptr_cases h.command
  have empty := held_of_not none
  have offered : s.drive.offer =
      if s.drive.dos.acptr.1 = -2 ∨ s.drive.dos.acptr.1 = 0x42 then
        { s.drive with dos := s.drive.dos.acptr.2.2, hasPending := false }.enter .silent
      else { s.drive with
        dos := s.drive.dos.acptr.2.2
        hasPending := true
        pendingByte := s.drive.dos.acptr.2.1
        pendingStatus := s.drive.dos.acptr.1
        txByte := s.drive.dos.acptr.2.1
        txLast := s.drive.dos.acptr.1.toNat &&& 0x40 ≠ 0
        dClk := false }.enter .txWaitListener := by
    unfold IecDrive.offer
    rw [none]
    rfl
  rw [offered]
  generalize s.drive.dos.acptr = read at *
  obtain ⟨status, b, dos⟩ := read
  dsimp only at *
  have command : dos.files 15 = .none := by
    rcases cases with ⟨files, -⟩ | ⟨data, pos, -, -, file, -, -, files⟩
    · exact (congrFun files 15).trans h.command
    · rw [files, Function.update_of_ne, h.command]
      intro same
      rw [← same, h.command] at file
      cases file
  have part : dos.talking = true → dos.channel = k :=
    fun on => onChannel.trans (speaks (talking.symm.trans on))
  split
  next bad =>
    have files : dos.files = s.drive.dos.files := by
      rcases cases with ⟨files, -⟩ | ⟨data, pos, good, -⟩
      · exact files
      · exact absurd bad good
    refine ⟨command, le_of_eq_of_le sameUnit h.unit, ?_, ?_, nofun, nofun, nofun⟩
    · intro j
      have reading := h.reading j
      rw [empty j, ← files] at reading
      exact reading
    · dsimp only
      rw [dialogue]
      exact ⟨listener, channel, part⟩
  next good =>
    refine ⟨command, le_of_eq_of_le sameUnit h.unit, ?_, ?_, ?_, fun _ => ⟨rfl, rfl⟩,
      fun _ => not_or.mp good⟩
    · intro j
      have reading := h.reading j
      rw [empty j] at reading
      rcases cases with ⟨files, none⟩ | ⟨data, pos, -, on, file, inside, byte, files⟩
      · obtain ⟨on, file⟩ :=
          (none.resolve_left (not_or.mp good).1).resolve_left (not_or.mp good).2
        rw [speaks on] at file
        dsimp only [IecDrive.enter]
        rw [files]
        by_cases same : j = k
        · subst same
          rw [file]
          exact reading.closed _
        · rw [held, if_neg]
          · exact reading
          · rintro ⟨-, there⟩
            exact same (Option.some.inj (channel.symm.trans there)).symm
      · have ours := speaks on
        rw [ours] at file files
        dsimp only [IecDrive.enter]
        rw [files, byte]
        by_cases same : j = k
        · subst same
          rw [file] at reading
          rw [Function.update_self, held, if_pos ⟨rfl, channel⟩]
          exact reading.offered inside
        · rw [Function.update_of_ne same, held, if_neg]
          · exact reading
          · rintro ⟨-, there⟩
            exact same (Option.some.inj (channel.symm.trans there)).symm
    · dsimp only
      rw [dialogue]
      exact ⟨listener, channel, part⟩
    · exact fun _ => ⟨k, dialogue⟩

omit [CbmSectorDisk δ] in
/-- The listener takes the byte, and the drive no longer keeps it. -/
theorem Inv.acknowledge {s : Session δ} (h : Inv s) (st : s.drive.st = .txFrame) {k : Fin 16}
    (dialogue : s.dialogue = .talking k) {d : IecDrive δ} (dos : d.dos = s.drive.dos)
    (part : d.part = { s.drive.part with hasPending := false }) (sends : d.st.sends = false) :
    Inv ⟨d, s.dialogue, s.accepted k⟩ := by
  obtain ⟨has, sent⟩ := h.sends (by rw [st]; rfl)
  have told := h.told
  rw [dialogue] at told
  obtain ⟨listener, channel, speaks⟩ := told
  have empty : d.hasPending = false := congrArg Part.hasPending part
  refine ⟨?_, ?_, ?_, ?_, ?_, ?_, ?_⟩
  · exact dos ▸ h.command
  · exact dos ▸ h.unit
  · intro j
    dsimp only
    rw [held_of_not empty, dos]
    have reading := h.reading j
    by_cases same : j = k
    · subst same
      have held : held s.drive j = [s.drive.txByte] := by
        rw [IecChannels.held, if_pos ⟨has, channel⟩, sent]
      unfold Session.accepted
      cases file : s.drive.dos.files j with
      | none =>
        rw [file] at reading
        simp only [Option.isSome_none, Bool.false_eq_true, if_false]
        exact reading.closed []
      | some read =>
        rw [file, held] at reading
        simp only [Option.isSome_some, if_true, Function.update_self]
        exact reading.acknowledged
    · have kept : s.accepted k j = s.readings j := by
        unfold Session.accepted
        split
        · exact Function.update_of_ne same _ _
        · rfl
      have none : held s.drive j = [] := by
        rw [held, if_neg]
        rintro ⟨-, there⟩
        exact same (Option.some.inj (channel.symm.trans there)).symm
      rw [kept, ← none]
      exact reading
  · dsimp only
    rw [dialogue]
    refine ⟨?_, ?_, ?_⟩
    · exact (congrArg Part.listener part).trans listener
    · exact (congrArg Part.pendingChannel part).trans channel
    · exact dos ▸ speaks
  · exact fun _ => ⟨k, dialogue⟩
  · exact fun on => absurd (sends.symm.trans on) Bool.false_ne_true
  · exact fun on => absurd (empty.symm.trans on) Bool.false_ne_true

/-! ## What the commands do to it -/

omit [CbmSectorDisk δ] in
/-- A command byte that changes what the files hold at most by closing them. -/
theorem Inv.told_command {s : Session δ} (h : Inv s) {d : IecDrive δ} {dialogue : Dialogue}
    (silent : d.st.talks = false ∧ d.st.sends = false) (told : Told d dialogue)
    (unit : d.dos.unit ≤ 30)
    (files : ∀ k data pos, d.dos.files k = some (data, pos) →
      s.drive.dos.files k = some (data, pos) ∧ held d k = held s.drive k)
    (pending : d.hasPending = true → s.drive.hasPending = true ∧
      d.pendingStatus = s.drive.pendingStatus) :
    Inv ⟨d, dialogue, s.readings⟩ := by
  refine ⟨?_, unit, ?_, told, ?_, ?_, ?_⟩
  · dsimp only
    cases file : d.dos.files 15 with
    | none => rfl
    | some read =>
      obtain ⟨old, -⟩ := files 15 read.1 read.2 file
      rw [h.command] at old
      cases old
  · intro k
    dsimp only
    cases file : d.dos.files k with
    | none => exact (h.reading k).closed _
    | some read =>
      obtain ⟨old, held⟩ := files k read.1 read.2 file
      rw [held, ← old]
      exact h.reading k
  · exact fun on => absurd (silent.1.symm.trans on) Bool.false_ne_true
  · exact fun on => absurd (silent.2.symm.trans on) Bool.false_ne_true
  · intro has
    obtain ⟨before, status⟩ := pending has
    dsimp only
    rw [status]
    exact h.pending before

omit [CbmSectorDisk δ] in
theorem reopened_eq {s : Session δ} {b : Byte} (d : IecDrive δ)
    (h : b ≠ 0x3F ∨ s.drive.listener = false) : s.reopened b d = s.readings := by
  unfold Session.reopened openedBy
  rw [if_neg]
  rintro ⟨unlisten, listener, -⟩
  rcases h with other | off
  · exact other unlisten
  · exact absurd (off.symm.trans listener) Bool.false_ne_true

theorem Inv.command_free {s : Session δ} (h : Inv s)
    (silent : s.drive.st.talks = false ∧ s.drive.st.sends = false) (dialogue : s.dialogue = .free)
    (b : Byte) :
    Inv ⟨s.drive.command b, Dialogue.free.next s.drive.dos.unit b, s.readings⟩ := by
  have told := h.told
  rw [dialogue] at told
  obtain ⟨listener, talker, listen, talk⟩ := told
  unfold Dialogue.next
  by_cases listening : (0x20 ≤ b ∧ b ≤ 0x3E) ∧ (b &&& 0x1F).toNat = s.drive.dos.unit
  · rw [if_pos listening, IecDrive.command_listen listening.1 talker listening.2]
    refine h.told_command silent ⟨talker, rfl, rfl⟩ h.unit ?_ ?_
    · exact fun _ _ _ file => ⟨file, rfl⟩
    · exact fun has => ⟨has, rfl⟩
  · rw [if_neg listening]
    by_cases talking : (0x40 ≤ b ∧ b ≤ 0x5E) ∧ (b &&& 0x1F).toNat = s.drive.dos.unit
    · rw [if_pos talking, IecDrive.command_talk talking.1 talking.2]
      refine h.told_command silent ⟨listener, rfl, rfl⟩ h.unit ?_ ?_
      · exact fun _ _ _ file => ⟨file, rfl⟩
      · exact fun has => ⟨has, rfl⟩
    · have foreign : (0x20 ≤ b ∧ b ≤ 0x3E) ∨ (0x40 ≤ b ∧ b ≤ 0x5E) →
          (b &&& 0x1F).toNat ≠ s.drive.dos.unit := by
        rintro (range | range) ours
        · exact listening ⟨range, ours⟩
        · exact talking ⟨range, ours⟩
      have passed := h.still (IecDrive.still_command listener talker listen talk foreign)
      rw [dialogue] at passed
      rw [if_neg talking]
      exact passed

omit [CbmSectorDisk δ] in
/-- A byte that is not discarded belongs to the channel that is addressed. -/
theorem channelOf_eq_of_keeps {d : IecDrive δ} {b : Byte} (keeps : ¬ Discards d b)
    (range : 0x60 ≤ b) (told : d.lastWasOurListen = true ∨ d.lastWasOurTalk = true) {k : Fin 16}
    (open_ : d.dos.files k ≠ none) (has : d.hasPending = true) (of : d.pendingChannel = some k) :
    channelOf b = k := by
  by_contra other
  exact keeps ⟨has, range, told, k, of, other, open_⟩

/-- A secondary address after TALK: the byte kept stays for the channel it was read of. -/
theorem Inv.command_talk {s : Session δ} (h : Inv s)
    (silent : s.drive.st.talks = false ∧ s.drive.st.sends = false) (dialogue : s.dialogue = .talk)
    {b : Byte} (range : 0x60 ≤ b) (keeps : ¬ Discards s.drive b) :
    Inv ⟨s.drive.command b, .talking (channelOf b), s.readings⟩ := by
  have told := h.told
  rw [dialogue] at told
  obtain ⟨listener, listen, talk⟩ := told
  rw [IecDrive.command_tksa range listen talk]
  refine h.told_command silent ⟨listener, rfl, CbmImageDos.channel_tksa⟩ ?_ ?_ ?_
  · have unit : (s.drive.dos.tksa b).2.unit = s.drive.dos.unit := by
      unfold CbmImageDos.tksa
      split <;> rfl
    exact le_of_eq_of_le unit h.unit
  · intro k data pos file
    have old : s.drive.dos.files k = some (data, pos) :=
      (congrFun (CbmImageDos.files_tksa s.drive.dos b) k).symm.trans file
    refine ⟨old, ?_⟩
    unfold held
    dsimp only
    by_cases ours : s.drive.hasPending = true ∧ s.drive.pendingChannel = some k
    · have same : channelOf b = k :=
        channelOf_eq_of_keeps keeps range (.inr talk) (by rw [old]; nofun) ours.1 ours.2
      rw [if_pos ours, if_pos]
      rw [ours.1, ours.2, same]
      exact ⟨by simp, rfl⟩
    · rw [if_neg ours, if_neg]
      rintro ⟨has, same⟩
      simp only [Bool.and_eq_true, decide_eq_true_eq] at has
      exact ours ⟨has.1, has.2.symm.trans same⟩
  · intro has
    exact ⟨(Bool.and_eq_true_iff.mp has).1, rfl⟩

/-- A secondary address after LISTEN: only a channel that is closed loses its byte. -/
theorem Inv.command_listen {s : Session δ} (h : Inv s)
    (silent : s.drive.st.talks = false ∧ s.drive.st.sends = false) (dialogue : s.dialogue = .listen)
    {b : Byte} (allowed : s.dialogue.Allows s.drive b) (keeps : ¬ Discards s.drive b) :
    Inv ⟨s.drive.command b, .listening, s.readings⟩ := by
  have told := h.told
  rw [dialogue] at told allowed
  obtain ⟨talker, listen, listening⟩ := told
  obtain ⟨range, closes⟩ := allowed
  rw [IecDrive.command_second range listen]
  refine h.told_command silent ⟨talker, rfl⟩ ?_ ?_ nofun
  · exact le_of_eq_of_le (IecDrive.unit_second s.drive.dos b) h.unit
  · intro k data pos file
    obtain ⟨old, stays⟩ := CbmImageDos.files_second s.drive.dos b k data pos file
    refine ⟨old, ?_⟩
    have none : held s.drive k = [] := by
      rw [held, if_neg]
      rintro ⟨has, of⟩
      have same : channelOf b = k :=
        channelOf_eq_of_keeps keeps range (.inl listen) (by rw [old]; nofun) has of
      rcases closes with close | closed
      · exact stays close listening same
      · rw [same, old] at closed
        cases closed
    rw [none]
    exact held_of_not rfl k

theorem Inv.command_talking {s : Session δ} (h : Inv s)
    (silent : s.drive.st.talks = false ∧ s.drive.st.sends = false) {k : Fin 16}
    (dialogue : s.dialogue = .talking k) : Inv ⟨s.drive.command 0x5F, .free, s.readings⟩ := by
  have told := h.told
  rw [dialogue] at told
  obtain ⟨listener, -, -⟩ := told
  rw [IecDrive.command_untalk]
  have same : (if s.drive.talker = true then (s.drive.dos.untlk).2 else s.drive.dos).files =
      s.drive.dos.files ∧
      (if s.drive.talker = true then (s.drive.dos.untlk).2 else s.drive.dos).unit =
        s.drive.dos.unit := by
    split
    · obtain ⟨files, -, -, unit⟩ := IecDrive.untlk_eq s.drive.dos
      exact ⟨files, unit⟩
    · exact ⟨rfl, rfl⟩
  refine h.told_command silent ⟨listener, rfl, rfl, rfl⟩ (le_of_eq_of_le same.2 h.unit) ?_ ?_
  · intro j data pos file
    exact ⟨(congrFun same.1 j).symm.trans file, rfl⟩
  · exact fun has => ⟨has, rfl⟩

/-- An UNLISTEN opens the channel that was named, and reading it begins. -/
theorem Inv.command_listening {s : Session δ} (h : Inv s)
    (silent : s.drive.st.talks = false ∧ s.drive.st.sends = false)
    (dialogue : s.dialogue = .listening) :
    Inv ⟨s.drive.command 0x3F, .free, s.reopened 0x3F (s.drive.command 0x3F)⟩ := by
  have told := h.told
  rw [dialogue] at told
  obtain ⟨talker, none⟩ := told
  rw [IecDrive.command_unlisten]
  by_cases opens : s.drive.listener = true ∧ s.drive.dos.listening = true ∧
      s.drive.dos.opening = true
  · obtain ⟨listener, listening, opening⟩ := opens
    have opened := CbmImageDos.opened_openChannel { s.drive.dos with
      listening := false, active := false, opening := false } s.drive.dos.channel s.drive.dos.name
    rw [← IecDrive.unlsn_open listening opening] at opened
    obtain ⟨f, files, start⟩ := opened.files
    have by_ : openedBy s.drive 0x3F = some s.drive.dos.channel := by
      unfold openedBy
      rw [if_pos ⟨rfl, listener, listening, opening⟩]
    unfold Session.reopened
    rw [by_, if_pos listener]
    refine ⟨?_, opened.unit h.unit, ?_, ⟨rfl, talker, rfl, rfl⟩, ?_, ?_, ?_⟩
    · dsimp only
      rw [files]
      by_cases same : 15 = s.drive.dos.channel
      · rw [← same, Function.update_self]
        cases file : f with
        | none => rfl
        | some read => exact absurd same.symm (start read.1 read.2 file).1
      · rw [Function.update_of_ne same]
        exact h.command
    · intro k
      unfold held
      dsimp only
      rw [if_neg (by simp [none]), files]
      by_cases same : k = s.drive.dos.channel
      · rw [same, Function.update_self, Function.update_self]
        cases file : f with
        | none => exact ⟨List.nil_prefix, nofun⟩
        | some read =>
          obtain ⟨data, pos⟩ := read
          rw [(start data pos file).2]
          exact Reading.Follows.opened data
      · rw [Function.update_of_ne same, Function.update_of_ne same]
        have reading := h.reading k
        rw [held_of_not none] at reading
        exact reading
    · exact fun on => absurd (silent.1.symm.trans on) Bool.false_ne_true
    · exact fun on => absurd (silent.2.symm.trans on) Bool.false_ne_true
    · exact fun on => absurd (none.symm.trans on) Bool.false_ne_true
  · have by_ : openedBy s.drive 0x3F = .none := by
      unfold openedBy
      rw [if_neg]
      rintro ⟨-, yes⟩
      exact opens yes
    have same : (if s.drive.listener = true then (s.drive.dos.unlsn).2 else s.drive.dos).files =
        s.drive.dos.files ∧
        (if s.drive.listener = true then (s.drive.dos.unlsn).2 else s.drive.dos).unit ≤ 30 := by
      split
      next listener =>
        obtain ⟨files, unit⟩ := IecDrive.unlsn_else (fun both => opens ⟨listener, both⟩)
        exact ⟨files, unit h.unit⟩
      · exact ⟨rfl, h.unit⟩
    unfold Session.reopened
    rw [by_]
    refine h.told_command silent ⟨rfl, talker, rfl, rfl⟩ same.2 ?_ ?_
    · intro j data pos file
      exact ⟨(congrFun same.1 j).symm.trans file, rfl⟩
    · exact fun has => ⟨has, rfl⟩

/-- Every command byte of a whole sequence keeps the invariant. -/
theorem Inv.command_step {s : Session δ} (h : Inv s)
    (silent : s.drive.st.talks = false ∧ s.drive.st.sends = false) {b : Byte}
    (allowed : s.dialogue.Allows s.drive b) (keeps : ¬ Discards s.drive b) :
    Inv ⟨s.drive.command b, s.dialogue.next s.drive.dos.unit b,
      s.reopened b (s.drive.command b)⟩ := by
  have told := h.told
  cases dialogue : s.dialogue with
  | free =>
    rw [dialogue] at told
    rw [reopened_eq _ (.inr told.1)]
    exact h.command_free silent dialogue b
  | talk =>
    rw [dialogue] at told
    rw [reopened_eq _ (.inr told.1)]
    rw [dialogue] at allowed
    exact h.command_talk silent dialogue allowed keeps
  | talking k =>
    rw [dialogue] at told allowed
    rw [reopened_eq _ (.inr told.1), show b = 0x5F from allowed]
    exact h.command_talking silent dialogue
  | listen =>
    have range : 0x60 ≤ b := by
      rw [dialogue] at allowed
      exact allowed.1
    rw [reopened_eq _ (.inl (by bv_omega))]
    exact h.command_listen silent dialogue allowed keeps
  | listening =>
    rw [dialogue] at allowed
    rw [show b = 0x3F from allowed]
    exact h.command_listening silent dialogue

/-! ## The edges of ATN -/

/-- A burst fastload uses up channel 0 and lets nobody talk. -/
theorem Inv.fastload {s : Session δ} (h : Inv s) (dialogue : s.dialogue ≠ .listen)
    {dos : CbmImageDos δ} (frame : CbmImageDos.Frame s.drive.dos dos) (name : Bytes) :
    Inv ⟨{ s.drive with dos := IecDrive.fastload dos name }, s.dialogue,
      Function.update s.readings 0 ⟨[], []⟩⟩ := by
  obtain ⟨files, silent, -, unit⟩ := IecDrive.fastload_frame (frame.unit h.unit) name
  refine ⟨?_, unit, ?_, ?_, h.talks, h.sends, h.pending⟩
  · dsimp only
    rw [files, frame.files, Function.update_of_ne (by decide)]
    exact h.command
  · intro k
    dsimp only
    rw [files, frame.files]
    by_cases zero : k = 0
    · rw [zero, Function.update_self, Function.update_self]
      exact ⟨List.nil_prefix, nofun⟩
    · rw [Function.update_of_ne zero, Function.update_of_ne zero]
      exact h.reading k
  · have told := h.told
    cases now : s.dialogue with
    | listen => exact absurd now dialogue
    | talking k =>
      rw [now] at told
      exact ⟨told.1, told.2.1, fun on => absurd (silent.symm.trans on) Bool.false_ne_true⟩
    | free | talk | listening =>
      rw [now] at told
      exact told

omit [CbmSectorDisk δ] in
theorem Inv.resume {s : Session δ} (h : Inv s) (dialogue : s.dialogue ≠ .talk) :
    Inv { s with drive := s.drive.resume } := by
  obtain ⟨dos, part, sends, talks⟩ := s.drive.resume_keeps
  refine h.same (dos ▸ .refl _) part ?_ ?_
  · intro on
    have talker := talks on
    have told := h.told
    cases now : s.dialogue with
    | talk => exact absurd now dialogue
    | talking k => exact ⟨k, rfl⟩
    | free =>
      rw [now] at told
      exact absurd (told.2.1.symm.trans talker) Bool.false_ne_true
    | listen | listening =>
      rw [now] at told
      exact absurd (told.1.symm.trans talker) Bool.false_ne_true
  · exact fun on => absurd (sends.symm.trans on) Bool.false_ne_true

theorem Inv.followAtn {s : Session δ} (h : Inv s)
    (released : s.drive.prevAtn = true → s.drive.cAtn = false →
      s.dialogue ≠ .talk ∧ s.dialogue ≠ .listen) : Inv s.followAtn := by
  have kept (b : Bool) (same : b = false) {d : IecDrive δ} (still : IecDrive.Still s.drive d) :
      Inv ⟨d, s.dialogue,
        if b = true then Function.update s.readings 0 ⟨[], []⟩ else s.readings⟩ := by
    rw [same]
    exact h.still still
  unfold Session.followAtn IecDrive.followAtn
  split
  next edge =>
    dsimp only
    split
    next asserted =>
      refine kept _ (by simp [fastloads, asserted]) ?_
      refine IecDrive.Still.trans ?_ (IecDrive.still_atnStart _)
      exact .of rfl rfl rfl id id
    next low =>
      have off : s.drive.cAtn = false := Bool.eq_false_iff.mpr low
      have was : s.drive.prevAtn = true := by
        rw [off] at edge
        exact (Bool.eq_true_of_not_eq_false (Ne.symm edge))
      obtain ⟨talk, listen⟩ := released was off
      have asks : fastloads s.drive = (s.drive.fastToHost && s.drive.dos.fastloadPending) := by
        simp [fastloads, was, off]
      rw [asks]
      unfold IecDrive.atnEnd
      have begun : Inv { s with drive := { s.drive with
          prevAtn := s.drive.cAtn
          underAtn := false } } := h.still (.of rfl rfl rfl id id)
      rcases IecDrive.serveFastload_cases { s.drive with
          prevAtn := s.drive.cAtn
          underAtn := false } with ⟨none, still⟩ | ⟨asked, name, dos, frame, served⟩
      · rw [if_neg (Bool.eq_false_iff.mp none)]
        exact (begun.still still).resume talk
      · rw [if_pos asked, served]
        exact (begun.fastload listen frame name).resume talk
  next same =>
    refine kept _ ?_ (.of rfl rfl rfl id id)
    rw [fastloads, not_not.mp same]
    simp

/-! ## Every step, and every run -/

/-- The drive reacts to its lines: to a command byte, to a byte taken, or without moving one. -/
theorem Inv.reactTo {s : Session δ} (h : Inv s)
    (allowed : ∀ b ∈ commandByte s.drive, s.dialogue.Allows s.drive b)
    (keeps : ∀ b ∈ commandByte s.drive, ¬ Discards s.drive b) (clkRose : Bool) :
    Inv (s.reactTo clkRose) := by
  unfold Session.reactTo
  dsimp only
  cases command : commandByte s.drive with
  | some b =>
    dsimp only
    have given := command
    unfold commandByte at command
    split at command
    next ready =>
      obtain ⟨st, clk, under⟩ := ready
      obtain rfl := Option.some.inj command
      have waiting : Inv { s with drive := { s.drive with dData := true }.enter .rxWaitReady } :=
        h.still (.of rfl rfl rfl nofun nofun)
      rw [IecDrive.react_command st clk under]
      exact waiting.command_step ⟨rfl, rfl⟩ (allowed _ given) (keeps _ given)
    next => cases command
  | none =>
    dsimp only
    cases taken : acknowledged s.drive with
    | true =>
      rw [if_pos rfl]
      simp only [acknowledged, Bool.and_eq_true, decide_eq_true_eq] at taken
      obtain ⟨k, dialogue⟩ := h.talks (by rw [taken.1]; rfl)
      obtain ⟨dos, part, sends⟩ := IecDrive.react_taken taken.1 taken.2 clkRose
      have done := h.acknowledge taken.1 dialogue dos part sends
      rw [dialogue] at done ⊢
      exact done
    | false =>
      rw [if_neg Bool.false_ne_true]
      by_cases start : s.drive.st = .txStart
      · have lines : Inv { s with drive := { s.drive with dClk := true, dData := false } } :=
          h.still (.of rfl rfl rfl id id)
        rcases IecDrive.react_start start clkRose with waits | offers
        · rw [waits]
          exact lines
        · rw [offers]
          rcases Bool.eq_false_or_eq_true s.drive.hasPending with has | none
          · exact lines.offer_again start has
          · exact lines.offer_next start none
      · have quiet : s.drive.moves = false := by
          unfold acknowledged at taken
          unfold commandByte at command
          unfold IecDrive.moves
          rw [taken, decide_eq_false start]
          simp only [Bool.or_false, Bool.and_eq_false_iff, decide_eq_false_iff_not]
          by_contra ready
          simp only [not_or, not_not, Bool.not_eq_false] at ready
          rw [if_pos ⟨ready.1.1, ready.1.2, ready.2⟩] at command
          cases command
        exact h.still (IecDrive.still_react quiet clkRose)

theorem Inv.react {s : Session δ} (h : Inv s)
    (allowed : ∀ b ∈ commandByte s.drive, s.dialogue.Allows s.drive b)
    (keeps : ∀ b ∈ commandByte s.drive, ¬ Discards s.drive b) : Inv s.react := by
  have looked : Inv { s with drive := { s.drive with prevClk := s.drive.busClk } } :=
    h.still (.of rfl rfl rfl id id)
  exact looked.reactTo allowed keeps _

theorem Inv.step {s : Session δ} (h : Inv s) {e : BusEvent} (orderly : Orderly s e)
    (keeps : Keeps s e) : Inv (s.step e) := by
  cases e with
  | fastByte b => exact h.still (IecDrive.still_fastByteFromHost s.drive b)
  | lines atn clk data =>
    have seen : Inv (s.observed (.lines atn clk data)) := h.still (.of rfl rfl rfl id id)
    exact (seen.followAtn orderly.2).react orderly.1 keeps
  | tick cycles =>
    have seen : Inv (s.observed (.tick cycles)) := h.still (.of rfl rfl rfl id id)
    exact (seen.followAtn orderly.2).react orderly.1 keeps

/-- A DOS nobody talks to, with any channels open. -/
structure Quiet (dos : CbmImageDos δ) : Prop where
  command : dos.files 15 = none
  unit : dos.unit ≤ 30

omit [CbmSectorDisk δ] in
theorem inv_start (us : ℕ → ℚ) (fastSerial : Bool) {dos : CbmImageDos δ} (quiet : Quiet dos) :
    Inv (.start us fastSerial dos) := by
  refine ⟨quiet.command, quiet.unit, ?_, ⟨rfl, rfl, rfl, rfl⟩, nofun, nofun, nofun⟩
  intro k
  unfold Session.start
  dsimp only [IecDrive.mounted]
  cases file : dos.files k with
  | none => exact ⟨List.nil_prefix, nofun⟩
  | some read =>
    obtain ⟨data, pos⟩ := read
    refine ⟨List.take_prefix pos data, ?_⟩
    rintro _ _ ⟨⟩
    exact ⟨rfl, List.append_nil _⟩

/-- The bytes taken on every channel are, in order, those of the file open on it: as long as no
secondary address for another channel comes while a byte of an open file is held. -/
theorem channels_independent (us : ℕ → ℚ) (fastSerial : Bool) {dos : CbmImageDos δ}
    (quiet : Quiet dos) (events : List BusEvent)
    (orderly : Guarded Session.step Orderly (.start us fastSerial dos) events)
    (keeps : Guarded Session.step Keeps (.start us fastSerial dos) events) (k : Fin 16) :
    ((events.foldl Session.step (.start us fastSerial dos)).readings k).taken <+:
        ((events.foldl Session.step (.start us fastSerial dos)).readings k).file ∧
      ∀ data pos, (events.foldl Session.step (.start us fastSerial dos)).drive.dos.files k =
        some (data, pos) →
        ((events.foldl Session.step (.start us fastSerial dos)).readings k).file = data := by
  have both : Guarded Session.step (fun s e => Orderly s e ∧ Keeps s e)
      (.start us fastSerial dos) events := guarded_and Session.step orderly keeps
  have reached := foldl_invariant Session.step _ Inv (fun _ _ h guard => h.step guard.1 guard.2)
    _ events (inv_start us fastSerial quiet) both
  refine ⟨(reached.reading k).taken, ?_⟩
  intro data pos file
  exact ((reached.reading k).read data pos file).1

/-! ## Two channels and one byte held -/

instance (d : IecDrive δ) (b : Byte) (dialogue : Dialogue) : Decidable (dialogue.Allows d b) :=
  match dialogue with
  | .free => inferInstanceAs (Decidable True)
  | .talk => inferInstanceAs (Decidable (0x60 ≤ b))
  | .talking _ => inferInstanceAs (Decidable (b = 0x5F))
  | .listen => inferInstanceAs
      (Decidable (0x60 ≤ b ∧ (b &&& 0xF0 = 0xE0 ∨ d.dos.files (channelOf b) = none)))
  | .listening => inferInstanceAs (Decidable (b = 0x3F))

instance (s : Session δ) (e : BusEvent) : Decidable (Orderly s e) :=
  match e with
  | .fastByte _ => inferInstanceAs (Decidable True)
  | .lines .. | .tick _ => @instDecidableAnd _ _ (Option.decidableForallMem _) inferInstance

instance (d : IecDrive δ) (b : Byte) : Decidable (Discards d b) :=
  inferInstanceAs (Decidable (_ ∧ _))

instance (s : Session δ) (e : BusEvent) : Decidable (Keeps s e) :=
  match e with
  | .fastByte _ => inferInstanceAs (Decidable True)
  | .lines .. | .tick _ => Option.decidableForallMem _

end Sessions

/-- A disk of two sequential files. -/
structure TwoFiles where
  deriving DecidableEq

instance : CbmSectorDisk TwoFiles where
  getDirectory _ := [⟨str "A", 1, 1⟩, ⟨str "B", 1, 1⟩]
  readFile _ name :=
    if name = str "A" then some [1, 2, 3, 4]
    else if name = str "B" then some [5, 6, 7, 8]
    else none
  getDiskName _ := str "TWO"
  getDiskId _ := str "2A"
  getDosType _ := str "2A"
  getFreeBlocks _ := 662
  size _ := 174848
  byteAt _ _ := 0
  sectorOffset _ _ _ := none
  writable _ := false
  writeSector d _ _ _ := (false, d)
  formatSectors d := (false, d)
  writeFile d _ _ _ _ := (26, d)
  scratch d _ := (0, d)
  rename d _ _ := (26, d)

/-- Unit 8 with `A` open on channel 2 and `B` on channel 3. -/
def twoOpen : CbmImageDos TwoFiles :=
  CbmImageDos.openChannel
    (CbmImageDos.openChannel
      { disk := ⟨⟩
        unit := 8
        listening := false
        talking := false
        opening := false
        active := false
        channel := 0
        name := []
        cmd := []
        ch := fun _ => .closed
        error := []
        errorPos := 0
        burstOut := []
        fastload := []
        fastloadPending := false
        bwLeft := 0
        bwTrack := 0
        bwSector := 0
        bwBuf := []
        burstLast := 0
        loggedIn := false
        burstInterleave := 0 } 2 (str "A")) 3 (str "B")

theorem quiet_twoOpen : Quiet twoOpen := ⟨by decide, by decide⟩

/-- A byte under ATN. -/
def sendCommand (b : Byte) : List BusEvent :=
  .lines true false false :: .lines true true false ::
    (List.finRange 8).flatMap fun i => [.lines true false !b[i], .lines true true !b[i]]

/-- TALK and a secondary address, and the computer becomes the listener. -/
def talkOn (k : Fin 16) : List BusEvent :=
  .lines true true false :: sendCommand 0x48 ++ sendCommand (0x60 ||| BitVec.ofNat 8 k) ++
    [.lines false false true, .tick 200]

/-- A byte taken, after which the drive reads the next one. -/
def takeByte : List BusEvent :=
  .lines false false false :: List.replicate 16 (.tick 80) ++ [.lines false false true, .tick 200]

def untalk : List BusEvent :=
  .lines true true false :: sendCommand 0x5F ++ [.lines false false false]

/-- A byte of channel 2, a look at channel 3, and again a byte of channel 2. -/
def interleaved : List BusEvent :=
  talkOn 2 ++ takeByte ++ untalk ++ talkOn 3 ++ untalk ++ talkOn 2 ++ takeByte

/-- One channel alone is read in order. -/
theorem channels_independent_alone :
    ((talkOn 2 ++ takeByte ++ untalk).foldl Session.step
        (.start (fun n => n) false twoOpen)).readings 2 = ⟨[1, 2, 3, 4], [1]⟩ ∧
      [(1 : Byte)] <+: [1, 2, 3, 4] := by
  have read := channels_independent (fun n => n) false quiet_twoOpen
    (talkOn 2 ++ takeByte ++ untalk) (by decide +kernel) (by decide +kernel) 2
  have taken : ((talkOn 2 ++ takeByte ++ untalk).foldl Session.step
      (.start (fun n => n) false twoOpen)).readings 2 = ⟨[1, 2, 3, 4], [1]⟩ := by decide +kernel
  rw [taken] at read
  exact ⟨taken, read.1⟩

/-- The byte held of channel 2 is lost at the secondary address for channel 3: the computer takes
the first byte and then the third. -/
theorem byte_lost : Quiet twoOpen ∧
    Guarded Session.step Orderly (.start (fun n => n) false twoOpen) interleaved ∧
    ¬ ((interleaved.foldl Session.step (.start (fun n => n) false twoOpen)).readings 2).taken <+:
      ((interleaved.foldl Session.step (.start (fun n => n) false twoOpen)).readings 2).file := by
  refine ⟨quiet_twoOpen, by decide +kernel, ?_⟩
  have taken : (interleaved.foldl Session.step (.start (fun n => n) false twoOpen)).readings 2 =
      ⟨[1, 2, 3, 4], [1, 3]⟩ := by decide +kernel
  rw [taken]
  decide

end Mmemu.Guarantees.IecChannels
