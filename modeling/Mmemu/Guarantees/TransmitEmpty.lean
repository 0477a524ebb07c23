import Mmemu.Library.Runs
import Mmemu.Source.Acia6551

/-!
# The ACIA's transmit-empty bit

The bit is clear exactly while a written byte waits to be sent, except behind a programmed reset,
which drops a waiting byte and leaves the bit clear. A program that writes only while it is set
has every byte sent once and in order.
-/
namespace Mmemu.Guarantees.TransmitEmpty
open Mmemu.Library.GuardedRun Mmemu.Source.Acia6551

variable {time : BitTime} {s s' s'' : Acia}

/-- The transmit-empty bit of the status register. -/
def tdre (s : Acia) : Bool := s.m_status &&& SR_TDRE ≠ 0

/-- The low bits that a word has at a setting of the control register. -/
def wordMask (ctrl : Byte) : Byte := BitVec.ofNat 8 (2 ^ (8 - (ctrl >>> 5 &&& 3).toNat) - 1)

/-- The bit as a program reads it. -/
theorem tdre_read (connected : Bool) {addr : BitVec 32} {v : Byte} (status : (addr &&& 3).toNat = 1)
    (read : s.ioPeek connected addr = some v) : tdre s = (v &&& SR_TDRE ≠ 0 : Bool) := by
  have others : ∀ status : Byte, ∀ connected irq : Bool,
      (status ||| (if connected then 0 else SR_DCD ||| SR_DSR) ||| if irq then 0x80 else 0) &&& SR_TDRE =
        status &&& SR_TDRE := by decide
  unfold Acia.ioPeek at read
  rw [status] at read
  split at read
  · obtain rfl := Option.some.inj read
    rw [others, tdre]
  · cases read

/-! ## What the transmitter is -/

/-- The transmitter is as it was. -/
structure SameTx (s s' : Acia) : Prop where
  base : s'.m_base = s.m_base
  cmd : s'.m_cmd = s.m_cmd
  ctrl : s'.m_ctrl = s.m_ctrl
  mask : s'.m_dataMask = s.m_dataMask
  data : s'.m_txData = s.m_txData
  inTx : s'.m_inTx = s.m_inTx
  active : s'.m_txActive = s.m_txActive
  countdown : s'.m_txCountdown = s.m_txCountdown
  sent : s'.sent = s.sent
  tdre : tdre s' = tdre s

theorem SameTx.refl (s : Acia) : SameTx s s := ⟨rfl, rfl, rfl, rfl, rfl, rfl, rfl, rfl, rfl, rfl⟩

theorem SameTx.trans (one : SameTx s s') (two : SameTx s' s'') : SameTx s s'' where
  base := two.base.trans one.base
  cmd := two.cmd.trans one.cmd
  ctrl := two.ctrl.trans one.ctrl
  mask := two.mask.trans one.mask
  data := two.data.trans one.data
  inTx := two.inTx.trans one.inTx
  active := two.active.trans one.active
  countdown := two.countdown.trans one.countdown
  sent := two.sent.trans one.sent
  tdre := two.tdre.trans one.tdre

theorem pushRx_same (s : Acia) (b : Byte) : SameTx s (s.pushRx b) := by
  unfold Acia.pushRx
  dsimp only
  split <;> exact ⟨rfl, rfl, rfl, rfl, rfl, rfl, rfl, rfl, rfl, rfl⟩

theorem pollTcp_same (s : Acia) (incoming : List Byte) : SameTx s (s.pollTcp incoming) := by
  have pushed : ∀ (bs : List Byte) (s : Acia), SameTx s (bs.foldl Acia.pushRx s) := by
    intro bs
    induction bs with
    | nil => exact .refl
    | cons b rest ih => exact fun s => (pushRx_same s b).trans (ih _)
  unfold Acia.pollTcp
  split
  · exact .refl s
  · exact pushed _ s

/-- The bit survives what the receiver does to the status. -/
theorem tdre_or (status : Byte) : (status ||| SR_RDRF) &&& SR_TDRE = status &&& SR_TDRE ∧
    (status ||| SR_OVERRUN ||| SR_RDRF) &&& SR_TDRE = status &&& SR_TDRE := by
  revert status
  decide

theorem rxEvent_same (s : Acia) : SameTx s s.rxEvent := by
  unfold Acia.rxEvent Acia.setIrq
  dsimp only
  split
  · exact ⟨rfl, rfl, rfl, rfl, rfl, rfl, rfl, rfl, rfl, rfl⟩
  · obtain ⟨full, lost⟩ := tdre_or s.m_status
    by_cases empty : s.m_status &&& SR_RDRF = 0
    · rw [if_pos empty]
      dsimp only
      split <;> exact ⟨rfl, rfl, rfl, rfl, rfl, rfl, rfl, rfl, rfl, by simp only [tdre, full]⟩
    · rw [if_neg empty]
      dsimp only
      split <;> exact ⟨rfl, rfl, rfl, rfl, rfl, rfl, rfl, rfl, rfl, by simp only [tdre, lost]⟩

theorem ioRead_same (s : Acia) (connected : Bool) (addr : BitVec 32) :
    SameTx s (s.ioRead connected addr).2 := by
  have cleared : ∀ status : Byte, status &&& ~~~(SR_ERRORS ||| SR_RDRF) &&& SR_TDRE = status &&& SR_TDRE := by
    decide
  unfold Acia.ioRead Acia.setIrq
  split
  · dsimp only
    split
    · exact ⟨rfl, rfl, rfl, rfl, rfl, rfl, rfl, rfl, rfl, by simp only [tdre, cleared]⟩
    · exact ⟨rfl, rfl, rfl, rfl, rfl, rfl, rfl, rfl, rfl, rfl⟩
    · exact .refl s
  · exact .refl s

/-- No byte came or went. -/
structure Kept (s s' : Acia) : Prop where
  base : s'.m_base = s.m_base
  cmd : s'.m_cmd = s.m_cmd
  ctrl : s'.m_ctrl = s.m_ctrl
  mask : s'.m_dataMask = s.m_dataMask
  data : s'.m_txData = s.m_txData
  full : s'.m_inTx = .DR_WRITTEN ↔ s.m_inTx = .DR_WRITTEN
  active : s.m_inTx = .DR_WRITTEN → s'.m_txActive = s.m_txActive
  sent : s'.sent = s.sent
  tdre : tdre s' = tdre s

theorem SameTx.kept (same : SameTx s s') : Kept s s' :=
  ⟨same.base, same.cmd, same.ctrl, same.mask, same.data, iff_of_eq (congrArg (· = TxState.DR_WRITTEN) same.inTx),
    fun _ => same.active, same.sent, same.tdre⟩

/-- What a tick brings the transmitter to: nothing, a step of its countdown, or its event. -/
inductive Ticked (s : Acia) (cycles : BitVec 64) (s' : Acia) : Prop where
  | idle (off : s.m_txActive = false) (same : SameTx s s')
  | counts (on : s.m_txActive = true) (more : cycles < s.m_txCountdown) (t : Acia) (polled : SameTx s t)
    (same : SameTx { t with m_txCountdown := t.m_txCountdown - cycles } s')
  | event (on : s.m_txActive = true) (over_ : s.m_txCountdown ≤ cycles) (t : Acia) (polled : SameTx s t)
    (same : SameTx t.txEvent s')

theorem tick_ticked (s : Acia) (cycles : BitVec 64) (incoming : List Byte) :
    Ticked s cycles (s.tick cycles incoming) := by
  unfold Acia.tick
  dsimp only
  generalize polled : (if s.m_link = .Tcp then
      if s.m_pollCountdown ≤ cycles then
        { s.pollTcp incoming with m_pollCountdown := s.m_clockHz.setWidth 64 / 1000 + 1 }
      else { s with m_pollCountdown := s.m_pollCountdown - cycles }
    else s) = t
  have same : SameTx s t := by
    rw [← polled]
    split
    · split
      · have pushed := pollTcp_same s incoming
        exact ⟨pushed.1, pushed.2, pushed.3, pushed.4, pushed.5, pushed.6, pushed.7, pushed.8, pushed.9,
          pushed.10⟩
      · exact ⟨rfl, rfl, rfl, rfl, rfl, rfl, rfl, rfl, rfl, rfl⟩
    · exact .refl s
  have received : ∀ u : Acia, SameTx u (if u.m_rxActive then
      if u.m_rxCountdown ≤ cycles then u.rxEvent
      else { u with m_rxCountdown := u.m_rxCountdown - cycles }
    else u) := by
    intro u
    split
    · split
      · exact rxEvent_same u
      · exact ⟨rfl, rfl, rfl, rfl, rfl, rfl, rfl, rfl, rfl, rfl⟩
    · exact .refl u
  cases active : s.m_txActive with
  | false =>
    have off : ¬t.m_txActive = true := by
      rw [same.active, active]
      decide
    rw [if_neg off]
    exact .idle active (same.trans (received t))
  | true =>
    have on : t.m_txActive = true := same.active.trans active
    rw [if_pos on]
    by_cases over_ : t.m_txCountdown ≤ cycles
    · rw [if_pos over_]
      exact .event active (same.countdown ▸ over_) t same (received _)
    · rw [if_neg over_]
      exact .counts active (same.countdown ▸ BitVec.not_le.mp over_) t same (received _)

/-- The event sends a byte that was written and makes the register empty. -/
structure Sends (s s' : Acia) : Prop where
  base : s'.m_base = s.m_base
  cmd : s'.m_cmd = s.m_cmd
  ctrl : s'.m_ctrl = s.m_ctrl
  mask : s'.m_dataMask = s.m_dataMask
  data : s'.m_txData = s.m_txData
  inTx : s'.m_inTx ≠ .DR_WRITTEN
  sent : s'.sent = s.sent ++ if s.m_inTx = .DR_WRITTEN then [s.m_txData &&& s.m_dataMask] else []
  tdre : tdre s' = (tdre s || s.m_inTx = .DR_WRITTEN)

theorem tdre_set (status : Byte) : (status ||| SR_TDRE) &&& SR_TDRE ≠ 0 := by
  revert status
  decide

theorem send_sends (s : Acia) (b : Byte) : SameTx { s with sent := s.sent ++ [b] } (s.send b) := by
  unfold Acia.send
  dsimp only
  split
  · exact pushRx_same _ b
  · exact .refl _

theorem txEvent_eq (s : Acia) : ∃ irq inTx countdown active, inTx ≠ .DR_WRITTEN ∧
    s.txEvent = { s.shiftOut with
      m_irq := irq, m_inTx := inTx, m_txCountdown := countdown, m_txActive := active } := by
  unfold Acia.txEvent Acia.setIrq
  generalize s.shiftOut = t
  have next : t.m_inTx.before ≠ .DR_WRITTEN := by cases t.m_inTx <;> decide
  by_cases irq : t.m_cmd &&& CMD_TX_MASK = CMD_TX_IRQ
  · exact ⟨true, _, t.m_charCycles, t.m_txActive, next, by simp only [irq, or_true, if_true]⟩
  · by_cases more : t.m_inTx.before = .NONE
    · refine ⟨t.m_irq, _, t.m_txCountdown, false, next, ?_⟩
      simp only [irq, more, or_false, ne_eq, not_true_eq_false, if_false]
    · refine ⟨t.m_irq, _, t.m_charCycles, t.m_txActive, next, ?_⟩
      simp only [irq, more, or_false, ne_eq, not_false_eq_true, if_true, if_false]

theorem txEvent_sends (s : Acia) : Sends s s.txEvent := by
  obtain ⟨irq, inTx, countdown, active, done, run⟩ := txEvent_eq s
  rw [run]
  unfold Acia.shiftOut
  by_cases written : s.m_inTx = .DR_WRITTEN
  · have gone := send_sends s (s.m_txData &&& s.m_dataMask)
    have full := tdre_set (s.send (s.m_txData &&& s.m_dataMask)).m_status
    rw [if_pos written]
    refine ⟨gone.base, gone.cmd, gone.ctrl, gone.mask, gone.data, done, ?_, ?_⟩
    · rw [if_pos written]
      exact gone.sent
    · rw [decide_eq_true written, Bool.or_true]
      exact decide_eq_true full
  · rw [if_neg written]
    refine ⟨rfl, rfl, rfl, rfl, rfl, done, ?_, ?_⟩
    · rw [if_neg written, List.append_nil]
    · rw [decide_eq_false written, Bool.or_false]
      rfl

/-! ## Sessions -/

inductive Event where
  | read (connected : Bool) (addr : BitVec 32)
  | write (addr : BitVec 32) (val : Byte)
  | receive (b : Byte)
  | tick (cycles : BitVec 64) (incoming : List Byte)
  | reset
  deriving DecidableEq, Repr

/-- The chip, the written byte that waits to be sent, the bytes written while the bit was set and
DTR on, and the control register at each sending. -/
structure Session where
  acia : Acia
  waiting : Option Byte
  taken : List Byte
  controls : List Byte

/-- The register of an access to the chip. -/
def register (s : Acia) (addr : BitVec 32) : Option ℕ :=
  if s.decodes addr then some (addr &&& 3).toNat else none

variable (time) in
def Session.step (s : Session) : Event → Session
  | .read connected addr => { s with acia := (s.acia.ioRead connected addr).2 }
  | .write addr val =>
    let s' := { s with acia := s.acia.ioWrite time addr val }
    match register s.acia addr with
    | some 0 =>
      if s.acia.dtr then
        { s' with waiting := some val, taken := if tdre s.acia then s.taken ++ [val] else s.taken }
      else { s' with waiting := s.waiting.map fun _ => val }
    | some 1 => { s' with waiting := none }
    | _ => s'
  | .receive b => { s with acia := s.acia.pushRx b }
  | .tick cycles incoming =>
    let acia := s.acia.tick cycles incoming
    if s.acia.sent.length < acia.sent.length then
      { s with acia := acia, waiting := none, controls := s.controls ++ [s.acia.m_ctrl] }
    else { s with acia := acia }
  | .reset => { s with acia := s.acia.reset time, waiting := none }

variable (time) in
def Session.start (base clockHz : BitVec 32) (link : Link) : Session :=
  ⟨.new time base clockHz link, none, [], []⟩

/-- No programmed reset while a byte waits. -/
def Unhung (s : Session) : Event → Prop
  | .write addr _ => register s.acia addr = some 1 → s.waiting = none
  | _ => True

/-- While a byte waits, no other is written, nothing is reset and the transmitter stays on. -/
def Patient (s : Session) : Event → Prop
  | .write addr val => s.waiting.isSome → ∀ r ∈ register s.acia addr,
      2 ≤ r ∧ (r = 2 → val &&& CMD_DTR ≠ 0 ∧ val &&& CMD_TX_MASK ≠ 0)
  | .reset => s.waiting = none
  | _ => True

/-- The chip's side of a session. -/
structure Good (s : Session) : Prop where
  written : s.acia.m_inTx = .DR_WRITTEN ↔ s.waiting.isSome
  data : ∀ b ∈ s.waiting, s.acia.m_txData = b
  mask : s.acia.m_dataMask = wordMask s.acia.m_ctrl
  active : s.waiting.isSome → s.acia.dtr → s.acia.txOn → s.acia.m_txActive = true

/-- The bit is clear exactly while a byte waits. -/
def Honest (s : Session) : Prop := tdre s.acia = s.waiting.isNone

/-- Every byte taken was sent once, in order and masked, but for one that waits. -/
def Delivered (s : Session) : Prop :=
  ∃ gone, s.taken = gone ++ s.waiting.toList ∧ gone.length = s.controls.length ∧
    s.acia.sent = List.zipWith (fun b ctrl => b &&& wordMask ctrl) gone s.controls

def Event.cycles : Event → ℕ
  | .tick cycles _ => cycles.toNat
  | _ => 0

/-- The cycles that pass. -/
def elapsed : List Event → ℕ
  | [] => 0
  | e :: rest => e.cycles + elapsed rest

/-- A program waits: it may read, and set the control register. -/
def Quiet (s : Session) : Event → Prop
  | .write addr _ => ∀ r ∈ register s.acia addr, r = 3
  | .reset => False
  | _ => True

instance (s : Session) (e : Event) : Decidable (Unhung s e) :=
  match e with
  | .write _ _ => inferInstanceAs (Decidable (_ → _))
  | .read _ _ | .receive _ | .tick _ _ | .reset => inferInstanceAs (Decidable True)

instance (s : Session) (e : Event) : Decidable (Patient s e) :=
  match e with
  | .write _ _ => inferInstanceAs (Decidable (_ → ∀ r ∈ register s.acia _, _))
  | .reset => inferInstanceAs (Decidable (_ = none))
  | .read _ _ | .receive _ | .tick _ _ => inferInstanceAs (Decidable True)

instance (s : Session) (e : Event) : Decidable (Quiet s e) :=
  match e with
  | .write _ _ => inferInstanceAs (Decidable (∀ r ∈ register s.acia _, _))
  | .reset => inferInstanceAs (Decidable False)
  | .read _ _ | .receive _ | .tick _ _ => inferInstanceAs (Decidable True)

/-! ## Steps -/

theorem mask_of_updated (time : BitTime) (s : Acia) :
    (s.updateCharTime time).m_dataMask = wordMask (s.updateCharTime time).m_ctrl := by
  have masks : ∀ ctrl : Byte, BitVec.ofNat 8 (0xFF >>> (8 - (8 - (ctrl >>> 5 &&& 3).toNat))) =
      wordMask ctrl := by decide
  exact masks s.m_ctrl

/-- What a write does. -/
inductive Wrote (time : BitTime) (s : Session) (addr : BitVec 32) (val : Byte) (s' : Session) : Prop where
  | outside (place : register s.acia addr = none) (run : s' = s)
  | byte (place : register s.acia addr = some 0) (on : s.acia.dtr = true) (countdown : BitVec 64)
    (run : s' = { s with
      acia := { s.acia with
        m_txData := val, m_inTx := .DR_WRITTEN, m_txActive := true, m_txCountdown := countdown
        m_status := s.acia.m_status &&& ~~~SR_TDRE }
      waiting := some val
      taken := if tdre s.acia then s.taken ++ [val] else s.taken })
  | held (place : register s.acia addr = some 0) (off : s.acia.dtr = false)
    (run : s' = { s with acia := { s.acia with m_txData := val }, waiting := s.waiting.map fun _ => val })
  | programmed (place : register s.acia addr = some 1)
    (run : s' = { s with acia := s.acia.programmedReset, waiting := none })
  | command (place : register s.acia addr = some 2) (rx : Bool) (rxCountdown countdown : BitVec 64)
    (run : s' = { s with
      acia := { { s.acia with m_cmd := val }.updateCharTime time with
        m_rxActive := rx, m_rxCountdown := rxCountdown, m_txCountdown := countdown
        m_txActive := val &&& CMD_DTR ≠ 0 && val &&& CMD_TX_MASK ≠ 0 } })
  | control (r : ℕ) (place : register s.acia addr = some (r + 3))
    (run : s' = { s with acia := { s.acia with m_ctrl := val }.updateCharTime time })

theorem transmit_eq (s : Acia) (val : Byte) (on : s.dtr = true) : ∃ countdown, s.transmit val =
    { s with
      m_txData := val, m_inTx := .DR_WRITTEN, m_txActive := true, m_txCountdown := countdown
      m_status := s.m_status &&& ~~~SR_TDRE } := by
  have still : { s with m_txData := val }.dtr = true := on
  unfold Acia.transmit
  dsimp only
  rw [if_pos still]
  split
  next active => exact ⟨s.m_txCountdown, by rw [← active]⟩
  next => exact ⟨1, rfl⟩

theorem command_eq (time : BitTime) (s : Acia) (val : Byte) : ∃ rx rxCountdown countdown, s.command time val =
    { { s with m_cmd := val }.updateCharTime time with
      m_rxActive := rx, m_rxCountdown := rxCountdown, m_txCountdown := countdown
      m_txActive := val &&& CMD_DTR ≠ 0 && val &&& CMD_TX_MASK ≠ 0 } := by
  have dtr : ({ s with m_cmd := val }.updateCharTime time).dtr = (val &&& CMD_DTR ≠ 0 : Bool) := rfl
  have txOn : ({ s with m_cmd := val }.updateCharTime time).txOn = (val &&& CMD_TX_MASK ≠ 0 : Bool) := rfl
  unfold Acia.command
  rw [← dtr, ← txOn]
  generalize { s with m_cmd := val }.updateCharTime time = t
  have tx : (t.dtr && t.txOn) = true ∨ (t.dtr && t.txOn) = false ∧ (!t.dtr || !t.txOn) = true := by
    cases t.dtr <;> cases t.txOn <;> decide
  dsimp only
  rcases tx with both | ⟨off, either⟩
  · rw [if_pos both, both]
    by_cases rx : t.m_rxActive = true <;> by_cases active : t.m_txActive = true
    · rw [if_pos rx, if_pos active]
      exact ⟨t.m_rxActive, t.m_rxCountdown, t.m_txCountdown, by rw [← active]⟩
    · rw [if_pos rx, if_neg active]
      exact ⟨t.m_rxActive, t.m_rxCountdown, t.m_charCycles, rfl⟩
    · rw [if_neg rx]
      exact ⟨true, t.m_charCycles, t.m_txCountdown, by rw [if_pos (by exact active), ← active]⟩
    · rw [if_neg rx]
      exact ⟨true, t.m_charCycles, t.m_charCycles, by rw [if_neg (by exact active)]⟩
  · have neither : ¬(t.dtr && t.txOn) = true := by
      rw [off]
      decide
    rw [if_neg neither, if_pos (by exact either), off]
    exact ⟨false, t.m_rxCountdown, t.m_txCountdown, rfl⟩

theorem write_wrote (time : BitTime) (s : Session) (addr : BitVec 32) (val : Byte) :
    Wrote time s addr val (s.step time (.write addr val)) := by
  by_cases ours : s.acia.decodes addr = true
  · have place : register s.acia addr = some (addr &&& 3).toNat := if_pos ours
    match low : (addr &&& 3).toNat with
    | 0 =>
      cases on : s.acia.dtr with
      | true =>
        obtain ⟨countdown, sends⟩ := transmit_eq s.acia val on
        refine .byte (low ▸ place) on countdown ?_
        simp only [Session.step, Acia.ioWrite, place, low, ours, on, if_true, sends]
      | false =>
        have kept : s.acia.transmit val = { s.acia with m_txData := val } := by
          have still : ¬{ s.acia with m_txData := val }.dtr = true := by
            change ¬s.acia.dtr = true
            rw [on]
            decide
          exact if_neg still
        refine .held (low ▸ place) on ?_
        simp only [Session.step, Acia.ioWrite, place, low, ours, on, if_true, kept, Bool.false_eq_true, if_false]
    | 1 =>
      refine .programmed (low ▸ place) ?_
      simp only [Session.step, Acia.ioWrite, place, low, ours, if_true]
    | 2 =>
      obtain ⟨rx, rxCountdown, countdown, commands⟩ := command_eq time s.acia val
      refine .command (low ▸ place) rx rxCountdown countdown ?_
      simp only [Session.step, Acia.ioWrite, place, low, ours, if_true, commands]
    | r + 3 =>
      refine .control r (place.trans (congrArg some low)) ?_
      simp only [Session.step, Acia.ioWrite, place, low, ours, if_true]
  · have far : register s.acia addr = none := if_neg ours
    refine .outside far ?_
    simp only [Session.step, Acia.ioWrite, far, ours, if_false, Bool.false_eq_true]

theorem Good.kept {s : Session} {t : Acia} (good : Good s) (kept : Kept s.acia t) :
    Good { s with acia := t } where
  written := kept.full.trans good.written
  data := fun b here => kept.data.trans (good.data b here)
  mask := by
    show t.m_dataMask = wordMask t.m_ctrl
    rw [kept.mask, kept.ctrl]
    exact good.mask
  active := by
    intro here on enabled
    show t.m_txActive = true
    unfold Acia.dtr Acia.txOn at *
    rw [kept.cmd] at on enabled
    exact (kept.active (good.written.mpr here)).trans (good.active here on enabled)

theorem Good.idle {s : Session} (none_ : s.waiting = none) (empty : s.acia.m_inTx ≠ .DR_WRITTEN)
    (mask : s.acia.m_dataMask = wordMask s.acia.m_ctrl) : Good s where
  written := by
    rw [none_]
    exact iff_of_false empty (by decide)
  data := by
    rw [none_]
    exact fun b here => by cases here
  mask := mask
  active := by
    rw [none_]
    exact fun here => by cases here

theorem good_write {s : Session} (good : Good s) (addr : BitVec 32) (val : Byte) :
    Good (s.step time (.write addr val)) := by
  cases write_wrote time s addr val with
  | outside place run =>
    rw [run]
    exact good
  | byte place on countdown run =>
    rw [run]
    exact ⟨iff_of_true rfl rfl, fun b here => Option.some.inj here, good.mask, fun _ _ _ => rfl⟩
  | held place off run =>
    rw [run]
    refine ⟨?_, ?_, good.mask, ?_⟩
    · rw [Option.isSome_map]
      exact good.written
    · intro b here
      obtain ⟨_, _, rfl⟩ := Option.map_eq_some_iff.mp here
      rfl
    · intro here
      rw [Option.isSome_map] at here
      exact good.active here
  | programmed place run =>
    rw [run]
    exact .idle rfl (fun full => by cases full) good.mask
  | command place rx rxCountdown countdown run =>
    rw [run]
    exact ⟨good.written, good.data, mask_of_updated time _, fun _ on enabled => Bool.and_eq_true_iff.mpr ⟨on, enabled⟩⟩
  | control r place run =>
    rw [run]
    exact ⟨good.written, good.data, mask_of_updated time _, good.active⟩

/-- What a tick does: a byte goes out exactly if one waits and the event comes. -/
inductive Passed (s : Session) (cycles : BitVec 64) (s' : Session) : Prop where
  | kept (t : Acia) (kept : Kept s.acia t) (run : s' = { s with acia := t })
    (waits : s.waiting.isSome → s.acia.m_txActive = true →
      cycles < s.acia.m_txCountdown ∧ t.m_txCountdown = s.acia.m_txCountdown - cycles)
  | sends (b : Byte) (here : s.waiting = some b) (t : Acia) (gone : Sends s.acia t)
    (run : s' = { s with acia := t, waiting := none, controls := s.controls ++ [s.acia.m_ctrl] })

theorem tick_kept {s : Session} {cycles : BitVec 64} {incoming : List Byte}
    (sent : (s.acia.tick cycles incoming).sent = s.acia.sent) :
    s.step time (.tick cycles incoming) = { s with acia := s.acia.tick cycles incoming } := by
  have still : ¬s.acia.sent.length < (s.acia.tick cycles incoming).sent.length := by
    rw [sent]
    exact lt_irrefl _
  exact if_neg still

theorem tick_passed {s : Session} (good : Good s) (cycles : BitVec 64) (incoming : List Byte) :
    Passed s cycles (s.step time (.tick cycles incoming)) := by
  cases tick_ticked s.acia cycles incoming with
  | idle off same =>
    refine .kept _ same.kept (tick_kept same.sent) fun _ on => ?_
    rw [off] at on
    cases on
  | counts on more t polled same =>
    have both := same.kept
    refine .kept _ ⟨both.base.trans polled.base, both.cmd.trans polled.cmd, both.ctrl.trans polled.ctrl,
      both.mask.trans polled.mask, both.data.trans polled.data, both.full.trans polled.kept.full,
      fun _ => same.active.trans polled.active, both.sent.trans polled.sent, both.tdre.trans polled.tdre⟩
      (tick_kept (both.sent.trans polled.sent)) fun _ _ => ⟨more, ?_⟩
    rw [same.countdown, polled.countdown]
  | event on over_ t polled same =>
    have sends := txEvent_sends t
    have gone : Sends s.acia (s.acia.tick cycles incoming) := by
      refine ⟨?_, ?_, ?_, ?_, ?_, ?_, ?_, ?_⟩
      · exact same.base.trans (sends.base.trans polled.base)
      · exact same.cmd.trans (sends.cmd.trans polled.cmd)
      · exact same.ctrl.trans (sends.ctrl.trans polled.ctrl)
      · exact same.mask.trans (sends.mask.trans polled.mask)
      · exact same.data.trans (sends.data.trans polled.data)
      · rw [same.inTx]
        exact sends.inTx
      · rw [same.sent, sends.sent, polled.sent, polled.inTx, polled.data, polled.mask]
      · rw [same.tdre, sends.tdre, polled.tdre, polled.inTx]
    cases byte : s.waiting with
    | none =>
      have empty : ¬s.acia.m_inTx = .DR_WRITTEN := by
        rw [good.written, byte]
        decide
      have sent := gone.sent
      rw [if_neg empty, List.append_nil] at sent
      refine .kept _ ⟨gone.base, gone.cmd, gone.ctrl, gone.mask, gone.data, iff_of_false gone.inTx empty,
        fun full => absurd full empty, sent, ?_⟩ (tick_kept sent) fun here => ?_
      · rw [gone.tdre, decide_eq_false empty, Bool.or_false]
      · rw [byte] at here
        cases here
    | some b =>
      have full : s.acia.m_inTx = .DR_WRITTEN := by
        rw [good.written, byte]
        rfl
      have more : s.acia.sent.length < (s.acia.tick cycles incoming).sent.length := by
        rw [gone.sent, if_pos full, List.length_append]
        exact Nat.lt_succ_self _
      exact .sends b byte _ gone (if_pos more)

/-! ## What each event keeps -/

theorem good_start (base clockHz : BitVec 32) (link : Link) : Good (Session.start time base clockHz link) :=
  .idle rfl (fun full => by cases full) (mask_of_updated time _)

theorem good_reset (s : Session) : Good (s.step time .reset) :=
  .idle rfl (fun full => by cases full) (mask_of_updated time _)

theorem good_step {s : Session} (good : Good s) (e : Event) : Good (s.step time e) := by
  cases e with
  | read connected addr => exact good.kept (ioRead_same s.acia connected addr).kept
  | write addr val => exact good_write good addr val
  | receive b => exact good.kept (pushRx_same s.acia b).kept
  | tick cycles incoming =>
    cases @tick_passed time _ good cycles incoming with
    | kept t kept run waits =>
      rw [run]
      exact good.kept kept
    | sends b here t gone run =>
      rw [run]
      refine .idle rfl gone.inTx ?_
      show t.m_dataMask = wordMask t.m_ctrl
      rw [gone.mask, gone.ctrl]
      exact good.mask
  | reset => exact good_reset s

theorem honest_step {s : Session} (good : Good s) (honest : Honest s) {e : Event} (unhung : Unhung s e) :
    Honest (s.step time e) := by
  cases e with
  | read connected addr => exact (ioRead_same s.acia connected addr).tdre.trans honest
  | write addr val =>
    cases write_wrote time s addr val with
    | outside place run =>
      rw [run]
      exact honest
    | byte place on countdown run =>
      have cleared : ∀ status : Byte, status &&& ~~~SR_TDRE &&& SR_TDRE = 0 := by decide
      rw [run]
      show decide _ = false
      rw [cleared]
      decide
    | held place off run =>
      rw [run]
      exact honest.trans (by cases s.waiting <;> rfl)
    | programmed place run =>
      have cleared : ∀ status : Byte, status &&& ~~~SR_OVERRUN &&& SR_TDRE = status &&& SR_TDRE := by
        decide
      have bit : tdre s.acia = true := by
        rw [honest, unhung place]
        rfl
      rw [run]
      show decide (s.acia.m_status &&& ~~~SR_OVERRUN &&& SR_TDRE ≠ 0) = true
      rw [cleared]
      exact bit
    | command place rx rxCountdown countdown run =>
      rw [run]
      exact honest
    | control r place run =>
      rw [run]
      exact honest
  | receive b => exact (pushRx_same s.acia b).tdre.trans honest
  | tick cycles incoming =>
    cases @tick_passed time _ good cycles incoming with
    | kept t kept run waits =>
      rw [run]
      exact kept.tdre.trans honest
    | sends b here t gone run =>
      have full : s.acia.m_inTx = .DR_WRITTEN := by
        rw [good.written, here]
        rfl
      rw [run]
      show tdre t = true
      rw [gone.tdre, decide_eq_true full, Bool.or_true]
  | reset =>
    show decide (SR_TDRE &&& SR_TDRE ≠ 0) = true
    decide

theorem Delivered.same {s s' : Session} (delivered : Delivered s) (taken : s'.taken = s.taken)
    (waiting : s'.waiting = s.waiting) (controls : s'.controls = s.controls)
    (sent : s'.acia.sent = s.acia.sent) : Delivered s' := by
  unfold Delivered
  rw [taken, waiting, controls, sent]
  exact delivered

theorem patient_write {s : Session} {addr : BitVec 32} {val : Byte} (patient : Patient s (.write addr val)) {r : ℕ}
    (place : register s.acia addr = some r) (low : r < 2) : s.waiting = none := by
  by_contra here
  have held := (patient (Option.isSome_iff_ne_none.mpr here) r place).1
  omega

theorem delivered_write {s : Session} (honest : Honest s) (delivered : Delivered s) {addr : BitVec 32} {val : Byte}
    (patient : Patient s (.write addr val)) : Delivered (s.step time (.write addr val)) := by
  have free {r : ℕ} := patient_write patient (r := r)
  cases write_wrote time s addr val with
  | outside place run =>
    rw [run]
    exact delivered
  | byte place on countdown run =>
    have none_ := free place (by decide)
    have bit : tdre s.acia = true := by
      rw [honest, none_]
      rfl
    obtain ⟨gone, taken, controls, sent⟩ := delivered
    rw [none_, Option.toList_none, List.append_nil] at taken
    rw [run]
    refine ⟨gone, ?_, controls, sent⟩
    show (if tdre s.acia then s.taken ++ [val] else s.taken) = gone ++ [val]
    rw [if_pos bit, taken]
  | held place off run =>
    rw [run]
    refine delivered.same rfl ?_ rfl rfl
    show (s.waiting.map fun _ => val) = s.waiting
    rw [free place (by decide), Option.map_none]
  | programmed place run =>
    rw [run]
    exact delivered.same rfl (free place (by decide)).symm rfl rfl
  | command place rx rxCountdown countdown run =>
    rw [run]
    exact delivered.same rfl rfl rfl rfl
  | control r place run =>
    rw [run]
    exact delivered.same rfl rfl rfl rfl

theorem delivered_step {s : Session} (good : Good s) (honest : Honest s) (delivered : Delivered s) {e : Event}
    (patient : Patient s e) : Delivered (s.step time e) := by
  cases e with
  | read connected addr => exact delivered.same rfl rfl rfl (ioRead_same s.acia connected addr).sent
  | write addr val => exact delivered_write honest delivered patient
  | receive b => exact delivered.same rfl rfl rfl (pushRx_same s.acia b).sent
  | tick cycles incoming =>
    cases @tick_passed time _ good cycles incoming with
    | kept t kept run waits =>
      rw [run]
      exact delivered.same rfl rfl rfl kept.sent
    | sends b here t gone run =>
      obtain ⟨before, taken, controls, sent⟩ := delivered
      have full : s.acia.m_inTx = .DR_WRITTEN := by
        rw [good.written, here]
        rfl
      rw [here] at taken
      rw [run]
      refine ⟨before ++ [b], ?_, ?_, ?_⟩
      · rw [Option.toList_none, List.append_nil]
        exact taken
      · rw [List.length_append, List.length_append, controls]
        rfl
      · show t.sent = _
        rw [gone.sent, if_pos full, sent, good.data b here, good.mask, List.zipWith_append controls]
        rfl
  | reset =>
    exact delivered.same rfl (Eq.symm patient) rfl rfl

/-! ## Runs -/

/-- What keeps a byte keeps the chip from a hang. -/
theorem unhung_of_patient {s : Session} {e : Event} (patient : Patient s e) : Unhung s e := by
  cases e with
  | write addr val => exact fun place => patient_write patient place (by decide)
  | read | receive | tick | reset => trivial

theorem honest_run {s : Session} (good : Good s) (honest : Honest s) {es : List Event}
    (run : Guarded (Session.step time) Unhung s es) :
    Good (es.foldl (Session.step time) s) ∧ Honest (es.foldl (Session.step time) s) :=
  foldl_invariant _ _ (fun s => Good s ∧ Honest s)
    (fun _ e both unhung => ⟨good_step both.1 e, honest_step both.1 both.2 unhung⟩) s es ⟨good, honest⟩ run

theorem delivered_run {s : Session} (good : Good s) (honest : Honest s) (delivered : Delivered s) {es : List Event}
    (run : Guarded (Session.step time) Patient s es) : Delivered (es.foldl (Session.step time) s) :=
  (foldl_invariant _ _ (fun s => (Good s ∧ Honest s) ∧ Delivered s)
    (fun _ e all patient => ⟨⟨good_step all.1.1 e, honest_step all.1.1 all.1.2 (unhung_of_patient patient)⟩,
      delivered_step all.1.1 all.1.2 all.2 patient⟩) s es ⟨⟨good, honest⟩, delivered⟩ run).2

theorem quiet_unhung {s : Session} {e : Event} (quiet : Quiet s e) : Unhung s e := by
  cases e with
  | write addr val =>
    intro place
    cases quiet 1 place
  | read | receive | tick | reset => trivial

/-- While a program waits the register stays empty once it is. -/
theorem stays_empty {s : Session} (good : Good s) {e : Event} (quiet : Quiet s e) (empty : s.waiting = none) :
    (s.step time e).waiting = none := by
  cases e with
  | read connected addr => exact empty
  | write addr val =>
    cases write_wrote time s addr val with
    | outside place run => rw [run, empty]
    | byte place on countdown run => cases quiet 0 place
    | held place off run => cases quiet 0 place
    | programmed place run => rw [run]
    | command place rx rxCountdown countdown run => rw [run, empty]
    | control r place run => rw [run, empty]
  | receive b => exact empty
  | tick cycles incoming =>
    cases @tick_passed time _ good cycles incoming with
    | kept t kept run waits => rw [run, empty]
    | sends b here t gone run => rw [run]
  | reset => exact quiet.elim

/-- While a program waits the byte goes out, or the countdown goes down by the cycles that pass. -/
theorem waits {s : Session} (good : Good s) {e : Event} (quiet : Quiet s e) (full : s.waiting.isSome)
    (active : s.acia.m_txActive = true) :
    (s.step time e).waiting = none ∨
      (s.step time e).waiting = s.waiting ∧ (s.step time e).acia.m_cmd = s.acia.m_cmd ∧
        (e.cycles = 0 ∨ e.cycles < s.acia.m_txCountdown.toNat) ∧
        (s.step time e).acia.m_txCountdown.toNat = s.acia.m_txCountdown.toNat - e.cycles := by
  cases e with
  | read connected addr =>
    have same := ioRead_same s.acia connected addr
    exact .inr ⟨rfl, same.cmd, .inl rfl, congrArg BitVec.toNat same.countdown⟩
  | write addr val =>
    cases write_wrote time s addr val with
    | outside place run =>
      rw [run]
      exact .inr ⟨rfl, rfl, .inl rfl, rfl⟩
    | byte place on countdown run => cases quiet 0 place
    | held place off run => cases quiet 0 place
    | programmed place run => cases quiet 1 place
    | command place rx rxCountdown countdown run => cases quiet 2 place
    | control r place run =>
      rw [run]
      exact .inr ⟨rfl, rfl, .inl rfl, rfl⟩
  | receive b =>
    have same := pushRx_same s.acia b
    exact .inr ⟨rfl, same.cmd, .inl rfl, congrArg BitVec.toNat same.countdown⟩
  | tick cycles incoming =>
    cases @tick_passed time _ good cycles incoming with
    | kept t kept run waits =>
      obtain ⟨more, left⟩ := waits full active
      rw [run]
      refine .inr ⟨rfl, kept.cmd, .inr more, ?_⟩
      show t.m_txCountdown.toNat = _
      rw [left]
      exact BitVec.toNat_sub_of_le (BitVec.le_of_lt more)
    | sends b here t gone run =>
      rw [run]
      exact .inl rfl
  | reset => exact quiet.elim

theorem empty_run {s : Session} (good : Good s) (honest : Honest s) (empty : s.waiting = none) {es : List Event}
    (run : Guarded (Session.step time) Quiet s es) : tdre (es.foldl (Session.step time) s).acia = true := by
  have all := foldl_invariant _ _ (fun s : Session => (Good s ∧ Honest s) ∧ s.waiting = none)
    (fun _ e all quiet => ⟨⟨good_step all.1.1 e, honest_step all.1.1 all.1.2 (quiet_unhung quiet)⟩,
      stays_empty all.1.1 quiet all.2⟩) s es ⟨⟨good, honest⟩, empty⟩ run
  rw [all.1.2, all.2]
  rfl

/-- A program that waits is let go once the cycles of the countdown have passed, if the transmitter
is on. -/
theorem let_go {s : Session} (good : Good s) (honest : Honest s) (on : s.acia.dtr = true)
    (enabled : s.acia.txOn = true) {es : List Event} (run : Guarded (Session.step time) Quiet s es)
    (some_ : 0 < elapsed es) (long : s.acia.m_txCountdown.toNat ≤ elapsed es) :
    tdre (es.foldl (Session.step time) s).acia = true := by
  induction es generalizing s with
  | nil => cases some_
  | cons e rest ih =>
    cases full : s.waiting with
    | none => exact empty_run good honest full run
    | some b =>
      have here : s.waiting.isSome := by
        rw [full]
        rfl
      have good' := @good_step time _ good e
      have honest' := @honest_step time _ good honest _ (quiet_unhung run.1)
      rcases @waits time _ good _ run.1 here (good.active here on enabled) with gone | ⟨_, cmd, less, left⟩
      · exact empty_run good' honest' gone run.2
      · rw [elapsed] at some_ long
        refine ih good' honest' ?_ ?_ run.2 (by omega) (by omega)
        · unfold Acia.dtr at on ⊢
          rw [cmd]
          exact on
        · unfold Acia.txOn at enabled ⊢
          rw [cmd]
          exact enabled

/-- In every run without a programmed reset while a byte waits the bit is clear exactly while one
does, and a program that polls it proceeds. In every run in which a byte that waits is left alone
every byte that was taken is sent once, in order and masked. -/
theorem transmit_empty (time : BitTime) (base clockHz : BitVec 32) (link : Link) (es : List Event) :
    let start := Session.start time base clockHz link
    let s := es.foldl (Session.step time) start
    (Guarded (Session.step time) Unhung start es →
      (∀ connected addr v, (addr &&& 3).toNat = 1 → s.acia.ioPeek connected addr = some v →
        (v &&& SR_TDRE = 0 ↔ s.waiting.isSome)) ∧
      ∀ more, Guarded (Session.step time) Quiet s more → s.acia.dtr = true → s.acia.txOn = true →
        0 < elapsed more → s.acia.m_txCountdown.toNat ≤ elapsed more →
        tdre (more.foldl (Session.step time) s).acia = true) ∧
    (Guarded (Session.step time) Patient start es → Delivered s) := by
  intro start s
  have good : Good start := good_start base clockHz link
  have honest : Honest start := by
    show decide (SR_TDRE &&& SR_TDRE ≠ 0) = true
    decide
  refine ⟨fun run => ?_, fun run => ?_⟩
  · obtain ⟨good', honest'⟩ := honest_run good honest run
    refine ⟨fun connected addr v status read => ?_, fun more quiet on enabled some_ long =>
      let_go good' honest' on enabled quiet some_ long⟩
    have bit : (v &&& SR_TDRE ≠ 0 : Bool) = s.waiting.isNone := (tdre_read connected status read).symm.trans honest'
    rw [← Option.not_isNone, ← bit]
    simp
  · exact delivered_run good honest ⟨[], rfl, rfl, rfl⟩ run

/-- As many cycles as bits. -/
def bitPerCycle : BitTime := fun _ _ bits => BitVec.ofNat 64 bits

/-- DTR and the transmitter on, two bytes one after the other, then a programmed reset. -/
def twoBytes : List Event :=
  [.write 0xDE02 0x09, .write 0xDE00 0x41, .tick 12 [], .read true 0xDE01, .write 0xDE03 0x60, .write 0xDE00 0xE2,
    .tick 12 [], .write 0xDE01 0]

theorem transmit_empty_two :
    let start := Session.start bitPerCycle 0xDE00 1000000 .None
    let waiting := (twoBytes.take 6).foldl (Session.step bitPerCycle) start
    let s := twoBytes.foldl (Session.step bitPerCycle) start
    Guarded (Session.step bitPerCycle) Patient start twoBytes ∧ s.acia.sent = [0x41, 0x02] ∧ Delivered s ∧
      waiting.waiting = some 0xE2 ∧
      tdre (([.read true 0xDE01, .tick 12 []] : List Event).foldl (Session.step bitPerCycle) waiting).acia = true := by
  intro start waiting s
  have patient : Guarded (Session.step bitPerCycle) Patient start twoBytes := by decide
  refine ⟨patient, by decide, (transmit_empty bitPerCycle 0xDE00 1000000 .None twoBytes).2 patient,
    by decide, ?_⟩
  have unhung : Guarded (Session.step bitPerCycle) Unhung start (twoBytes.take 6) := by decide
  exact ((transmit_empty bitPerCycle 0xDE00 1000000 .None (twoBytes.take 6)).1 unhung).2
    [.read true 0xDE01, .tick 12 []] (by decide) (by decide) (by decide) (by decide)
    (by decide)

/-- A programmed reset drops the byte that waits and leaves the bit clear; a byte written before
the last one went takes its place. -/
theorem dropped_and_lost :
    let start := Session.start bitPerCycle 0xDE00 1000000 .None
    let hung := ([.write 0xDE02 0x09, .write 0xDE00 0x41, .write 0xDE01 0, .write 0xDE02 0x09, .tick 1000 []] :
      List Event).foldl (Session.step bitPerCycle) start
    let lost := ([.write 0xDE02 0x09, .write 0xDE00 0x41, .write 0xDE00 0x42, .tick 1000 [], .tick 1000 []] :
      List Event).foldl (Session.step bitPerCycle) start
    (tdre hung.acia = false ∧ hung.waiting = none ∧ hung.acia.sent = []) ∧
      lost.taken = [0x41] ∧ lost.waiting = none ∧ lost.acia.sent = [0x42] := by
  decide

end Mmemu.Guarantees.TransmitEmpty
