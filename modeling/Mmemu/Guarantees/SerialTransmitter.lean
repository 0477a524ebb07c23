import Mathlib.Tactic.Tauto
import Mmemu.Source.Pokey

/-!
# POKEY: every byte is sent once and in order

What has been written to SEROUT is what has been handed to the serial output, followed by what is
still in the transmitter, unless a byte was written over another that waited. The transmitter is idle
exactly when nothing is in it, forty underflows of channel 4 empty it, and the interrupt line always
has its level. All this holds whatever is done to the chip while it calls out.
-/
namespace Mmemu.Guarantees.SerialTransmitter
open Mmemu.Source.Pokey Mmemu.Source.Pokey.Machine

/-! ## What is in the transmitter -/

/-- The bytes that have not been handed over yet. -/
def inFlight (p : POKEY) : List Byte :=
  if p.m_txLoading then [p.m_txBuf]
  else (if p.m_txBusy && decide (0 < p.m_txBits) then [p.m_txShift] else []) ++
    if p.m_txBufFull then [p.m_txBuf] else []

/-- The underflows of channel 4 that it takes to hand them over. -/
def remaining (p : POKEY) : ℕ :=
  if !p.m_txBusy then 0
  else if p.m_txLoading then 22 - p.m_txHalf.toNat
  else 2 * p.m_txBits - p.m_txHalf.toNat + if p.m_txBufFull then 20 else 0

/-- What holds of the transmitter wherever the chip calls out, but for the line. -/
structure Core (m : Machine) : Prop where
  bytes : m.overrun = false → m.written = m.sent ++ inFlight m.pokey
  idle : m.pokey.m_txBusy = false → m.pokey.m_txLoading = false ∧ m.pokey.m_txBufFull = false
  loading : m.pokey.m_txLoading = true → m.pokey.m_txBufFull = true
  bits : m.pokey.m_txBits ≤ 10
  pace : m.since + remaining m.pokey ≤ 40 ∨ remaining m.pokey = 0

/-- The line has its level. -/
def Level (m : Machine) : Prop := m.line = (m.pokey.pending != 0)

structure Inv (m : Machine) : Prop extends Core m where
  level : Level m

/-- Between calls a busy transmitter has a bit to send. -/
def Rest (m : Machine) : Prop :=
  m.pokey.m_txBusy = true → m.pokey.m_txLoading = false → 0 < m.pokey.m_txBits

/-- What is done to the chip from outside leaves a busy transmitter as it is but for its buffer, and
an idle one to begin with a byte. -/
structure Kept (p p' : POKEY) : Prop where
  busy : p.m_txBusy = true → p'.m_txBusy = true ∧ p'.m_txLoading = p.m_txLoading ∧ p'.m_txBits = p.m_txBits
  idle : p.m_txBusy = false → p'.m_txBusy = true → p'.m_txLoading = true

theorem Kept.refl (p : POKEY) : Kept p p :=
  ⟨fun busy => ⟨busy, rfl, rfl⟩, fun idle busy => by rw [idle] at busy; cases busy⟩

theorem Kept.trans {p p' p'' : POKEY} (one : Kept p p') (two : Kept p' p'') : Kept p p'' := by
  refine ⟨fun busy => ?_, fun idle busy'' => ?_⟩
  · obtain ⟨busy', loading, bits⟩ := one.busy busy
    obtain ⟨busy'', loading', bits'⟩ := two.busy busy'
    exact ⟨busy'', loading'.trans loading, bits'.trans bits⟩
  · cases busy' : p'.m_txBusy with
    | true => exact (two.busy busy').2.1.trans (one.idle idle busy')
    | false => exact two.idle busy' busy''

theorem Kept.rest {m m' : Machine} (kept : Kept m.pokey m'.pokey) (rest : Rest m) : Rest m' := by
  intro busy' loading'
  cases busy : m.pokey.m_txBusy with
  | true =>
    obtain ⟨-, loading, bits⟩ := kept.busy busy
    rw [bits]
    exact rest busy (loading.symm.trans loading')
  | false =>
    rw [kept.idle busy busy'] at loading'
    cases loading'

/-! ## What the rest of the chip leaves alone -/

/-- The transmitter and the interrupts are the same. -/
structure Same (p p' : POKEY) : Prop where
  irqst : p'.m_irqst = p.m_irqst
  irqen : p'.m_irqen = p.m_irqen
  busy : p'.m_txBusy = p.m_txBusy
  bits : p'.m_txBits = p.m_txBits
  shift : p'.m_txShift = p.m_txShift
  full : p'.m_txBufFull = p.m_txBufFull
  buf : p'.m_txBuf = p.m_txBuf
  half : p'.m_txHalf = p.m_txHalf
  loading : p'.m_txLoading = p.m_txLoading

namespace Same
variable {p p' p'' : POKEY}

theorem refl (p : POKEY) : Same p p := ⟨rfl, rfl, rfl, rfl, rfl, rfl, rfl, rfl, rfl⟩

theorem trans (one : Same p p') (two : Same p' p'') : Same p p'' where
  irqst := two.irqst.trans one.irqst
  irqen := two.irqen.trans one.irqen
  busy := two.busy.trans one.busy
  bits := two.bits.trans one.bits
  shift := two.shift.trans one.shift
  full := two.full.trans one.full
  buf := two.buf.trans one.buf
  half := two.half.trans one.half
  loading := two.loading.trans one.loading

theorem kept (same : Same p p') : Kept p p' := by
  refine ⟨fun busy => ⟨same.busy.trans busy, same.loading, same.bits⟩, fun idle busy => ?_⟩
  rw [same.busy, idle] at busy
  cases busy

theorem inFlight (same : Same p p') : inFlight p' = SerialTransmitter.inFlight p := by
  unfold SerialTransmitter.inFlight
  rw [same.loading, same.buf, same.busy, same.bits, same.shift, same.full]

theorem remaining (same : Same p p') : remaining p' = SerialTransmitter.remaining p := by
  unfold SerialTransmitter.remaining
  rw [same.busy, same.loading, same.half, same.bits, same.full]

theorem pending (same : Same p p') : p'.pending = p.pending := by
  unfold POKEY.pending
  rw [same.irqst, same.irqen, same.busy]

/-- The invariant with another state of the rest of the chip. -/
theorem inv {m : Machine} (same : Same m.pokey p') (inv : Inv m) : Inv { m with pokey := p' } where
  bytes plain := by
    rw [same.inFlight]
    exact inv.bytes plain
  idle idle := by
    rw [same.loading, same.full]
    exact inv.idle (same.busy.symm.trans idle)
  loading loading := same.full.trans (inv.loading (same.loading.symm.trans loading))
  bits := same.bits.trans_le inv.bits
  pace := by
    rw [same.remaining]
    exact inv.pace
  level := inv.level.trans (by rw [same.pending])

end Same

theorem counter_same (p : POKEY) (ch : ℕ) (n : ℤ) : Same p (p.counter ch n) :=
  ⟨rfl, rfl, rfl, rfl, rfl, rfl, rfl, rfl, rfl⟩

theorem output_same (p : POKEY) (ch : ℕ) (on : Bool) : Same p (p.output ch on) :=
  ⟨rfl, rfl, rfl, rfl, rfl, rfl, rfl, rfl, rfl⟩

theorem reloadChannel_same (p : POKEY) (ch : ℕ) : Same p (p.reloadChannel ch) := by
  unfold POKEY.reloadChannel
  dsimp only
  split <;> exact counter_same ..

theorem startTimers_same (channels : List ℕ) :
    ∀ p : POKEY, Same p (channels.foldl (fun p ch => (p.reloadChannel ch).output ch false) p) := by
  induction channels with
  | nil => exact .refl
  | cons ch channels ih => exact fun p => ((reloadChannel_same p ch).trans (output_same _ ch false)).trans (ih _)

theorem latch_same (p : POKEY) (latch latch' : ℕ → Bool) (one two : Prop) [Decidable one] [Decidable two] :
    Same p (if one then { p with m_filterLatch := latch }
      else if two then { p with m_filterLatch := latch' } else p) := by
  split
  · exact ⟨rfl, rfl, rfl, rfl, rfl, rfl, rfl, rfl, rfl⟩
  · split
    · exact ⟨rfl, rfl, rfl, rfl, rfl, rfl, rfl, rfl, rfl⟩
    · exact .refl p

theorem distort_same (ch : ℕ) (p : POKEY) : Same p (distort ch p) := by
  unfold distort
  have shaped (one : Prop) [Decidable one] (bit : Bool) : Same p (if one then p.output ch bit else p) := by
    split
    · exact output_same ..
    · exact .refl p
  exact (shaped _ _).trans (latch_same _ _ _ _ _)

theorem clockPolys_same (p : POKEY) (running : Bool) : Same p (if running then p.clockPolys else p) := by
  split
  · exact ⟨rfl, rfl, rfl, rfl, rfl, rfl, rfl, rfl, rfl⟩
  · exact .refl p

/-- A byte that finds the buffer empty follows what is in the transmitter. -/
theorem writeSerout_core {m : Machine} (val : Byte) (inv : Inv m) : Core (writeSerout val m) := by
  have bits := inv.bits
  cases busy : m.pokey.m_txBusy with
  | false =>
    obtain ⟨loading, full⟩ := inv.idle busy
    refine ⟨fun plain => ?_, ?_, ?_, ?_, ?_⟩
    · have before := inv.bytes (by simpa [writeSerout, full] using plain)
      simpa [writeSerout, inFlight, busy, loading, full] using before
    all_goals simp [writeSerout, remaining, busy, bits]
  | true =>
    refine ⟨fun plain => ?_, ?_, ?_, ?_, Or.inl ?_⟩
    · obtain ⟨plain, full⟩ : m.overrun = false ∧ m.pokey.m_txBufFull = false := by
        simpa [writeSerout] using plain
      have loading : m.pokey.m_txLoading = false := by
        by_contra loading
        exact absurd (inv.loading (by simpa using loading)) (by simp [full])
      simp [writeSerout, inFlight, busy, loading, inv.bytes plain, full]
    · simp [writeSerout, busy]
    · simp [writeSerout, busy]
    · simpa [writeSerout, busy] using bits
    · simp only [writeSerout, busy, remaining, Bool.not_true, Bool.false_eq_true, if_false, if_true]
      split <;> omega

theorem writeSerout_kept (val : Byte) (m : Machine) : Kept m.pokey (writeSerout val m).pokey := by
  refine ⟨fun busy => ?_, fun idle _ => ?_⟩ <;> simp [writeSerout, *]

/-! ## Calls out -/

/-- A reply keeps the invariant and a busy transmitter. -/
def Polite (reply : Machine → Machine) : Prop :=
  ∀ m, Inv m → Inv (reply m) ∧ Kept m.pokey (reply m).pokey

section
variable {reply : Machine → Machine} (polite : Polite reply) {m : Machine}
include polite

theorem updateIrqs_ok (core : Core m) :
    Inv (updateIrqs reply m) ∧ Kept m.pokey (updateIrqs reply m).pokey :=
  polite { m with line := m.pokey.pending != 0 }
    ⟨⟨core.bytes, core.idle, core.loading, core.bits, core.pace⟩, rfl⟩

theorem raiseIrq_ok (bit : Byte) (inv : Inv m) :
    Inv (raiseIrq reply bit m) ∧ Kept m.pokey (raiseIrq reply bit m).pokey := by
  unfold raiseIrq
  split
  · obtain ⟨inv', kept⟩ :=
      updateIrqs_ok polite (m := { m with pokey := { m.pokey with m_irqst := m.pokey.m_irqst &&& ~~~bit } })
        ⟨inv.bytes, inv.idle, inv.loading, inv.bits, inv.pace⟩
    exact ⟨inv', ⟨kept.busy, kept.idle⟩⟩
  · exact ⟨inv, .refl _⟩

theorem ioWrite_ok (addr : BitVec 32) (val : Byte) (inv : Inv m) :
    Inv (ioWrite reply addr val m) ∧ Kept m.pokey (ioWrite reply addr val m).pokey := by
  have stay {p' : POKEY} (same : Same m.pokey p') :
      Inv { m with pokey := p' } ∧ Kept m.pokey p' := ⟨same.inv inv, same.kept⟩
  have plain (regs : ℕ → Byte) : Same m.pokey { m.pokey with m_regs := regs } :=
    ⟨rfl, rfl, rfl, rfl, rfl, rfl, rfl, rfl, rfl⟩
  unfold ioWrite
  dsimp only
  split
  · exact stay ((plain _).trans (startTimers_same _ _))
  split
  · exact stay ⟨rfl, rfl, rfl, rfl, rfl, rfl, rfl, rfl, rfl⟩
  split
  · obtain ⟨inv', kept⟩ := updateIrqs_ok polite (writeSerout_core val ((plain _).inv inv))
    refine ⟨inv', Kept.trans ?_ kept⟩
    exact (plain _).kept.trans (writeSerout_kept val { m with pokey := { m.pokey with m_regs := _ } })
  split
  · obtain ⟨inv', kept⟩ := updateIrqs_ok polite (m := { m with pokey := { m.pokey with
        m_regs := Function.update m.pokey.m_regs (addr &&& 0x0F).toNat val
        m_irqen := val
        m_irqst := m.pokey.m_irqst ||| ~~~val } })
      ⟨inv.bytes, inv.idle, inv.loading, inv.bits, inv.pace⟩
    exact ⟨inv', ⟨kept.busy, kept.idle⟩⟩
  split
  · split
    · exact stay ⟨rfl, rfl, rfl, rfl, rfl, rfl, rfl, rfl, rfl⟩
    · exact stay (plain _)
  · exact stay (plain _)

theorem perform_ok (action : Action) : Polite (perform reply action) := by
  intro m inv
  have stay {p' : POKEY} (same : Same m.pokey p') (bit : Byte) :
      Inv (raiseIrq reply bit { m with pokey := p' }) ∧
        Kept m.pokey (raiseIrq reply bit { m with pokey := p' }).pokey := by
    obtain ⟨inv', kept⟩ := raiseIrq_ok polite bit (same.inv inv)
    exact ⟨inv', same.kept.trans kept⟩
  cases action with
  | ioWrite addr val => exact ioWrite_ok polite addr val inv
  | keyDown code =>
    change Inv (keyDown reply code m) ∧ Kept m.pokey (keyDown reply code m).pokey
    unfold keyDown
    split
    · exact ⟨inv, .refl _⟩
    · have same : Same m.pokey { m.pokey with m_kbcode := code, m_skstat := m.pokey.m_skstat &&& ~~~0x04 } :=
        ⟨rfl, rfl, rfl, rfl, rfl, rfl, rfl, rfl, rfl⟩
      exact stay same _
  | keyUp =>
    have same : Same m.pokey { m.pokey with m_skstat := m.pokey.m_skstat ||| 0x04 } :=
      ⟨rfl, rfl, rfl, rfl, rfl, rfl, rfl, rfl, rfl⟩
    exact ⟨same.inv inv, same.kept⟩
  | setShift down =>
    have same : Same m.pokey { m.pokey with
        m_skstat := if down then m.pokey.m_skstat &&& ~~~0x08 else m.pokey.m_skstat ||| 0x08 } :=
      ⟨rfl, rfl, rfl, rfl, rfl, rfl, rfl, rfl, rfl⟩
    exact ⟨same.inv inv, same.kept⟩
  | breakKey => exact raiseIrq_ok polite _ inv
  | receiveSerial byte =>
    have same : Same m.pokey { m.pokey with m_serin := byte } := ⟨rfl, rfl, rfl, rfl, rfl, rfl, rfl, rfl, rfl⟩
    exact stay same _

end

/-- Whatever is done in a call, to any depth, keeps the invariant. -/
theorem answer_polite (reply : Reply) : Polite (answer reply) := by
  induction reply with
  | done => exact fun m inv => ⟨inv, .refl _⟩
  | act action inside rest inside_polite rest_polite =>
    intro m inv
    obtain ⟨inv', kept⟩ := perform_ok inside_polite action m inv
    obtain ⟨inv'', kept'⟩ := rest_polite _ inv'
    exact ⟨inv'', kept.trans kept'⟩

theorem called_polite : Polite called := by
  intro m inv
  unfold called
  split
  · exact ⟨inv, .refl _⟩
  · exact answer_polite _ _ ⟨⟨inv.bytes, inv.idle, inv.loading, inv.bits, inv.pace⟩, inv.level⟩

/-! ## The transmitter -/

/-- The invariant between calls. -/
structure Steady (m : Machine) : Prop extends Inv m where
  rest : Rest m

theorem Same.steady {m : Machine} {p' : POKEY} (same : Same m.pokey p') (steady : Steady m) :
    Steady { m with pokey := p' } :=
  ⟨same.inv steady.toInv, same.kept.rest steady.rest⟩

theorem Steady.raise {m : Machine} (bit : Byte) (steady : Steady m) : Steady (raiseIrq called bit m) := by
  obtain ⟨inv, kept⟩ := raiseIrq_ok called_polite bit steady.toInv
  exact ⟨inv, kept.rest steady.rest⟩

/-- The byte of the buffer is the only one that is left when it is loaded. -/
theorem loadShift_steady {m : Machine} (bytes : m.overrun = false → m.written = m.sent ++ [m.pokey.m_txBuf])
    (busy : m.pokey.m_txBusy = true) (loading : m.pokey.m_txLoading = false) (pace : m.since + 20 ≤ 40)
    (level : Level m) : Steady (loadShift m) := by
  unfold loadShift
  refine Steady.raise _ ⟨⟨⟨fun plain => ?_, ?_, ?_, le_rfl, Or.inl ?_⟩, level⟩, fun _ _ => Nat.succ_pos 9⟩
  · simpa [inFlight, busy, loading] using bytes plain
  · simp [busy]
  · simp [loading]
  · simp only [remaining, busy, loading, Bool.not_true, Bool.false_eq_true, if_false]
    omega

/-- The last bit of a byte. It is handed over first; whoever takes it may write the next one, and that
one is loaded at once. -/
theorem byteSent_steady {m : Machine}
    (bytes : m.overrun = false →
      m.written = m.sent ++ [m.pokey.m_txShift] ++ if m.pokey.m_txBufFull then [m.pokey.m_txBuf] else [])
    (busy : m.pokey.m_txBusy = true) (loading : m.pokey.m_txLoading = false) (bits : m.pokey.m_txBits = 0)
    (pace : m.pokey.m_txBufFull = true → m.since + 20 ≤ 40) (level : Level m) : Steady (byteSent m) := by
  have inv : Inv { m with sent := m.sent ++ [m.pokey.m_txShift] } := by
    refine ⟨⟨fun plain => ?_, ?_, ?_, ?_, ?_⟩, level⟩
    · simpa [inFlight, busy, loading, bits] using bytes plain
    · simp [busy]
    · simp [loading]
    · simp [bits]
    · cases full : m.pokey.m_txBufFull with
      | true => exact Or.inl (by simpa [remaining, busy, loading, bits, full] using pace full)
      | false => exact Or.inr (by simp [remaining, busy, loading, bits, full])
  obtain ⟨inv, kept⟩ := called_polite _ inv
  obtain ⟨busy, still, none⟩ := kept.busy busy
  replace loading := still.trans loading
  replace bits := none.trans bits
  unfold byteSent
  generalize called { m with sent := m.sent ++ [m.pokey.m_txShift] } = m' at inv busy loading bits
  dsimp only
  split
  · next full =>
    have steady : Steady (loadShift m') := by
      refine loadShift_steady (fun plain => ?_) busy loading ?_ inv.level
      · simpa [inFlight, busy, loading, bits, full] using inv.bytes plain
      · simpa [remaining, busy, loading, bits, full] using inv.pace
    obtain ⟨inv', kept'⟩ := updateIrqs_ok called_polite steady.toCore
    exact ⟨inv', kept'.rest steady.rest⟩
  · next full =>
    -- nothing is left: the transmitter is idle before the line is set
    have core : Core { m' with pokey := { m'.pokey with m_txBusy := false } } := by
      refine ⟨fun plain => ?_, ?_, ?_, ?_, Or.inr rfl⟩
      · simpa [inFlight, busy, loading, bits, full] using inv.bytes plain
      · simpa [loading] using full
      · simp [loading]
      · simp [bits]
    obtain ⟨inv', kept'⟩ := updateIrqs_ok called_polite core
    exact ⟨inv', kept'.rest (fun busy => by cases busy)⟩

/-- A busy transmitter between calls has underflows of channel 4 to wait for. -/
theorem remaining_pos {m : Machine} (steady : Steady m) (busy : m.pokey.m_txBusy = true) : 0 < remaining m.pokey := by
  have half := Bool.toNat_le m.pokey.m_txHalf
  simp only [remaining, busy, Bool.not_true, Bool.false_eq_true, if_false]
  split
  · omega
  · next loading =>
    have bits := steady.rest busy (by simpa using loading)
    omega

theorem serialBit_steady {m : Machine} (steady : Steady m) : Steady (serialBit m) := by
  have bytes := steady.bytes
  have small := steady.bits
  have buffered := steady.loading
  unfold serialBit
  dsimp only
  split
  · next idle =>
    have none : remaining m.pokey = 0 := by simp_all [remaining]
    exact ⟨⟨⟨bytes, steady.idle, buffered, small, Or.inr none⟩, steady.level⟩, steady.rest⟩
  next busy =>
  replace busy : m.pokey.m_txBusy = true := by simpa using busy
  have left := remaining_pos steady busy
  have pace : m.since + remaining m.pokey ≤ 40 := steady.pace.resolve_right (by omega)
  split
  · next half =>
    -- the first half of a bit
    refine ⟨⟨⟨bytes, steady.idle, buffered, small, Or.inl ?_⟩, steady.level⟩, steady.rest⟩
    replace half : m.pokey.m_txHalf = false := by simpa using half
    simp only [remaining, busy, half, Bool.not_true, Bool.not_false, Bool.false_eq_true, if_false,
      Bool.toNat_false, Bool.toNat_true] at left pace ⊢
    cases loading : m.pokey.m_txLoading with
    | true =>
      simp only [loading, if_true] at pace ⊢
      omega
    | false =>
      have bits := steady.rest busy loading
      simp only [loading, Bool.false_eq_true, if_false] at pace ⊢
      omega
  next half =>
  replace half : m.pokey.m_txHalf = true := by simpa using half
  simp only [remaining, busy, half, Bool.not_true, Bool.false_eq_true, if_false, Bool.toNat_true] at left pace
  split
  · next loading =>
    refine loadShift_steady ?_ busy rfl ?_ steady.level
    · simpa [inFlight, loading] using bytes
    · rw [if_pos loading] at pace
      change m.since + 1 + 20 ≤ 40
      omega
  next loading =>
  rw [if_neg loading] at left pace
  have bits := steady.rest busy (by simpa using loading)
  have whole (plain : m.overrun = false) :
      m.written = m.sent ++ [m.pokey.m_txShift] ++ if m.pokey.m_txBufFull then [m.pokey.m_txBuf] else [] := by
    simpa [inFlight, loading, busy, bits] using bytes plain
  split
  · next more =>
    refine ⟨⟨⟨fun plain => ?_, steady.idle, buffered, ?_, Or.inl ?_⟩, steady.level⟩, fun _ _ => more⟩
    · simpa [inFlight, loading, busy, more] using whole plain
    · exact (Nat.sub_le ..).trans small
    · simp only [remaining, busy, half, loading, Bool.not_true, Bool.false_eq_true, if_false, Bool.toNat_false]
      omega
  · next last =>
    refine byteSent_steady whole busy (by simpa using loading) (Nat.eq_zero_of_not_pos last) ?_ steady.level
    intro full
    change m.pokey.m_txBufFull = true at full
    rw [if_pos full] at pace
    change m.since + 1 + 20 ≤ 40
    omega

theorem underflow_steady (ch : ℕ) {m : Machine} (steady : Steady m) : Steady (underflow ch m) := by
  have raised : Steady (if ch = 0 then raiseIrq called IRQ_TIMER1 m
      else if ch = 1 then raiseIrq called IRQ_TIMER2 m
      else if ch = 3 then raiseIrq called IRQ_TIMER4 m
      else m) := by
    split_ifs
    · exact steady.raise _
    · exact steady.raise _
    · exact steady.raise _
    · exact steady
  unfold underflow
  generalize (if ch = 0 then raiseIrq called IRQ_TIMER1 m
      else if ch = 1 then raiseIrq called IRQ_TIMER2 m
      else if ch = 3 then raiseIrq called IRQ_TIMER4 m
      else m) = m' at raised
  have distorted := (distort_same ch m'.pokey).steady raised
  dsimp only
  split
  · exact serialBit_steady distorted
  · exact distorted

theorem clockChannel_steady (clock : Bool) (ch : ℕ) {m : Machine} (steady : Steady m) :
    Steady (clockChannel clock ch m) := by
  unfold clockChannel
  dsimp only
  have counted := (counter_same m.pokey ch ((m.pokey.m_ch ch).counter - 1)).steady steady
  split
  · split
    · exact underflow_steady ch ((reloadChannel_same _ ch).steady counted)
    · exact counted
  · exact steady

theorem cycle_steady (ctl : Byte) (running : Bool) {m : Machine} (steady : Steady m) :
    Steady (cycle ctl running m) := by
  unfold cycle
  dsimp only
  generalize hp : (if running then m.pokey.clockPolys else m.pokey) = p
  have polys : Same m.pokey p := hp ▸ clockPolys_same m.pokey running
  have divided (div28 div114 : ℕ) : Same m.pokey { p with m_div28 := div28, m_div114 := div114 } :=
    polys.trans ⟨rfl, rfl, rfl, rfl, rfl, rfl, rfl, rfl, rfl⟩
  split_ifs
  all_goals repeat' apply clockChannel_steady
  all_goals exact (divided _ _).steady steady

theorem cycles_steady (ctl : Byte) (running : Bool) (n : ℕ) :
    ∀ {m : Machine}, Steady m → Steady (cycles ctl running n m) := by
  induction n with
  | zero => exact fun steady => steady
  | succ n ih => exact fun steady => ih (cycle_steady ctl running steady)

theorem tick_steady (n : ℕ) {m : Machine} (steady : Steady m) : Steady (tick n m) := cycles_steady _ _ n steady

/-! ## Runs -/

/-- What happens to the chip: an action with the reply to the call that it makes, or cycles of its
clock with the replies to the calls that these make. -/
inductive Event where
  | act (action : Action) (reply : Reply)
  | tick (cycles : ℕ) (replies : List Reply)

def step (m : Machine) : Event → Machine
  | .act action reply => perform (answer reply) action m
  | .tick n replies => tick n { m with replies := replies }

def run (events : List Event) : Machine := events.foldl step Machine.initial

theorem step_steady {m : Machine} (steady : Steady m) (event : Event) : Steady (step m event) := by
  cases event with
  | act action reply =>
    obtain ⟨inv, kept⟩ := perform_ok (answer_polite reply) action m steady.toInv
    exact ⟨inv, kept.rest steady.rest⟩
  | tick n replies =>
    exact tick_steady n ⟨⟨⟨steady.bytes, steady.idle, steady.loading, steady.bits, steady.pace⟩, steady.level⟩,
      steady.rest⟩

theorem initial_steady : Steady Machine.initial where
  bytes _ := rfl
  idle _ := ⟨rfl, rfl⟩
  loading loading := by cases loading
  bits := Nat.zero_le 10
  pace := Or.inr rfl
  level := rfl
  rest busy := by cases busy

theorem run_steady (events : List Event) : Steady (run events) :=
  List.foldlRecOn events step initial_steady fun _ steady event _ => step_steady steady event

theorem inFlight_eq_nil {m : Machine} (steady : Steady m) : inFlight m.pokey = [] ↔ m.pokey.m_txBusy = false := by
  constructor
  · intro none
    by_contra busy
    rw [Bool.not_eq_false] at busy
    cases loading : m.pokey.m_txLoading with
    | true => simp [inFlight, loading] at none
    | false => simp [inFlight, loading, busy, steady.rest busy loading] at none
  · intro idle
    obtain ⟨loading, full⟩ := steady.idle idle
    simp [inFlight, idle, loading, full]

theorem remaining_eq_zero {m : Machine} (steady : Steady m) (none : remaining m.pokey = 0) :
    m.pokey.m_txBusy = false := by
  by_contra busy
  exact absurd none (remaining_pos steady (by simpa using busy)).ne'

theorem pending_ne_zero (p : POKEY) :
    p.pending ≠ 0 ↔ ~~~p.m_irqst &&& p.m_irqen ≠ 0 ∨ (p.m_txBusy = false ∧ p.m_irqen &&& IRQ_SERDONE ≠ 0) := by
  have set (b : Byte) : b ||| IRQ_SERDONE ≠ 0 := by
    intro none
    have bit := congrArg (·.getLsbD 3) none
    simp [IRQ_SERDONE] at bit
  unfold POKEY.pending
  dsimp only
  split
  · next done =>
    simp only [Bool.and_eq_true, Bool.not_eq_true', bne_iff_ne] at done
    exact iff_of_true (set _) (Or.inr done)
  · next done =>
    simp only [Bool.and_eq_true, Bool.not_eq_true', bne_iff_ne] at done
    rw [or_iff_left done]

theorem ioRead_done (p : POKEY) :
    p.ioRead 0x0E &&& IRQ_SERDONE = 0 ↔ p.m_txBusy = false ∧ p.m_irqen &&& IRQ_SERDONE ≠ 0 := by
  have cleared (b : Byte) : b &&& ~~~IRQ_SERDONE &&& IRQ_SERDONE = 0 := by
    rw [BitVec.and_assoc, BitVec.and_comm (~~~IRQ_SERDONE), BitVec.and_not_self]
    exact BitVec.and_zero
  have set (b : Byte) : (b ||| IRQ_SERDONE) &&& IRQ_SERDONE ≠ 0 := by
    intro none
    have bit := congrArg (·.getLsbD 3) none
    simp [IRQ_SERDONE] at bit
  change (if !p.m_txBusy && p.m_irqen &&& IRQ_SERDONE != 0 then p.m_irqst &&& ~~~IRQ_SERDONE
    else p.m_irqst ||| IRQ_SERDONE) &&& IRQ_SERDONE = 0 ↔ _
  split
  · next done =>
    simp only [Bool.and_eq_true, Bool.not_eq_true', bne_iff_ne] at done
    exact iff_of_true (cleared _) done
  · next done =>
    simp only [Bool.and_eq_true, Bool.not_eq_true', bne_iff_ne] at done
    exact iff_of_false (set _) done

/-- In every run the line has its level, and unless a byte was written over another, what was handed
over is what was written but for what is in the transmitter. Then it is idle exactly when everything
has been handed over, IRQST says so, and forty underflows without a write are enough for it. -/
theorem sends_in_order (events : List Event) :
    ((run events).line = true ↔
      ~~~(run events).pokey.m_irqst &&& (run events).pokey.m_irqen ≠ 0 ∨
        ((run events).pokey.m_txBusy = false ∧ (run events).pokey.m_irqen &&& IRQ_SERDONE ≠ 0)) ∧
    ((run events).overrun = false →
      (run events).written = (run events).sent ++ inFlight (run events).pokey ∧
      ((run events).pokey.m_txBusy = false ↔ (run events).sent = (run events).written) ∧
      ((run events).pokey.ioRead 0x0E &&& IRQ_SERDONE = 0 ↔
        (run events).sent = (run events).written ∧ (run events).pokey.m_irqen &&& IRQ_SERDONE ≠ 0) ∧
      (40 ≤ (run events).since → (run events).sent = (run events).written)) := by
  have steady := run_steady events
  generalize run events = m at steady
  refine ⟨?_, fun plain => ?_⟩
  · rw [steady.level, ← pending_ne_zero, bne_iff_ne]
  · have written := steady.bytes plain
    have idle : m.pokey.m_txBusy = false ↔ m.sent = m.written := by
      rw [← inFlight_eq_nil steady, written, List.self_eq_append_right]
    refine ⟨written, idle, by rw [ioRead_done, idle], fun waited => idle.mp ?_⟩
    refine remaining_eq_zero steady ?_
    rcases steady.pace with pace | none
    · omega
    · exact none

end Mmemu.Guarantees.SerialTransmitter
