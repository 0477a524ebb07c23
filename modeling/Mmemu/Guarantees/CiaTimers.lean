import Mmemu.Library.Runs
import Mmemu.Library.Schedules
import Mmemu.Source.Cia6526

/-!
# CIA 6526: only the total of the cycles counts

With both timers counting Phi2, ticking by `a` and then by `b` cycles leaves the
whole chip as one tick by `a + b` does: timers, control registers, interrupt
register, interrupt line and time of day. The three parts of a tick commute
because they meet only in flags that are raised, never cleared.
-/
namespace Mmemu.Guarantees.CiaTimeSlicing
open Mmemu.Library.TimeSlicing Mmemu.Source.Cia6526

/-- Timer B counts the clock: every input mode but the Timer A cascade does in
this chip model. -/
def CountsPhi2 (tb : Timer) : Prop := tb.cr &&& CRB_INMODE_MASK ≠ CRB_INMODE_TA

instance (tb : Timer) : Decidable (CountsPhi2 tb) := inferInstanceAs (Decidable (_ ≠ _))

/-! ## A bound on the time-of-day remainder -/

theorem tenthPeriod_pos (hz : BitVec 32) : 0 < tenthPeriod hz := by
  unfold tenthPeriod
  dsimp only
  split <;> omega

theorem tenthPeriod_lt (hz : BitVec 32) : tenthPeriod hz < 2 ^ 32 := by
  have bound := hz.isLt
  unfold tenthPeriod
  dsimp only
  split <;> omega

/-- The remainder is kept below the period, so it never nears the end of its
64 bits. -/
def AccumBounded (s : Cia) : Prop := s.todAccum < 2 ^ 32

theorem tickTOD_bounded (s : Cia) (n : ℕ) (h : AccumBounded s) : AccumBounded (tickTOD s n) := by
  unfold tickTOD
  split
  · exact h
  · have left := todLoop_left (tenthPeriod s.clockHz) s.tod s.alarm s.icr
      ((s.todAccum + n) % 2 ^ 64) (tenthPeriod_pos _)
    have small := Nat.mod_lt ((s.todAccum + n) % 2 ^ 64) (tenthPeriod_pos s.clockHz)
    have bound := tenthPeriod_lt s.clockHz
    simp only [AccumBounded, left]
    omega

@[simp] theorem tickTimerA_todAccum (s : Cia) (n : ℕ) : (tickTimerA s n).todAccum = s.todAccum := by
  unfold tickTimerA
  split <;> rfl

@[simp] theorem tickTimerB_todAccum (s : Cia) (n : ℕ) : (tickTimerB s n).todAccum = s.todAccum := by
  unfold tickTimerB
  dsimp only
  split
  · rfl
  · split <;> rfl

theorem tick_bounded (s : Cia) (n : ℕ) (h : AccumBounded s) : AccumBounded (tick s n) :=
  tickTOD_bounded _ n (by simpa [AccumBounded] using h)

theorem readReg_todAccum (s : Cia) (addr : BitVec 32) (peek : Bool) (pinsA pinsB : Option (BitVec 8)) :
    (readReg s addr peek pinsA pinsB).2.todAccum = s.todAccum := by
  unfold readReg
  split
  · rfl
  · split <;> first | rfl | (cases peek <;> rfl)

theorem ioWrite_todAccum (s : Cia) (addr : BitVec 32) (val : BitVec 8) :
    (ioWrite s addr val).2.todAccum = s.todAccum := by
  unfold ioWrite
  split
  · rfl
  · dsimp only
    split <;> first | rfl | (split <;> rfl)

theorem apply_bounded (s : Cia) (op : Op) (h : AccumBounded s) : AccumBounded (apply s op) := by
  cases op with
  | reset => exact Nat.two_pow_pos 32
  | read addr pinsA pinsB =>
    simpa only [AccumBounded, apply, ioRead, readReg_todAccum] using h
  | write addr val => simpa only [AccumBounded, apply, ioWrite_todAccum] using h
  | tick n => exact tick_bounded s n h
  | flagLine level =>
    simp only [AccumBounded, apply, setFlagLine]
    split <;> exact h
  | serialByte b =>
    simp only [AccumBounded, apply, receiveSerialByte]
    split <;> exact h
  | setClockHz hz => exact h
  | setBaseAddr addr => exact h
  | setOutputsReadPins on => exact h
  | setIrqLine line => exact h

theorem foldl_apply_bounded (ops : List Op) (s : Cia) (h : AccumBounded s) :
    AccumBounded (ops.foldl apply s) := by
  induction ops generalizing s with
  | nil => exact h
  | cons op rest ih => exact ih _ (apply_bounded s op h)

theorem Reachable.accumBounded {s : Cia} (h : Reachable s) : AccumBounded s := by
  obtain ⟨base, ops, rfl⟩ := h
  exact foldl_apply_bounded ops _ (Nat.two_pow_pos 32)

/-! ## A tick in parts -/

/-- The chip with new timers and with their flags raised. -/
def withTimers (s : Cia) (ta tb : Timer) (firesA firesB : Bool) : Cia :=
  { s with
    ta := ta
    tb := tb
    icr := raiseWhen firesB (Icr.raise ICR_TB) (raiseWhen firesA (Icr.raise ICR_TA) s.icr) }

theorem withTimers_withTimers (s : Cia) (ta tb ta' tb' : Timer) (a b a' b' : Bool) :
    withTimers (withTimers s ta tb a b) ta' tb' a' b' =
      withTimers s ta' tb' (a || a') (b || b') := by
  simp only [withTimers]
  rw [raiseWhen_comm (Icr.raise_comm ICR_TA ICR_TB), raiseWhen_or (Icr.raise_raise ICR_TB),
    raiseWhen_or (Icr.raise_raise ICR_TA)]

/-- The timer half of a tick with Timer B counting Phi2. -/
theorem timers_phi2 (s : Cia) (n : ℕ) (hn : n < 2 ^ 32) (hB : CountsPhi2 s.tb) :
    tickTimerB (tickTimerA s n) n =
      withTimers s (s.ta.tick n) (s.tb.tick n) (s.ta.tickFires n) (s.tb.tickFires n) := by
  have notCascade : ¬ s.tb.cr &&& CRB_INMODE_MASK = CRB_INMODE_TA := hB
  have fits : n % 4294967296 = n := Nat.mod_eq_of_lt hn
  unfold tickTimerA tickTimerB
  cases hA : s.ta.running <;> cases hTB : s.tb.running <;>
    simp [hA, hTB, notCascade, fits, timerLoop_eq, Timer.tick, Timer.tickFires, withTimers]

/-- One-shot stops clear only the start bit, so the input mode stays. -/
theorem advance_cr (t : Timer) (n : ℕ) :
    (t.advance n).cr = t.cr ∨ (t.advance n).cr = t.cr &&& ~~~CR_START := by
  induction t, n using timerLoop_induct with
  | short t n h => simp [Timer.advance_short t n h]
  | idle t => simp
  | oneShot t n hn h shot => simp [Timer.advance_oneShot t n hn h shot]
  | again t n hn h cont ih =>
    rw [Timer.advance_reload t n hn h cont]
    exact ih

theorem CountsPhi2.tick {t : Timer} (h : CountsPhi2 t) (n : ℕ) : CountsPhi2 (t.tick n) := by
  have keeps : (t.cr &&& ~~~CR_START) &&& CRB_INMODE_MASK = t.cr &&& CRB_INMODE_MASK := by
    rw [BitVec.and_assoc]
    rfl
  unfold Timer.tick
  split
  · rcases advance_cr t n with same | stopped
    · simpa only [CountsPhi2, same] using h
    · simpa only [CountsPhi2, stopped, keeps] using h
  · exact h

/-- The clock half of a tick does not look at the timers, and flags raised before
it are kept. -/
theorem tickTOD_withTimers (s : Cia) (ta tb : Timer) (n : ℕ) (a b : Bool) :
    tickTOD (withTimers s ta tb a b) n = withTimers (tickTOD s n) ta tb a b := by
  unfold tickTOD withTimers
  cases hR : s.todRunning
  · simp [hR]
  · simp [todLoop_raise]

theorem tickTOD_add (s : Cia) (a b : ℕ) (hs : AccumBounded s) (h : a + b < 2 ^ 32) :
    tickTOD (tickTOD s a) b = tickTOD s (a + b) := by
  have hacc : s.todAccum < 2 ^ 32 := hs
  by_cases hR : s.todRunning = true
  · have left := todLoop_left (tenthPeriod s.clockHz) s.tod s.alarm s.icr (s.todAccum + a)
      (tenthPeriod_pos _)
    have small := Nat.mod_lt (s.todAccum + a) (tenthPeriod_pos s.clockHz)
    have bound := tenthPeriod_lt s.clockHz
    have fitsA : (s.todAccum + a) % 2 ^ 64 = s.todAccum + a := Nat.mod_eq_of_lt (by omega)
    have fitsAB : (s.todAccum + (a + b)) % 2 ^ 64 = s.todAccum + a + b := by
      rw [Nat.mod_eq_of_lt (by omega), Nat.add_assoc]
    have fitsB : ((s.todAccum + a) % tenthPeriod s.clockHz + b) % 2 ^ 64 =
        (s.todAccum + a) % tenthPeriod s.clockHz + b := Nat.mod_eq_of_lt (by omega)
    have sum := todLoop_add (tenthPeriod s.clockHz) s.tod s.alarm s.icr (s.todAccum + a) b
    simp only [left] at sum
    simp only [tickTOD, hR, Bool.not_true, Bool.false_eq_true, if_false, fitsA, fitsAB, left,
      fitsB, sum]
  · simp [tickTOD, hR]

theorem tick_phi2 (s : Cia) (n : ℕ) (hn : n < 2 ^ 32) (hB : CountsPhi2 s.tb) :
    tick s n =
      withTimers (tickTOD s n) (s.ta.tick n) (s.tb.tick n) (s.ta.tickFires n)
        (s.tb.tickFires n) := by
  rw [tick, timers_phi2 s n hn hB]
  exact tickTOD_withTimers s _ _ n _ _

/-- Slicing, for every state whose time-of-day remainder is in bounds. -/
theorem slicesAt_of_bounded (s : Cia) (a b : ℕ) (hs : AccumBounded s) (hB : CountsPhi2 s.tb)
    (h : a + b < 2 ^ 32) : SlicesAt tick s a b := by
  have first := tick_phi2 s a (by omega) hB
  have ta : (tick s a).ta = s.ta.tick a := by rw [first]; rfl
  have tb : (tick s a).tb = s.tb.tick a := by rw [first]; rfl
  have later : CountsPhi2 (tick s a).tb := by
    rw [tb]
    exact hB.tick a
  have clock : tickTOD (tick s a) b =
      withTimers (tickTOD s (a + b)) (s.ta.tick a) (s.tb.tick a) (s.ta.tickFires a)
        (s.tb.tickFires a) := by
    rw [first, tickTOD_withTimers, tickTOD_add s a b hs h]
  calc
    tick (tick s a) b
        = withTimers (tickTOD (tick s a) b) ((s.ta.tick a).tick b) ((s.tb.tick a).tick b)
            ((s.ta.tick a).tickFires b) ((s.tb.tick a).tickFires b) := by
          rw [tick_phi2 (tick s a) b (by omega) later, ta, tb]
    _ = withTimers (tickTOD s (a + b)) (s.ta.tick (a + b)) (s.tb.tick (a + b))
          (s.ta.tickFires (a + b)) (s.tb.tickFires (a + b)) := by
          rw [clock, withTimers_withTimers, Timer.tick_add, Timer.tick_add,
            ← Timer.tickFires_add, ← Timer.tickFires_add]
    _ = tick s (a + b) := (tick_phi2 s (a + b) h hB).symm

/-- For every reachable chip with Timer B counting Phi2 (one-shot or continuous,
any latches and interrupt mask), two ticks equal one tick of the sum. -/
theorem tick_tick_eq_tick_add (s : Cia) (a b : ℕ) (hs : Reachable s) (hB : CountsPhi2 s.tb)
    (h : a + b < 2 ^ 32) : tick (tick s a) b = tick s (a + b) :=
  slicesAt_of_bounded s a b (Reachable.accumBounded hs) hB h

/-- The new chip at `$DC00`. -/
theorem tick_tick_eq_tick_add_init :
    tick (tick (init 0xDC00) 70000) 123456 = tick (init 0xDC00) (70000 + 123456) :=
  tick_tick_eq_tick_add (init 0xDC00) 70000 123456 ⟨0xDC00, [], rfl⟩ (by decide) (by decide)

end Mmemu.Guarantees.CiaTimeSlicing

/-!
# CIA 6526: Timer B counting Timer A underflows

`Cascade` is the 32-bit counter the two timers are meant to form: each time
Timer A reaches zero, Timer B goes down by one. The chip model steps Timer B
once per tick while the Timer A flag is pending, whatever the number of
underflows, so it follows the counter exactly along the runs in which every tick
meets `OnePerTick`.
-/
namespace Mmemu.Guarantees.CiaCascade
open Mmemu.Library.Countdown Mmemu.Library.GuardedRun Mmemu.Source.Cia6526
open Mmemu.Library.TimeSlicing

/-! ## The counter the timers are meant to form -/

structure Cascade where
  counterA : ℕ
  counterB : ℕ
  flagA : Bool
  flagB : Bool
  deriving DecidableEq, Repr

/-- One count of Timer B: down by one in 16 bits; at zero the flag is set and the
counter reloaded. -/
def countB (reloadB : ℕ) (c : Cascade) : Cascade :=
  if (c.counterB + 65535) % 65536 = 0 then { c with counterB := reloadB, flagB := true }
  else { c with counterB := (c.counterB + 65535) % 65536 }

/-- Cycles pass: one count of Timer B for each underflow of Timer A. -/
def passCycles (reloadA reloadB : ℕ) (c : Cascade) (n : ℕ) : Cascade :=
  let counted := (countB reloadB)^[underflows reloadA c.counterA n] c
  { counted with
    counterA := remaining reloadA c.counterA n
    flagA := c.flagA || decide (underflows reloadA c.counterA n ≠ 0) }

/-- What happens in a cascade run: cycles pass, or software reads a register. -/
inductive Event where
  | tick (cycles : ℕ)
  | read (addr : BitVec 32) (pinsA pinsB : Option (BitVec 8))
  deriving Repr

/-- Whether an address is this chip's interrupt control register. -/
def readsIcr (base addr : BitVec 32) : Bool :=
  decide (addr &&& ~~~0x0F = base ∧ Reg.decode addr = .icr)

def specStep (base : BitVec 32) (reloadA reloadB : ℕ) (c : Cascade) : Event → Cascade
  | .tick n => passCycles reloadA reloadB c n
  | .read addr _ _ => if readsIcr base addr then { c with flagA := false, flagB := false } else c

/-! ## The chip -/

def step (s : Cia) : Event → Cia
  | .tick n => tick s n
  | .read addr pinsA pinsB => (ioRead s addr pinsA pinsB).2

def flagged (flag : BitVec 8) (i : Icr) : Bool := decide (i.pending &&& flag ≠ 0#8)

def abs (s : Cia) : Cascade :=
  { counterA := s.ta.counter.toNat
    counterB := s.tb.counter.toNat
    flagA := flagged ICR_TA s.icr
    flagB := flagged ICR_TB s.icr }

/-- Both timers run continuously and Timer B takes the Timer A input. The base
address and the two latches are those of the run. -/
structure Cascaded (base : BitVec 32) (latchA latchB : BitVec 16) (s : Cia) : Prop where
  base_eq : s.baseAddr = base
  latchA_eq : s.ta.latch = latchA
  latchB_eq : s.tb.latch = latchB
  runA : s.ta.running = true
  runB : s.tb.running = true
  continuousA : s.ta.cr &&& CR_ONESHOT = 0#8
  continuousB : s.tb.cr &&& CR_ONESHOT = 0#8
  inmode : s.tb.cr &&& CRB_INMODE_MASK = CRB_INMODE_TA

/-- The reload value that belongs to a latch. -/
def reloadOf (latch : BitVec 16) : ℕ := if latch ≠ 0#16 then latch.toNat else 0xFFFF

/-- The condition on a tick: with no underflow the Timer A flag is not left over
from before, and otherwise there is exactly one underflow and Timer B does not
stand at zero. -/
def OnePerTick (s : Cia) : Event → Prop
  | .tick n =>
    if n = 0 ∨ n < s.ta.counter.toNat then flagged ICR_TA s.icr = false
    else n < s.ta.counter.toNat + reloadOf s.ta.latch ∧ s.tb.counter ≠ 0#16
  | .read _ _ _ => True

/-! ## Timer lemmas -/

theorem reload_toNat (t : Timer) : t.reload.toNat = reloadOf t.latch := by
  unfold Timer.reload reloadOf
  split <;> rfl

theorem reloadOf_pos (latch : BitVec 16) : 0 < reloadOf latch := by
  unfold reloadOf
  split
  · next h => exact toNat_pos_of_ne_zero h
  · decide

theorem reloadOf_lt (latch : BitVec 16) : reloadOf latch < 65536 := by
  unfold reloadOf
  split
  · exact latch.isLt
  · decide

/-- The counter of a continuous timer after `n` cycles, in closed form. -/
theorem advance_counter (t : Timer) (n : ℕ) (cont : t.cr &&& CR_ONESHOT = 0#8) :
    (t.advance n).counter.toNat = remaining (reloadOf t.latch) t.counter.toNat n := by
  induction t, n using timerLoop_induct with
  | short t n h => rw [Timer.advance_short t n h, remaining_quiet (Or.inr h), t.counter_left n h]
  | idle t => rw [Timer.advance_zero, remaining_quiet (Or.inl rfl), Nat.sub_zero]
  | oneShot t n hn h shot => exact absurd cont shot
  | again t n hn h _ ih =>
    rw [Timer.advance_reload t n hn h cont, ih cont, remaining_again (reloadOf_pos _) hn h,
      reload_toNat]

/-- One cycle of a continuous timer that does not stand at zero. -/
theorem advance_one_counter (t : Timer) (cont : t.cr &&& CR_ONESHOT = 0#8)
    (loaded : t.counter ≠ 0#16) :
    (t.advance 1).counter.toNat =
      if t.fires 1 then reloadOf t.latch else t.counter.toNat - 1 := by
  have pos := toNat_pos_of_ne_zero loaded
  rw [advance_counter t 1 cont]
  by_cases h : t.counter.toNat = 1
  · have fires : t.fires 1 = true := by simp [Timer.fires, h]
    rw [fires, if_pos rfl, remaining_again (reloadOf_pos _) (by decide) (by omega), h]
    exact remaining_quiet (Or.inl rfl)
  · have quiet : t.fires 1 = false := by simp [Timer.fires]; omega
    rw [quiet, remaining_quiet (Or.inr (by omega))]
    rfl

/-! ## Flags -/

theorem flagged_raise_self (f : BitVec 8) (i : Icr) (hf : f ≠ 0#8) :
    flagged f (i.raise f) = true := by
  have absorbed : (i.pending ||| f) &&& f = f := by
    rw [BitVec.and_comm]
    ext k hk
    simp
    exact fun h => Or.inr h
  simp [flagged, Icr.raise, Icr.updateIrq, absorbed, hf]

theorem flagged_raise_other (f g : BitVec 8) (i : Icr) (apart : f &&& g = 0#8) :
    flagged g (i.raise f) = flagged g i := by
  have split : (i.pending ||| f) &&& g = i.pending &&& g := by
    rw [BitVec.and_or_distrib_right, apart, BitVec.or_zero]
  simp only [flagged, Icr.raise, Icr.updateIrq, split]

/-- The clock's part of a tick raises at most its own flag. -/
theorem todLoop_icr (period : ℕ) (tod alarm : Time) (i : Icr) (x : ℕ) :
    (todLoop period tod alarm i x).2.1 = i ∨
      (todLoop period tod alarm i x).2.1 = i.raise ICR_TOD := by
  induction x using Nat.strong_induction_on generalizing tod i with
  | _ x ih =>
    by_cases h : 0 < period ∧ period ≤ x
    · rw [todLoop_step period tod alarm i x h]
      have rest := ih (x - period) (by omega) tod.incTenth
        (raiseWhen (decide (tod.incTenth = alarm)) (Icr.raise ICR_TOD) i)
      cases hit : decide (tod.incTenth = alarm) with
      | false => simpa [hit] using rest
      | true =>
        right
        simpa [hit, Icr.raise_raise] using rest
    · rw [todLoop_done period tod alarm i x h]
      exact Or.inl rfl

theorem abs_tickTOD (s : Cia) (n : ℕ) : abs (tickTOD s n) = abs s := by
  have icr : (tickTOD s n).icr = s.icr ∨ (tickTOD s n).icr = s.icr.raise ICR_TOD := by
    unfold tickTOD
    split
    · exact Or.inl rfl
    · exact todLoop_icr _ _ _ _ _
  have ta : (tickTOD s n).ta = s.ta := by unfold tickTOD; split <;> rfl
  have tb : (tickTOD s n).tb = s.tb := by unfold tickTOD; split <;> rfl
  rcases icr with same | raised
  · simp only [abs, ta, tb, same]
  · simp only [abs, ta, tb, raised, flagged_raise_other ICR_TOD ICR_TA s.icr (by decide),
      flagged_raise_other ICR_TOD ICR_TB s.icr (by decide)]

/-! ## One tick -/

section Tick

variable {base : BitVec 32} {latchA latchB : BitVec 16}

/-- The timer half of a tick during which Timer A stays above zero. -/
theorem timers_quiet (s : Cia) (n : ℕ) (hs : Cascaded base latchA latchB s)
    (quiet : n = 0 ∨ n < s.ta.counter.toNat) (clear : flagged ICR_TA s.icr = false) :
    tickTimerB (tickTimerA s n) n = { s with ta := s.ta.advance n } := by
  have bound := s.ta.counter.isLt
  have fits : n % 4294967296 = n := Nat.mod_eq_of_lt (by omega)
  have noFire : s.ta.fires n = false := by simp [Timer.fires]; omega
  have pending : s.icr.pending &&& ICR_TA = 0#8 := by simpa [flagged] using clear
  simp [tickTimerA, tickTimerB, hs.runA, hs.runB, hs.inmode, fits, timerLoop_eq, noFire, pending]

/-- The timer half of a tick in which Timer A reaches zero. -/
theorem timers_fire (s : Cia) (n : ℕ) (hs : Cascaded base latchA latchB s) (hn : n ≠ 0)
    (reaches : s.ta.counter.toNat ≤ n) (small : n < 2 ^ 32) :
    tickTimerB (tickTimerA s n) n =
      { s with
        ta := s.ta.advance n
        tb := s.tb.advance 1
        icr := raiseWhen (s.tb.fires 1) (Icr.raise ICR_TB) (s.icr.raise ICR_TA) } := by
  have fits : n % 4294967296 = n := Nat.mod_eq_of_lt small
  have fire : s.ta.fires n = true := by simp [Timer.fires, hn, reaches]
  have pending : ¬ (s.icr.raise ICR_TA).pending &&& ICR_TA = 0#8 := by
    simpa [flagged] using flagged_raise_self ICR_TA s.icr (by decide)
  simp [tickTimerA, tickTimerB, hs.runA, hs.runB, hs.inmode, fits, timerLoop_eq, fire, pending]

theorem abs_tick (s : Cia) (n : ℕ) (hs : Cascaded base latchA latchB s)
    (guard : OnePerTick s (.tick n)) :
    abs (tick s n) = passCycles (reloadOf latchA) (reloadOf latchB) (abs s) n := by
  have boundA := s.ta.counter.isLt
  have reloadA := reloadOf_lt s.ta.latch
  have counterA := advance_counter s.ta n hs.continuousA
  rw [hs.latchA_eq] at counterA reloadA
  rw [tick, abs_tickTOD]
  by_cases quiet : n = 0 ∨ n < s.ta.counter.toNat
  · have clear : flagged ICR_TA s.icr = false := by simpa only [OnePerTick, if_pos quiet] using guard
    rw [timers_quiet s n hs quiet clear]
    simp [abs, passCycles, underflows_quiet quiet, counterA]
  · simp only [OnePerTick, if_neg quiet, hs.latchA_eq] at guard
    obtain ⟨single, loaded⟩ := guard
    have one := underflows_eq_one (reloadOf_pos latchA) (by omega) (by omega) single
    have boundB := s.tb.counter.isLt
    have posB := toNat_pos_of_ne_zero loaded
    have counterB := advance_one_counter s.tb hs.continuousB loaded
    have stepB : (s.tb.counter.toNat + 65535) % 65536 = s.tb.counter.toNat - 1 := by omega
    rw [hs.latchB_eq] at counterB
    rw [timers_fire s n hs (by omega) (by omega) (by omega)]
    simp only [abs, passCycles, one, Function.iterate_one, countB, stepB, counterA, counterB]
    by_cases fires : s.tb.fires 1 = true
    · have zero : s.tb.counter.toNat - 1 = 0 := by
        simp [Timer.fires] at fires
        omega
      simp [fires, zero, flagged_raise_self ICR_TB _ (by decide),
        flagged_raise_other ICR_TB ICR_TA _ (by decide), flagged_raise_self ICR_TA _ (by decide)]
    · have left : ¬ s.tb.counter.toNat - 1 = 0 := by
        simp [Timer.fires] at fires
        omega
      simp [fires, left, flagged_raise_self ICR_TA _ (by decide),
        flagged_raise_other ICR_TA ICR_TB _ (by decide)]

theorem Cascaded.after_tick {s : Cia} {n : ℕ} (hs : Cascaded base latchA latchB s)
    (guard : OnePerTick s (.tick n)) : Cascaded base latchA latchB (tick s n) := by
  have boundA := s.ta.counter.isLt
  have reloadA := reloadOf_lt s.ta.latch
  have keepA := Timer.advance_continuous s.ta n hs.continuousA
  have keepB := Timer.advance_continuous s.tb 1 hs.continuousB
  have clock : ∀ s : Cia, (tickTOD s n).ta = s.ta ∧ (tickTOD s n).tb = s.tb ∧
      (tickTOD s n).baseAddr = s.baseAddr := by
    intro s
    unfold tickTOD
    split <;> exact ⟨rfl, rfl, rfl⟩
  obtain ⟨ta, tb, baseAddr⟩ := clock (tickTimerB (tickTimerA s n) n)
  rw [tick]
  by_cases quiet : n = 0 ∨ n < s.ta.counter.toNat
  · have clear : flagged ICR_TA s.icr = false := by simpa only [OnePerTick, if_pos quiet] using guard
    rw [timers_quiet s n hs quiet clear] at ta tb baseAddr ⊢
    constructor <;> simp only [ta, tb, baseAddr]
    · exact hs.base_eq
    · rw [keepA]; exact hs.latchA_eq
    · exact hs.latchB_eq
    · rw [keepA]; exact hs.runA
    · exact hs.runB
    · rw [keepA]; exact hs.continuousA
    · exact hs.continuousB
    · exact hs.inmode
  · simp only [OnePerTick, if_neg quiet] at guard
    rw [timers_fire s n hs (by omega) (by omega) (by omega)] at ta tb baseAddr ⊢
    constructor <;> simp only [ta, tb, baseAddr]
    · exact hs.base_eq
    · rw [keepA]; exact hs.latchA_eq
    · rw [keepB]; exact hs.latchB_eq
    · rw [keepA]; exact hs.runA
    · rw [keepB]; exact hs.runB
    · rw [keepA]; exact hs.continuousA
    · rw [keepB]; exact hs.continuousB
    · rw [keepB]; exact hs.inmode

end Tick

/-! ## Register reads -/

/-- A read touches the timers never, and the interrupt register only when it is
read itself. -/
theorem ioRead_effect (s : Cia) (addr : BitVec 32) (pinsA pinsB : Option (BitVec 8)) :
    (ioRead s addr pinsA pinsB).2.ta = s.ta ∧ (ioRead s addr pinsA pinsB).2.tb = s.tb ∧
    (ioRead s addr pinsA pinsB).2.baseAddr = s.baseAddr ∧
    (ioRead s addr pinsA pinsB).2.icr =
      if readsIcr s.baseAddr addr then { s.icr with pending := 0 }.updateIrq else s.icr := by
  unfold ioRead readReg readsIcr
  generalize addr &&& ~~~0x0F = selected
  by_cases owns : selected = s.baseAddr
  · rw [if_neg (not_not.mpr owns)]
    cases reg : Reg.decode addr <;> simp [owns]
  · rw [if_pos owns]
    simp [owns]

theorem flagged_clear (f : BitVec 8) (i : Icr) :
    flagged f { i with pending := 0 }.updateIrq = false := by
  simp [flagged, Icr.updateIrq]

/-! ## Runs -/

section Run

variable {base : BitVec 32} {latchA latchB : BitVec 16}

theorem Cascaded.after_step {s : Cia} {e : Event} (hs : Cascaded base latchA latchB s)
    (guard : OnePerTick s e) : Cascaded base latchA latchB (step s e) := by
  cases e with
  | tick n => exact hs.after_tick guard
  | read addr pinsA pinsB =>
    obtain ⟨ta, tb, baseAddr, _⟩ := ioRead_effect s addr pinsA pinsB
    constructor <;> simp only [step, ta, tb, baseAddr]
    · exact hs.base_eq
    · exact hs.latchA_eq
    · exact hs.latchB_eq
    · exact hs.runA
    · exact hs.runB
    · exact hs.continuousA
    · exact hs.continuousB
    · exact hs.inmode

theorem abs_step (s : Cia) (e : Event) (hs : Cascaded base latchA latchB s)
    (guard : OnePerTick s e) :
    abs (step s e) = specStep base (reloadOf latchA) (reloadOf latchB) (abs s) e := by
  cases e with
  | tick n => exact abs_tick s n hs guard
  | read addr pinsA pinsB =>
    obtain ⟨ta, tb, _, icr⟩ := ioRead_effect s addr pinsA pinsB
    rw [hs.base_eq] at icr
    simp only [abs, step, specStep, ta, tb, icr]
    by_cases h : readsIcr base addr = true
    · simp only [h, if_true]
      rw [flagged_clear, flagged_clear]
    · simp [h]

/-- Along every run of ticks and register reads in which each tick meets
`OnePerTick`, the two timers and their flags are those of the 32-bit counter. -/
theorem run_refines_cascade (s : Cia) (events : List Event) (hs : Cascaded base latchA latchB s)
    (run : Guarded step OnePerTick s events) :
    abs (events.foldl step s) =
      events.foldl (specStep base (reloadOf latchA) (reloadOf latchB)) (abs s) :=
  foldl_simulates step OnePerTick (Cascaded base latchA latchB) abs _
    (fun _ _ inv guard => inv.after_step guard) (fun s e inv guard => abs_step s e inv guard) s events hs run

end Run

/-- A chip at `$DC00` with Timer A counting 10 cycles and Timer B counting 5
underflows. -/
def cascadeOfTen : Cia :=
  { init 0xDC00 with
    ta := { latch := 10, counter := 10, running := true, cr := 0x01 }
    tb := { latch := 5, counter := 5, running := true, cr := 0x41 } }

theorem cascadeOfTen_cascaded : Cascaded 0xDC00 10 5 cascadeOfTen :=
  ⟨rfl, rfl, rfl, rfl, rfl, by decide, by decide, by decide⟩

/-- A tick of 15 cycles with one underflow, then a read of the interrupt register. -/
theorem run_refines_cascade_of_ten :
    abs ([.tick 15, .read 0xDC0D none none].foldl step cascadeOfTen) =
      [Event.tick 15, .read 0xDC0D none none].foldl
        (specStep 0xDC00 (reloadOf 10) (reloadOf 5)) (abs cascadeOfTen) :=
  run_refines_cascade cascadeOfTen _ cascadeOfTen_cascaded
    ⟨by simp only [OnePerTick]; decide, trivial, trivial⟩

/-- Two underflows in one tick of 20 cycles: Timer B goes from 5 to 4, not to 3. -/
theorem not_every_run_refines_cascade :
    ¬ ∀ (base : BitVec 32) (latchA latchB : BitVec 16) (s : Cia) (events : List Event),
      Cascaded base latchA latchB s →
        abs (events.foldl step s) =
          events.foldl (specStep base (reloadOf latchA) (reloadOf latchB)) (abs s) := by
  intro claim
  have same := claim 0xDC00 10 5 cascadeOfTen [.tick 20] cascadeOfTen_cascaded
  have fire := timers_fire cascadeOfTen 20 cascadeOfTen_cascaded (by decide) (by decide) (by decide)
  have code : (abs (tick cascadeOfTen 20)).counterB = 4 := by
    rw [tick, abs_tickTOD, fire]
    exact advance_one_counter cascadeOfTen.tb (by decide) (by decide)
  have meant : (specStep 0xDC00 10 5 (abs cascadeOfTen) (.tick 20)).counterB = 3 := by decide
  have counts := congrArg Cascade.counterB same
  simp only [List.foldl_cons, List.foldl_nil, step] at counts
  rw [code] at counts
  exact absurd (counts.trans meant) (by decide)

end Mmemu.Guarantees.CiaCascade

/-!
# CIA 6526: the time-of-day clock

A time of day is counted in tenths of a second since midnight (`tenths`), and
shown by four BCD registers (`clock`). One round of the tick's loop takes the
registers from one time to the next, so a run of ticks shows the time that the
whole number of periods in the remainder and the cycles has led to, and raises
the alarm flag for a time on the way.
-/
namespace Mmemu.Guarantees.CiaTimeOfDay
open Mmemu.Library.GuardedRun Mmemu.Library.TimeSlicing Mmemu.Source.Cia6526
open Mmemu.Guarantees.CiaTimeSlicing Mmemu.Guarantees.CiaCascade

/-! ## Times of day -/

/-- The number two decimal digits spell. -/
def value (b : BitVec 8) : ℕ := 10 * (b >>> 4).toNat + (b &&& 0x0F).toNat

/-- Two decimal digits, up to a bound. -/
def IsBcd (bound : ℕ) (b : BitVec 8) : Prop := (b &&& 0x0F).toNat ≤ 9 ∧ value b ≤ bound

instance (bound : ℕ) (b : BitVec 8) : Decidable (IsBcd bound b) :=
  inferInstanceAs (Decidable (_ ∧ _))

/-- An hour of the 12-hour clock, with AM or PM in bit 7. -/
def IsHour (hr : BitVec 8) : Prop := IsBcd 12 (hr &&& 0x7F) ∧ 1 ≤ value (hr &&& 0x7F)

instance (hr : BitVec 8) : Decidable (IsHour hr) := inferInstanceAs (Decidable (_ ∧ _))

/-- A time of day the four registers may hold. -/
structure ValidTime (t : Time) : Prop where
  ten : t.ten.toNat ≤ 9
  sec : IsBcd 59 t.sec
  min : IsBcd 59 t.min
  hr : IsHour t.hr

/-- The hour since midnight: 12 AM is 0, 12 PM is 12. -/
def hourOfDay (hr : BitVec 8) : ℕ :=
  value (hr &&& 0x7F) % 12 + if hr &&& 0x80 ≠ 0#8 then 12 else 0

/-- The tenths of a second since midnight. -/
def tenths (t : Time) : ℕ :=
  t.ten.toNat + 10 * (value t.sec + 60 * (value t.min + 60 * hourOfDay t.hr))

/-- A number below 100 as two BCD digits. -/
def bcd (n : ℕ) : BitVec 8 := BitVec.ofNat 8 (n / 10 * 16 + n % 10)

/-- The hour register at an hour since midnight. -/
def hourByte (h : ℕ) : BitVec 8 :=
  bcd (if h % 12 = 0 then 12 else h % 12) ||| if 12 ≤ h then 0x80 else 0

/-- The registers a number of tenths of a second after midnight, on any day. -/
def clock (n : ℕ) : Time :=
  { ten := BitVec.ofNat 8 (n % 10)
    sec := bcd (n / 10 % 60)
    min := bcd (n / 10 / 60 % 60)
    hr := hourByte (n / 10 / 60 / 60 % 24) }

theorem bcd_value : ∀ b, IsBcd 59 b → bcd (value b) = b ∧ value b < 60 := by decide

theorem hourByte_hourOfDay : ∀ hr, IsHour hr → hourByte (hourOfDay hr) = hr ∧ hourOfDay hr < 24 := by
  decide

/-- A valid time is the one its tenths show. -/
theorem clock_tenths {t : Time} (h : ValidTime t) : clock (tenths t) = t := by
  obtain ⟨sec, secLt⟩ := bcd_value t.sec h.sec
  obtain ⟨min, minLt⟩ := bcd_value t.min h.min
  obtain ⟨hr, hrLt⟩ := hourByte_hourOfDay t.hr h.hr
  have ten := h.ten
  have tenDigit : tenths t % 10 = t.ten.toNat := by unfold tenths; omega
  have secPart : tenths t / 10 % 60 = value t.sec := by unfold tenths; omega
  have minPart : tenths t / 10 / 60 % 60 = value t.min := by unfold tenths; omega
  have hrPart : tenths t / 10 / 60 / 60 % 24 = hourOfDay t.hr := by unfold tenths; omega
  simp [clock, tenDigit, secPart, minPart, hrPart, sec, min, hr]

/-- The clock shows the same after a day. -/
theorem clock_mod (n : ℕ) : clock (n % 864000) = clock n := by
  have ten : n % 864000 % 10 = n % 10 := by omega
  have sec : n % 864000 / 10 % 60 = n / 10 % 60 := by omega
  have min : n % 864000 / 10 / 60 % 60 = n / 10 / 60 % 60 := by omega
  have hr : n % 864000 / 10 / 60 / 60 % 24 = n / 10 / 60 / 60 % 24 := by omega
  simp only [clock, ten, sec, min, hr]

/-! ## One tenth of a second -/

theorem bcdInc_bcd (k : ℕ) : bcdInc (bcd (k % 60)) 59 = bcd ((k + 1) % 60) := by
  have table : ∀ d < 60, bcdInc (bcd d) 59 = bcd ((d + 1) % 60) := by decide
  rw [table _ (Nat.mod_lt k (by decide)), Nat.mod_add_mod]

theorem bcd_eq_zero (k : ℕ) : bcd (k % 60) = 0#8 ↔ k % 60 = 0 := by
  have table : ∀ d < 60, bcd d = 0#8 ↔ d = 0 := by decide
  exact table _ (Nat.mod_lt k (by decide))

theorem incHour_hourByte (k : ℕ) : incHour (hourByte (k % 24)) = hourByte ((k + 1) % 24) := by
  have table : ∀ h < 24, incHour (hourByte h) = hourByte ((h + 1) % 24) := by decide
  rw [table _ (Nat.mod_lt k (by decide)), Nat.mod_add_mod]

theorem tenth_steps : ∀ d < 10, BitVec.ofNat 8 d + 1 = BitVec.ofNat 8 (d + 1) ∧
    (9 < BitVec.ofNat 8 (d + 1) ↔ d = 9) := by decide

theorem tenths_carry (n : ℕ) : (n + 1) / 10 = if n % 10 = 9 then n / 10 + 1 else n / 10 := by
  split <;> omega

theorem sixty_carry (n : ℕ) : (n + 1) / 60 = if (n + 1) % 60 = 0 then n / 60 + 1 else n / 60 := by
  split <;> omega

/-- The carries of `incTenth` are those of the count of tenths. -/
theorem incTenth_clock (n : ℕ) : (clock n).incTenth = clock (n + 1) := by
  obtain ⟨tenInc, tenCarry⟩ := tenth_steps (n % 10) (Nat.mod_lt n (by decide))
  simp only [Time.incTenth, clock, tenInc, tenCarry, bcdInc_bcd, bcd_eq_zero, incHour_hourByte,
    tenths_carry]
  by_cases ten : n % 10 = 9
  · have tenDone : (n + 1) % 10 = 0 := by omega
    simp only [if_pos ten, tenDone, sixty_carry]
    by_cases sec : (n / 10 + 1) % 60 = 0
    · simp only [if_pos sec, sixty_carry]
      by_cases min : (n / 10 / 60 + 1) % 60 = 0
      · simp only [if_pos min]
        rfl
      · simp only [if_neg min]
        rfl
    · simp only [if_neg sec]
      rfl
  · have tenNext : (n + 1) % 10 = n % 10 + 1 := by omega
    simp only [if_neg ten, tenNext]

/-! ## The loop of a tick -/

/-- The registers after the loop: one tenth for every period. -/
theorem todLoop_clock (period : ℕ) (hp : 0 < period) (m : ℕ) (alarm : Time) (i : Icr) (x : ℕ) :
    (todLoop period (clock m) alarm i x).1 = clock (m + x / period) := by
  induction x using Nat.strong_induction_on generalizing m i with
  | _ x ih =>
    by_cases h : 0 < period ∧ period ≤ x
    · rw [todLoop_step period _ alarm i x h, incTenth_clock, ih (x - period) (by omega)]
      have count : x / period = (x - period) / period + 1 := Nat.div_eq_sub_div hp h.2
      rw [count]
      congr 1
      omega
    · rw [todLoop_done period _ alarm i x h, Nat.div_eq_of_lt (by omega), Nat.add_zero]

theorem flagged_raiseWhen (c : Bool) (i : Icr) :
    flagged ICR_TOD (raiseWhen c (Icr.raise ICR_TOD) i) = (flagged ICR_TOD i || c) := by
  cases c with
  | false => simp
  | true => simp [flagged_raise_self ICR_TOD i (by decide)]

/-- The alarm flag after the loop: set for a time the clock reaches in it. -/
theorem todLoop_alarm (period : ℕ) (hp : 0 < period) (m : ℕ) (alarm : Time) (i : Icr) (x : ℕ) :
    flagged ICR_TOD (todLoop period (clock m) alarm i x).2.1 = true ↔
      flagged ICR_TOD i = true ∨ ∃ k, 1 ≤ k ∧ k ≤ x / period ∧ clock (m + k) = alarm := by
  induction x using Nat.strong_induction_on generalizing m i with
  | _ x ih =>
    by_cases h : 0 < period ∧ period ≤ x
    · have count : x / period = (x - period) / period + 1 := Nat.div_eq_sub_div hp h.2
      rw [todLoop_step period _ alarm i x h, incTenth_clock, ih (x - period) (by omega),
        flagged_raiseWhen, Bool.or_eq_true, decide_eq_true_eq, count]
      constructor
      · rintro ((flag | now) | ⟨k, first, last, hit⟩)
        · exact Or.inl flag
        · exact Or.inr ⟨1, le_refl 1, Nat.le_add_left 1 _, now⟩
        · exact Or.inr ⟨k + 1, by omega, by omega, by rw [← hit, Nat.add_right_comm, Nat.add_assoc]⟩
      · rintro (flag | ⟨k, first, last, hit⟩)
        · exact Or.inl (Or.inl flag)
        · by_cases one : k = 1
          · exact Or.inl (Or.inr (one ▸ hit))
          · refine Or.inr ⟨k - 1, by omega, by omega, ?_⟩
            have same : m + 1 + (k - 1) = m + k := by omega
            rw [same, hit]
    · rw [todLoop_done period _ alarm i x h, Nat.div_eq_of_lt (by omega)]
      constructor
      · exact Or.inl
      · rintro (flag | ⟨k, first, last, _⟩)
        · exact flag
        · omega

/-! ## Ticks -/

/-- The timers' part of a tick raises only their own flags. -/
theorem timers_withTimers (s : Cia) (n : ℕ) :
    ∃ ta tb a b, tickTimerB (tickTimerA s n) n = withTimers s ta tb a b := by
  have first : ∃ ta a, tickTimerA s n = withTimers s ta s.tb a false := by
    unfold tickTimerA
    split
    · exact ⟨s.ta, false, rfl⟩
    · simp only [timerLoop_eq]
      exact ⟨_, _, rfl⟩
  obtain ⟨ta, a, first⟩ := first
  have second : ∃ tb b, tickTimerB (tickTimerA s n) n = withTimers (tickTimerA s n) ta tb false b := by
    have same : (tickTimerA s n).ta = ta := by rw [first]; rfl
    unfold tickTimerB
    dsimp only
    split
    · exact ⟨(tickTimerA s n).tb, false, by rw [← same]; rfl⟩
    · split
      · exact ⟨(tickTimerA s n).tb, false, by rw [← same]; rfl⟩
      · simp only [timerLoop_eq]
        exact ⟨_, _, by rw [← same]; rfl⟩
  obtain ⟨tb, b, second⟩ := second
  refine ⟨ta, tb, a, b, ?_⟩
  rw [second, first, withTimers_withTimers]
  simp

theorem tick_withTimers (s : Cia) (n : ℕ) :
    ∃ ta tb a b, tick s n = withTimers (tickTOD s n) ta tb a b := by
  obtain ⟨ta, tb, a, b, timers⟩ := timers_withTimers s n
  exact ⟨ta, tb, a, b, by rw [tick, timers, tickTOD_withTimers]⟩

theorem flagged_withTimers (s : Cia) (ta tb : Timer) (a b : Bool) :
    flagged ICR_TOD (withTimers s ta tb a b).icr = flagged ICR_TOD s.icr := by
  cases a <;> cases b <;>
    simp [withTimers, flagged_raise_other ICR_TA ICR_TOD _ (by decide),
      flagged_raise_other ICR_TB ICR_TOD _ (by decide)]

/-- What a clock that runs at `m` tenths after midnight has come to after some
cycles: `count` tenths later, with `left` cycles over. -/
structure Advanced (s s' : Cia) (m count left : ℕ) : Prop where
  tod : s'.tod = clock (m + count)
  accum : s'.todAccum = left
  running : s'.todRunning = true
  rate : s'.clockHz = s.clockHz
  alarm : s'.alarm = s.alarm
  latched : s'.todLatched = s.todLatched
  base : s'.baseAddr = s.baseAddr
  flag : flagged ICR_TOD s'.icr = true ↔
    flagged ICR_TOD s.icr = true ∨ ∃ k, 1 ≤ k ∧ k ≤ count ∧ clock (m + k) = s.alarm

/-- The cycles of a tick and the remainder kept fit the 64-bit count. -/
def Fits (s : Cia) (n : ℕ) : Prop := s.todAccum + n < 2 ^ 64

instance (s : Cia) (n : ℕ) : Decidable (Fits s n) := inferInstanceAs (Decidable (_ < _))

theorem tick_advanced {s : Cia} {m n : ℕ} (tod : s.tod = clock m) (run : s.todRunning = true)
    (fits : Fits s n) :
    Advanced s (tick s n) m ((s.todAccum + n) / tenthPeriod s.clockHz)
      ((s.todAccum + n) % tenthPeriod s.clockHz) := by
  obtain ⟨ta, tb, a, b, whole⟩ := tick_withTimers s n
  have hp := tenthPeriod_pos s.clockHz
  have sum : (s.todAccum + n) % 2 ^ 64 = s.todAccum + n := Nat.mod_eq_of_lt fits
  have shown := todLoop_clock _ hp m s.alarm s.icr (s.todAccum + n)
  have left := todLoop_left _ (clock m) s.alarm s.icr (s.todAccum + n) hp
  have raised := todLoop_alarm _ hp m s.alarm s.icr (s.todAccum + n)
  have stepped : tickTOD s n =
      (let r := todLoop (tenthPeriod s.clockHz) (clock m) s.alarm s.icr (s.todAccum + n)
       { s with tod := r.1, icr := r.2.1, todAccum := r.2.2 }) := by
    simp only [tickTOD, run, Bool.not_true, Bool.false_eq_true, if_false, sum, tod]
  rw [whole]
  constructor
  · rw [stepped]
    exact shown
  · rw [stepped]
    exact left
  · rw [stepped]
    exact run
  · rw [stepped]
    rfl
  · rw [stepped]
    rfl
  · rw [stepped]
    rfl
  · rw [stepped]
    rfl
  · rw [flagged_withTimers, stepped]
    exact raised

/-- Two stretches of time in a row. -/
theorem Advanced.trans {s s' s'' : Cia} {m count left count' left' : ℕ}
    (h : Advanced s s' m count left) (h' : Advanced s' s'' (m + count) count' left') :
    Advanced s s'' m (count + count') left' := by
  refine ⟨?_, h'.accum, h'.running, h'.rate.trans h.rate, h'.alarm.trans h.alarm,
    h'.latched.trans h.latched, h'.base.trans h.base, ?_⟩
  · rw [h'.tod, Nat.add_assoc]
  · rw [h'.flag, h.flag, h.alarm]
    constructor
    · rintro ((flag | ⟨k, first, last, hit⟩) | ⟨k, first, last, hit⟩)
      · exact Or.inl flag
      · exact Or.inr ⟨k, first, by omega, hit⟩
      · exact Or.inr ⟨count + k, by omega, by omega, by rw [← hit, Nat.add_assoc]⟩
    · rintro (flag | ⟨k, first, last, hit⟩)
      · exact Or.inl (Or.inl flag)
      · by_cases early : k ≤ count
        · exact Or.inl (Or.inr ⟨k, first, early, hit⟩)
        · refine Or.inr ⟨k - count, by omega, by omega, ?_⟩
          have same : m + count + (k - count) = m + k := by omega
          rw [same, hit]

/-- The remainder survives any slicing. -/
theorem slices_advanced (slices : List ℕ) {s : Cia} {m : ℕ} (tod : s.tod = clock m)
    (run : s.todRunning = true) (some_ : slices ≠ [] ∨ s.todAccum < tenthPeriod s.clockHz)
    (fits : Guarded tick Fits s slices) :
    Advanced s (slices.foldl tick s) m ((s.todAccum + slices.sum) / tenthPeriod s.clockHz)
      ((s.todAccum + slices.sum) % tenthPeriod s.clockHz) := by
  have hp := tenthPeriod_pos s.clockHz
  induction slices generalizing s m with
  | nil =>
    have small : s.todAccum < tenthPeriod s.clockHz := by simpa using some_
    simp only [List.foldl_nil, List.sum_nil, Nat.add_zero, Nat.div_eq_of_lt small,
      Nat.mod_eq_of_lt small]
    refine ⟨tod, rfl, run, rfl, rfl, rfl, rfl, ?_⟩
    simp only [iff_self_or, forall_exists_index]
    intro k bounds
    omega
  | cons n rest ih =>
    have first := tick_advanced tod run fits.1
    have small := Nat.mod_lt (s.todAccum + n) hp
    rw [← first.accum] at small
    have later := ih first.tod first.running (Or.inr (by rwa [first.rate])) fits.2
      (by rwa [first.rate])
    rw [first.accum, first.rate] at later
    have both := first.trans later
    have split := Nat.div_add_mod (s.todAccum + n) (tenthPeriod s.clockHz)
    have total : s.todAccum + (n :: rest).sum =
        (s.todAccum + n) % tenthPeriod s.clockHz + rest.sum +
          tenthPeriod s.clockHz * ((s.todAccum + n) / tenthPeriod s.clockHz) := by
      rw [List.sum_cons]
      omega
    have count : (s.todAccum + (n :: rest).sum) / tenthPeriod s.clockHz =
        (s.todAccum + n) / tenthPeriod s.clockHz +
          ((s.todAccum + n) % tenthPeriod s.clockHz + rest.sum) / tenthPeriod s.clockHz := by
      rw [total, Nat.add_mul_div_left _ _ hp, Nat.add_comm]
    have left : (s.todAccum + (n :: rest).sum) % tenthPeriod s.clockHz =
        ((s.todAccum + n) % tenthPeriod s.clockHz + rest.sum) % tenthPeriod s.clockHz := by
      rw [total, Nat.add_mul_mod_self_left]
    rw [count, left]
    exact both

/-! ## What the chip shows -/

/-- The chip's registers read as a time: the hours always, the others unless an
earlier read of the hours froze them. -/
def Shows (s : Cia) (t : Time) : Prop :=
  ∀ addr pinsA pinsB, addr &&& ~~~0x0F = s.baseAddr →
    (Reg.decode addr = .todhr → (ioRead s addr pinsA pinsB).1 = some t.hr) ∧
    (s.todLatched = false →
      (Reg.decode addr = .todmin → (ioRead s addr pinsA pinsB).1 = some t.min) ∧
      (Reg.decode addr = .todsec → (ioRead s addr pinsA pinsB).1 = some t.sec) ∧
      (Reg.decode addr = .todten → (ioRead s addr pinsA pinsB).1 = some t.ten))

theorem shows_tod (s : Cia) : Shows s s.tod := by
  intro addr pinsA pinsB own
  have here : ¬ (addr &&& ~~~0x0F ≠ s.baseAddr) := not_not.mpr own
  refine ⟨fun reg => ?_, fun live => ⟨fun reg => ?_, fun reg => ?_, fun reg => ?_⟩⟩
  · simp only [ioRead, readReg, if_neg here, reg]
  · simp only [ioRead, readReg, if_neg here, reg, live, Bool.false_eq_true, if_false]
  · simp only [ioRead, readReg, if_neg here, reg, live, Bool.false_eq_true, if_false]
  · simp only [ioRead, readReg, if_neg here, reg, live, Bool.false_eq_true, if_false]

/-- A series of ticks takes the clock on by the whole periods in the remainder and
the cycles, and raises the alarm flag for the times in between. -/
def TellsTime (s : Cia) (slices : List ℕ) : Prop :=
  let count := (s.todAccum + slices.sum) / tenthPeriod s.clockHz
  let s' := slices.foldl tick s
  Shows s' (clock ((tenths s.tod + count) % 864000)) ∧
    (flagged ICR_TOD s'.icr = true ↔ flagged ICR_TOD s.icr = true ∨
      ∃ k, 1 ≤ k ∧ k ≤ count ∧ clock ((tenths s.tod + k) % 864000) = s.alarm)

/-- For every valid time, clock rate, remainder and series of ticks that never
overruns the 64-bit cycle count. -/
theorem tells_time (s : Cia) (slices : List ℕ) (valid : ValidTime s.tod)
    (run : s.todRunning = true) (remainder : slices ≠ [] ∨ s.todAccum < tenthPeriod s.clockHz)
    (fits : Guarded tick Fits s slices) : TellsTime s slices := by
  have advanced := slices_advanced slices (clock_tenths valid).symm run remainder fits
  refine ⟨?_, ?_⟩
  · rw [clock_mod, ← advanced.tod]
    exact shows_tod _
  · simp only [clock_mod]
    exact advanced.flag

/-- The chip at `$DC00` a tenth before midnight, with the alarm set to midnight and
one cycle short of a tenth. -/
def beforeMidnight : Cia :=
  { init 0xDC00 with
    tod := { ten := 0x09, sec := 0x59, min := 0x59, hr := 0x91 }
    alarm := { ten := 0, sec := 0, min := 0, hr := 0x12 }
    todAccum := 102271 }

theorem beforeMidnight_valid : ValidTime beforeMidnight.tod := by
  constructor <;> decide

theorem tells_time_beforeMidnight : TellsTime beforeMidnight [1, 70000] :=
  tells_time beforeMidnight [1, 70000] beforeMidnight_valid rfl (Or.inl (by decide))
    ⟨by decide, by
      have first := tick_advanced (n := 1) (clock_tenths beforeMidnight_valid).symm rfl
        (by decide : Fits beforeMidnight 1)
      have small : (tick beforeMidnight 1).todAccum = 0 := first.accum
      simp only [Fits, small]
      decide, trivial⟩

/-- One call whose cycles overrun the count: the clock does not move. -/
theorem not_every_tick_tells_time :
    ¬ ∀ (s : Cia) (slices : List ℕ), ValidTime s.tod → s.todRunning = true →
        s.todAccum < tenthPeriod s.clockHz → (∀ n ∈ slices, n < 2 ^ 64) → TellsTime s slices := by
  intro claim
  have shown := (claim beforeMidnight [2 ^ 64 - 102271] beforeMidnight_valid rfl (by decide)
    (by decide)).1 0xDC0B none none
  have still : tick beforeMidnight (2 ^ 64 - 102271) = { beforeMidnight with todAccum := 0 } := by
    have stopped : tickTimerB (tickTimerA beforeMidnight (2 ^ 64 - 102271)) (2 ^ 64 - 102271) =
        beforeMidnight := rfl
    have none_ : (beforeMidnight.todAccum + (2 ^ 64 - 102271)) % 2 ^ 64 = 0 := by decide
    have running : beforeMidnight.todRunning = true := rfl
    rw [tick, stopped]
    simp only [tickTOD, running, none_, Bool.not_true, Bool.false_eq_true, if_false]
    rw [todLoop_done _ _ _ _ 0 (by decide)]
  simp only [List.foldl_cons, List.foldl_nil, still] at shown
  exact absurd ((shown (by decide)).1 (by decide)) (by decide)

end Mmemu.Guarantees.CiaTimeOfDay
