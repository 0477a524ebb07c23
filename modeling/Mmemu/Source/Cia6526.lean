import Mathlib.Data.BitVec
import Mmemu.Library.Schedules

/-!
# MOS 6526 CIA: registers, timers and time of day

Source: src/plugins/devices/cia6526/main/cia6526.cpp and cia6526.h. Timers A
and B run through the same loop in the source, written out twice; here it is
`timerLoop`, applied to each timer's own flag. What leaves the chip through port
devices and callbacks is not kept; a port device's pins are an input of a read.
-/
namespace Mmemu.Source.Cia6526

def CR_START : BitVec 8 := 0x01
def CR_ONESHOT : BitVec 8 := 0x08
def CR_LOAD : BitVec 8 := 0x10
def CRB_ALARM : BitVec 8 := 0x80
def CRB_INMODE_MASK : BitVec 8 := 0x60
def CRB_INMODE_TA : BitVec 8 := 0x40

def ICR_TA : BitVec 8 := 0x01
def ICR_TB : BitVec 8 := 0x02
def ICR_TOD : BitVec 8 := 0x04
def ICR_SP : BitVec 8 := 0x08
def ICR_FLAG : BitVec 8 := 0x10
def ICR_INT : BitVec 8 := 0x80

inductive Reg where
  | pra | prb | ddra | ddrb | talo | tahi | tblo | tbhi
  | todten | todsec | todmin | todhr | sdr | icr | cra | crb
  deriving DecidableEq, Repr

/-- The register selected by the low four address bits. -/
def Reg.decode (addr : BitVec 32) : Reg :=
  match (addr &&& 0x0F).toNat with
  | 0x0 => .pra | 0x1 => .prb | 0x2 => .ddra | 0x3 => .ddrb
  | 0x4 => .talo | 0x5 => .tahi | 0x6 => .tblo | 0x7 => .tbhi
  | 0x8 => .todten | 0x9 => .todsec | 0xA => .todmin | 0xB => .todhr
  | 0xC => .sdr | 0xD => .icr | 0xE => .cra | _ => .crb

/-- One timer with its control register (CRA or CRB). -/
structure Timer where
  latch : BitVec 16
  counter : BitVec 16
  running : Bool
  cr : BitVec 8
  deriving DecidableEq, Repr

/-- The interrupt control register and the line it drives, when one is attached. -/
structure Icr where
  mask : BitVec 8
  pending : BitVec 8
  irqLine : Option Bool
  deriving DecidableEq, Repr

/-- BCD time of day: tenths, seconds, minutes, hours with AM/PM in bit 7. -/
structure Time where
  ten : BitVec 8
  sec : BitVec 8
  min : BitVec 8
  hr : BitVec 8
  deriving DecidableEq, Repr

structure Cia where
  baseAddr : BitVec 32
  clockHz : BitVec 32
  pra : BitVec 8
  prb : BitVec 8
  ddra : BitVec 8
  ddrb : BitVec 8
  ta : Timer
  tb : Timer
  icr : Icr
  sdr : BitVec 8
  tod : Time
  alarm : Time
  latch : Time
  todLatched : Bool
  todRunning : Bool
  todAccum : ℕ
  flagLevel : Bool
  outputsReadPins : Bool
  deriving DecidableEq, Repr

/-! ## Interrupts -/

def Icr.updateIrq (i : Icr) : Icr :=
  { i with irqLine := i.irqLine.map fun _ => decide (i.pending &&& i.mask ≠ 0#8) }

/-- Set pending bits and drive the line: `m_icrPending |= flag; updateIrq()`. -/
def Icr.raise (flag : BitVec 8) (i : Icr) : Icr :=
  { i with pending := i.pending ||| flag }.updateIrq

/-- Clear pending bits and drive the line. -/
def Icr.clear (flag : BitVec 8) (i : Icr) : Icr :=
  { i with pending := i.pending &&& ~~~flag }.updateIrq

/-! ## Reset -/

def resetTimer : Timer := { latch := 0xFFFF, counter := 0xFFFF, running := false, cr := 0 }

def resetTime : Time := { ten := 0, sec := 0, min := 0, hr := 0x01 }

/-- `CIA6526::reset`: the serial register, the clock rate and the flag line keep
their values. -/
def reset (s : Cia) : Cia :=
  { s with
    pra := 0xFF, prb := 0xFF, ddra := 0, ddrb := 0
    ta := resetTimer, tb := resetTimer
    icr := { mask := 0, pending := 0, irqLine := s.icr.irqLine.map fun _ => false }
    tod := resetTime, alarm := resetTime, latch := resetTime
    todLatched := false, todRunning := true, todAccum := 0 }

/-- The chip as constructed at `baseAddr`, before any line is attached. -/
def init (baseAddr : BitVec 32) : Cia :=
  reset
    { baseAddr := baseAddr, clockHz := 1022727, pra := 0xFF, prb := 0xFF, ddra := 0, ddrb := 0
      ta := resetTimer, tb := resetTimer, icr := { mask := 0, pending := 0, irqLine := none }
      sdr := 0, tod := resetTime, alarm := resetTime, latch := resetTime, todLatched := false
      todRunning := true, todAccum := 0, flagLevel := true, outputsReadPins := false }

/-! ## Register access -/

/-- A port read: output bits from the latch, input bits from the pins. -/
def portValue (pr ddr : BitVec 8) (outputsReadPins : Bool) (pins : Option (BitVec 8)) : BitVec 8 :=
  match pins with
  | some p =>
    let val := (pr &&& ddr) ||| (p &&& ~~~ddr)
    if outputsReadPins then val &&& (p ||| ~~~ddr) else val
  | none => (pr &&& ddr) ||| ~~~ddr

def lo (w : BitVec 16) : BitVec 8 := w.setWidth 8
def hi (w : BitVec 16) : BitVec 8 := (w >>> 8).setWidth 8
def setLo (w : BitVec 16) (val : BitVec 8) : BitVec 16 := (w &&& 0xFF00) ||| val.setWidth 16
def setHi (w : BitVec 16) (val : BitVec 8) : BitVec 16 := (w &&& 0x00FF) ||| (val.setWidth 16 <<< 8)

/-- A register read. `peek` returns the value without the read's side effects. -/
def readReg (s : Cia) (addr : BitVec 32) (peek : Bool) (pinsA pinsB : Option (BitVec 8)) :
    Option (BitVec 8) × Cia :=
  if addr &&& ~~~0x0F ≠ s.baseAddr then (none, s)
  else match Reg.decode addr with
    | .pra => (some (portValue s.pra s.ddra s.outputsReadPins pinsA), s)
    | .prb => (some (portValue s.prb s.ddrb s.outputsReadPins pinsB), s)
    | .ddra => (some s.ddra, s)
    | .ddrb => (some s.ddrb, s)
    | .talo => (some (lo s.ta.counter), s)
    | .tahi => (some (hi s.ta.counter), s)
    | .tblo => (some (lo s.tb.counter), s)
    | .tbhi => (some (hi s.tb.counter), s)
    | .todten =>
      (some (if s.todLatched then s.latch.ten else s.tod.ten),
        if peek then s else { s with todLatched := false })
    | .todsec => (some (if s.todLatched then s.latch.sec else s.tod.sec), s)
    | .todmin => (some (if s.todLatched then s.latch.min else s.tod.min), s)
    | .todhr =>
      (some s.tod.hr, if peek then s else { s with latch := s.tod, todLatched := true })
    | .sdr => (some s.sdr, s)
    | .icr =>
      let pending :=
        if s.icr.pending &&& s.icr.mask ≠ 0#8 then s.icr.pending ||| ICR_INT else s.icr.pending
      (some pending, if peek then s else { s with icr := { s.icr with pending := 0 }.updateIrq })
    | .cra => (some (s.ta.cr &&& ~~~CR_LOAD), s)
    | .crb => (some (s.tb.cr &&& ~~~CR_LOAD), s)

def ioRead (s : Cia) (addr : BitVec 32) (pinsA pinsB : Option (BitVec 8)) :
    Option (BitVec 8) × Cia := readReg s addr false pinsA pinsB

def ioPeek (s : Cia) (addr : BitVec 32) (pinsA pinsB : Option (BitVec 8)) :
    Option (BitVec 8) := (readReg s addr true pinsA pinsB).1

/-- Writing a timer's low latch byte. -/
def Timer.writeLo (t : Timer) (val : BitVec 8) : Timer := { t with latch := setLo t.latch val }

/-- Writing the high latch byte loads a stopped timer. -/
def Timer.writeHi (t : Timer) (val : BitVec 8) : Timer :=
  let latch := setHi t.latch val
  { t with latch := latch, counter := if t.running then t.counter else latch }

/-- Writing CRA or CRB: start bit, force load. -/
def Timer.writeControl (t : Timer) (val : BitVec 8) : Timer :=
  let running := decide (val &&& CR_START ≠ 0#8)
  if val &&& CR_LOAD ≠ 0#8 then
    { t with running := running, counter := t.latch, cr := val &&& ~~~CR_LOAD }
  else { t with running := running, cr := val }

/-- `CIA6526::ioWrite`; the flag says whether the chip owns the address. -/
def ioWrite (s : Cia) (addr : BitVec 32) (val : BitVec 8) : Bool × Cia :=
  if addr &&& ~~~0x0F ≠ s.baseAddr then (false, s)
  else (true, match Reg.decode addr with
    | .pra => { s with pra := val }
    | .prb => { s with prb := val }
    | .ddra => { s with ddra := val }
    | .ddrb => { s with ddrb := val }
    | .talo => { s with ta := s.ta.writeLo val }
    | .tahi => { s with ta := s.ta.writeHi val, icr := s.icr.clear ICR_TA }
    | .tblo => { s with tb := s.tb.writeLo val }
    | .tbhi => { s with tb := s.tb.writeHi val, icr := s.icr.clear ICR_TB }
    | .todten =>
      if s.tb.cr &&& CRB_ALARM ≠ 0#8 then { s with alarm.ten := val &&& 0x0F }
      else { s with tod.ten := val &&& 0x0F, todRunning := true }
    | .todsec =>
      if s.tb.cr &&& CRB_ALARM ≠ 0#8 then { s with alarm.sec := val &&& 0x7F }
      else { s with tod.sec := val &&& 0x7F }
    | .todmin =>
      if s.tb.cr &&& CRB_ALARM ≠ 0#8 then { s with alarm.min := val &&& 0x7F }
      else { s with tod.min := val &&& 0x7F }
    | .todhr =>
      if s.tb.cr &&& CRB_ALARM ≠ 0#8 then { s with alarm.hr := val &&& 0x9F }
      else { s with tod.hr := val &&& 0x9F, todRunning := false }
    | .sdr =>
      -- in output mode the shift completes at once; the line is left alone
      if s.ta.cr &&& 0x40 ≠ 0#8 then
        { s with sdr := val, icr.pending := s.icr.pending ||| ICR_SP }
      else { s with sdr := val }
    | .icr =>
      let mask := if val &&& 0x80 ≠ 0#8 then s.icr.mask ||| (val &&& 0x7F)
        else s.icr.mask &&& ~~~(val &&& 0x7F)
      { s with icr := { s.icr with mask := mask }.updateIrq }
    | .cra => { s with ta := s.ta.writeControl val }
    | .crb => { s with tb := s.tb.writeControl val })

/-! ## Tick -/

/-- The reload value: a zero latch counts as 65535. -/
def Timer.reload (t : Timer) : BitVec 16 := if t.latch ≠ 0#16 then t.latch else 0xFFFF

theorem Timer.reload_ne_zero (t : Timer) : t.reload ≠ 0#16 := by
  unfold Timer.reload
  split
  · assumption
  · decide

theorem toNat_pos_of_ne_zero {c : BitVec 16} (h : c ≠ 0#16) : 0 < c.toNat :=
  Nat.pos_of_ne_zero fun h0 => h (BitVec.eq_of_toNat_eq (by simpa using h0))

/-- The `while (elapsed > 0)` loop of `tickTimerA` and `tickTimerB`. A step takes
the counter at most to zero, so an underflow consumes exactly the count. -/
def timerLoop (flag : BitVec 8) (t : Timer) (i : Icr) (elapsed : ℕ) : Timer × Icr :=
  if elapsed = 0 then (t, i)
  else
    let step := min elapsed t.counter.toNat
    let counter := t.counter - BitVec.ofNat 16 step
    if counter = 0#16 then
      if t.cr &&& CR_ONESHOT ≠ 0#8 then
        ({ t with counter := counter, running := false, cr := t.cr &&& ~~~CR_START }, i.raise flag)
      else timerLoop flag { t with counter := t.reload } (i.raise flag) (elapsed - step)
    else timerLoop flag { t with counter := counter } i (elapsed - step)
-- A zero counter takes no cycle: it is reloaded, and the reload value is never zero.
termination_by (elapsed, if t.counter = 0#16 then 1 else 0)
decreasing_by
  · by_cases hc : t.counter = 0#16
    · apply Prod.Lex.right'
      · omega
      · simp [hc, t.reload_ne_zero]
    · apply Prod.Lex.left
      have := toNat_pos_of_ne_zero hc
      omega
  · apply Prod.Lex.left
    rename_i moving
    have := toNat_pos_of_ne_zero fun hc : t.counter = 0#16 => moving (by simp [counter, step, hc])
    omega

def tickTimerA (s : Cia) (cycles : ℕ) : Cia :=
  if !s.ta.running then s
  else
    let (ta, icr) := timerLoop ICR_TA s.ta s.icr (cycles % 2 ^ 32)
    { s with ta := ta, icr := icr }

/-- Timer B in the Timer A input mode counts one cycle when the Timer A flag is
pending; the underflow count that `tick` passes is always zero and unused. -/
def tickTimerB (s : Cia) (cycles : ℕ) : Cia :=
  if !s.tb.running then s
  else
    let cascade := s.tb.cr &&& CRB_INMODE_MASK = CRB_INMODE_TA
    if cascade ∧ s.icr.pending &&& ICR_TA = 0#8 then s
    else
      let (tb, icr) := timerLoop ICR_TB s.tb s.icr ((if cascade then 1 else cycles) % 2 ^ 32)
      { s with tb := tb, icr := icr }

/-- `bcdInc`: one BCD step, to zero past `maxBcd` (a decimal bound). -/
def bcdInc (bcd maxBcd : BitVec 8) : BitVec 8 :=
  let lo := (bcd &&& 0x0F) + 1
  let hi := bcd >>> 4
  let (lo, hi) := if 9 < lo then (0, hi + 1) else (lo, hi)
  if maxBcd < hi * 10 + lo then 0 else (hi <<< 4) ||| lo

/-- The hour after `hr`: 12 wraps to 1, and leaving 11 flips AM/PM. -/
def incHour (hr : BitVec 8) : BitVec 8 :=
  let next := bcdInc (hr &&& 0x1F) 12
  let next := if next = 0#8 then 0x01 else next
  let pm := hr &&& 0x80
  let pm := if hr &&& 0x1F = 0x11 then pm ^^^ 0x80 else pm
  pm ||| next

/-- One tenth of a second with its carries. -/
def Time.incTenth (t : Time) : Time :=
  if 9 < t.ten + 1 then
    let sec := bcdInc t.sec 59
    if sec = 0#8 then
      let min := bcdInc t.min 59
      if min = 0#8 then { ten := 0, sec := sec, min := min, hr := incHour t.hr }
      else { t with ten := 0, sec := sec, min := min }
    else { t with ten := 0, sec := sec }
  else { t with ten := t.ten + 1 }

/-- Cycles in a tenth of a second. -/
def tenthPeriod (clockHz : BitVec 32) : ℕ :=
  let period := clockHz.toNat / 10
  if period = 0 then 100000 else period

/-- The `while (m_todAccum >= tenthPeriod)` loop with its alarm check. -/
def todLoop (period : ℕ) (tod alarm : Time) (i : Icr) (accum : ℕ) : Time × Icr × ℕ :=
  if 0 < period ∧ period ≤ accum then
    let tod := tod.incTenth
    let i := if tod = alarm then i.raise ICR_TOD else i
    todLoop period tod alarm i (accum - period)
  else (tod, i, accum)
termination_by accum
decreasing_by omega

def tickTOD (s : Cia) (cycles : ℕ) : Cia :=
  if !s.todRunning then s
  else
    let (tod, icr, accum) := todLoop (tenthPeriod s.clockHz) s.tod s.alarm s.icr
      ((s.todAccum + cycles) % 2 ^ 64)
    { s with tod := tod, icr := icr, todAccum := accum }

def tick (s : Cia) (cycles : ℕ) : Cia := tickTOD (tickTimerB (tickTimerA s cycles) cycles) cycles

/-! ## Lines from outside, and reachable states -/

def flagTrigger (s : Cia) : Cia := { s with icr := s.icr.raise ICR_FLAG }

/-- The FLAG input line: a falling edge triggers. -/
def setFlagLine (s : Cia) (level : Bool) : Cia :=
  let s := if s.flagLevel && !level then flagTrigger s else s
  { s with flagLevel := level }

def receiveSerialByte (s : Cia) (b : BitVec 8) : Cia :=
  if s.ta.cr &&& 0x40 ≠ 0#8 then s else { s with sdr := b, icr := s.icr.raise ICR_SP }

/-- What the outside can do to the chip. -/
inductive Op where
  | reset
  | read (addr : BitVec 32) (pinsA pinsB : Option (BitVec 8))
  | write (addr : BitVec 32) (val : BitVec 8)
  | tick (cycles : ℕ)
  | flagLine (level : Bool)
  | serialByte (b : BitVec 8)
  | setClockHz (hz : BitVec 32)
  | setBaseAddr (addr : BitVec 32)
  | setOutputsReadPins (on : Bool)
  | setIrqLine (line : Option Bool)
  deriving Repr

def apply (s : Cia) : Op → Cia
  | .reset => reset s
  | .read addr pinsA pinsB => (ioRead s addr pinsA pinsB).2
  | .write addr val => (ioWrite s addr val).2
  | .tick cycles => tick s cycles
  | .flagLine level => setFlagLine s level
  | .serialByte b => receiveSerialByte s b
  | .setClockHz hz => { s with clockHz := hz }
  | .setBaseAddr addr => { s with baseAddr := addr }
  | .setOutputsReadPins on => { s with outputsReadPins := on }
  | .setIrqLine line => { s with icr.irqLine := line }

/-- A state some sequence of operations leads to from a new chip. -/
def Reachable (s : Cia) : Prop := ∃ (base : BitVec 32) (ops : List Op), ops.foldl apply (init base) = s

end Mmemu.Source.Cia6526

/-!
# What the CIA's tick loops do

One equation per case of `timerLoop`, and for each of the three loops its
effect in two independent parts: how the counter or clock moves, and whether its
interrupt flag is raised. The parts do not look at each other.
-/
namespace Mmemu.Source.Cia6526
open Mmemu.Library.TimeSlicing

/-! ## Raising flags -/

theorem Icr.raise_raise (f : BitVec 8) (i : Icr) : (i.raise f).raise f = i.raise f := by
  simp [Icr.raise, Icr.updateIrq, Function.comp_def, BitVec.or_assoc]

theorem Icr.raise_comm (f g : BitVec 8) (i : Icr) :
    (i.raise g).raise f = (i.raise f).raise g := by
  have swap : i.pending ||| g ||| f = i.pending ||| f ||| g := by
    rw [BitVec.or_assoc, BitVec.or_comm g f, ← BitVec.or_assoc]
  simp [Icr.raise, Icr.updateIrq, Function.comp_def, swap]

/-! ## The timer loop -/

@[simp] theorem timerLoop_zero (flag : BitVec 8) (t : Timer) (i : Icr) :
    timerLoop flag t i 0 = (t, i) := by
  rw [timerLoop]
  simp

/-- Fewer cycles than the count: the counter goes down, nothing else happens. -/
theorem timerLoop_short (flag : BitVec 8) (t : Timer) (i : Icr) (n : ℕ)
    (h : n < t.counter.toNat) :
    timerLoop flag t i n = ({ t with counter := t.counter - BitVec.ofNat 16 n }, i) := by
  by_cases hn : n = 0
  · subst hn
    simp
  · have bound := t.counter.isLt
    have left : t.counter - BitVec.ofNat 16 n ≠ 0#16 := by
      intro h0
      have := congrArg BitVec.toNat h0
      rw [BitVec.toNat_sub_of_le (by rw [BitVec.le_def]; simp; omega)] at this
      simp at this
      omega
    rw [timerLoop, if_neg hn]
    simp [Nat.min_eq_left (Nat.le_of_lt h), left]

/-- Enough cycles for the count, one-shot: the flag is raised and the timer stops. -/
theorem timerLoop_oneShot (flag : BitVec 8) (t : Timer) (i : Icr) (n : ℕ)
    (hn : n ≠ 0) (h : t.counter.toNat ≤ n) (shot : t.cr &&& CR_ONESHOT ≠ 0#8) :
    timerLoop flag t i n =
      ({ t with counter := 0, running := false, cr := t.cr &&& ~~~CR_START }, i.raise flag) := by
  rw [timerLoop, if_neg hn]
  simp [Nat.min_eq_right h, shot]

/-- Enough cycles for the count, continuous: the flag is raised and the loop goes
on from the reload value. -/
theorem timerLoop_reload (flag : BitVec 8) (t : Timer) (i : Icr) (n : ℕ)
    (hn : n ≠ 0) (h : t.counter.toNat ≤ n) (cont : t.cr &&& CR_ONESHOT = 0#8) :
    timerLoop flag t i n =
      timerLoop flag { t with counter := t.reload } (i.raise flag) (n - t.counter.toNat) := by
  rw [timerLoop, if_neg hn]
  simp [Nat.min_eq_right h, cont]

/-- Induction over the loop by the same three cases, for `n` cycles from `t`. -/
theorem timerLoop_induct {motive : Timer → ℕ → Prop}
    (short : ∀ t n, n < t.counter.toNat → motive t n)
    (idle : ∀ t, motive t 0)
    (oneShot : ∀ t n, n ≠ 0 → t.counter.toNat ≤ n → t.cr &&& CR_ONESHOT ≠ 0#8 → motive t n)
    (again : ∀ t n, n ≠ 0 → t.counter.toNat ≤ n → t.cr &&& CR_ONESHOT = 0#8 →
      motive { t with counter := t.reload } (n - t.counter.toNat) → motive t n)
    (t : Timer) (n : ℕ) : motive t n := by
  -- strong induction on the cycles; a zero counter is reloaded before it consumes any
  have loaded : ∀ n (t : Timer), 0 < t.counter.toNat → motive t n := by
    intro n
    induction n using Nat.strong_induction_on with
    | _ n ih =>
      intro t hpos
      by_cases hshort : n < t.counter.toNat
      · exact short t n hshort
      · by_cases hshot : t.cr &&& CR_ONESHOT = 0#8
        · have reloaded : 0 < t.reload.toNat := toNat_pos_of_ne_zero t.reload_ne_zero
          exact again t n (by omega) (by omega) hshot (ih _ (by omega) _ reloaded)
        · exact oneShot t n (by omega) (by omega) hshot
  by_cases hn : n = 0
  · subst hn
    exact idle t
  · by_cases hpos : 0 < t.counter.toNat
    · exact loaded n t hpos
    · by_cases hshot : t.cr &&& CR_ONESHOT = 0#8
      · have reloaded : 0 < t.reload.toNat := toNat_pos_of_ne_zero t.reload_ne_zero
        exact again t n hn (by omega) hshot (loaded _ _ reloaded)
      · exact oneShot t n hn (by omega) hshot

/-- Whether the loop reaches zero at least once. -/
def Timer.fires (t : Timer) (n : ℕ) : Bool := decide (n ≠ 0 ∧ t.counter.toNat ≤ n)

/-- The timer after the loop; it does not depend on the interrupt register. -/
def Timer.advance (t : Timer) (n : ℕ) : Timer := (timerLoop 0 t ⟨0, 0, none⟩ n).1

theorem timerLoop_timer (flag : BitVec 8) (t : Timer) (i : Icr) (n : ℕ) :
    (timerLoop flag t i n).1 = t.advance n := by
  unfold Timer.advance
  generalize (⟨0, 0, none⟩ : Icr) = j
  generalize (0 : BitVec 8) = flag'
  induction t, n using timerLoop_induct generalizing i j with
  | short t n h => rw [timerLoop_short flag t i n h, timerLoop_short flag' t j n h]
  | idle t => simp
  | oneShot t n hn h shot =>
    rw [timerLoop_oneShot flag t i n hn h shot, timerLoop_oneShot flag' t j n hn h shot]
  | again t n hn h cont ih =>
    rw [timerLoop_reload flag t i n hn h cont, timerLoop_reload flag' t j n hn h cont]
    exact ih _ _

theorem timerLoop_icr (flag : BitVec 8) (t : Timer) (i : Icr) (n : ℕ) :
    (timerLoop flag t i n).2 = raiseWhen (t.fires n) (Icr.raise flag) i := by
  induction t, n using timerLoop_induct generalizing i with
  | short t n h => simp [timerLoop_short flag t i n h, Timer.fires, Nat.not_le.mpr h]
  | idle t => simp [Timer.fires]
  | oneShot t n hn h shot => simp [timerLoop_oneShot flag t i n hn h shot, Timer.fires, hn, h]
  | again t n hn h cont ih =>
    have now : t.fires n = true := by simp [Timer.fires, hn, h]
    rw [timerLoop_reload flag t i n hn h cont, ih, now, raiseWhen_true]
    -- raised once more or not at all in the rest of the loop: the same
    cases Timer.fires { t with counter := t.reload } (n - t.counter.toNat)
    · rfl
    · exact Icr.raise_raise flag i

/-- The loop splits into its two parts. -/
theorem timerLoop_eq (flag : BitVec 8) (t : Timer) (i : Icr) (n : ℕ) :
    timerLoop flag t i n = (t.advance n, raiseWhen (t.fires n) (Icr.raise flag) i) :=
  Prod.ext (timerLoop_timer flag t i n) (timerLoop_icr flag t i n)

/-! ### One equation per case, for the timer alone -/

theorem Timer.advance_short (t : Timer) (n : ℕ) (h : n < t.counter.toNat) :
    t.advance n = { t with counter := t.counter - BitVec.ofNat 16 n } := by
  simp [Timer.advance, timerLoop_short _ t _ n h]

@[simp] theorem Timer.advance_zero (t : Timer) : t.advance 0 = t := by
  simp [Timer.advance]

theorem Timer.advance_oneShot (t : Timer) (n : ℕ) (hn : n ≠ 0) (h : t.counter.toNat ≤ n)
    (shot : t.cr &&& CR_ONESHOT ≠ 0#8) :
    t.advance n = { t with counter := 0, running := false, cr := t.cr &&& ~~~CR_START } := by
  simp [Timer.advance, timerLoop_oneShot _ t _ n hn h shot]

theorem Timer.advance_reload (t : Timer) (n : ℕ) (hn : n ≠ 0) (h : t.counter.toNat ≤ n)
    (cont : t.cr &&& CR_ONESHOT = 0#8) :
    t.advance n = Timer.advance { t with counter := t.reload } (n - t.counter.toNat) := by
  rw [Timer.advance, timerLoop_reload _ t _ n hn h cont]
  exact timerLoop_timer _ _ _ _

/-- A continuous timer keeps everything but its counter. -/
theorem Timer.advance_continuous (t : Timer) (n : ℕ) (cont : t.cr &&& CR_ONESHOT = 0#8) :
    t.advance n = { t with counter := (t.advance n).counter } := by
  induction t, n using timerLoop_induct with
  | short t n h => rw [Timer.advance_short t n h]
  | idle t => simp
  | oneShot t n hn h shot => exact absurd cont shot
  | again t n hn h _ ih =>
    rw [Timer.advance_reload t n hn h cont]
    exact ih cont

/-! ### A stopped timer, and slices -/

/-- A tick of one timer counting Phi2: nothing while it is stopped. -/
def Timer.tick (t : Timer) (n : ℕ) : Timer := if t.running then t.advance n else t

def Timer.tickFires (t : Timer) (n : ℕ) : Bool := t.running && t.fires n

/-- A counter taken down by fewer cycles than it holds. -/
theorem Timer.counter_left (t : Timer) (n : ℕ) (h : n < t.counter.toNat) :
    (t.counter - BitVec.ofNat 16 n).toNat = t.counter.toNat - n := by
  have bound := t.counter.isLt
  have small : (BitVec.ofNat 16 n).toNat = n := by
    simp only [BitVec.toNat_ofNat]
    omega
  rw [BitVec.toNat_sub_of_le (by rw [BitVec.le_def, small]; omega), small]

theorem Timer.advance_add (t : Timer) (a b : ℕ) (run : t.running = true) :
    t.advance (a + b) = (t.advance a).tick b := by
  induction t, a using timerLoop_induct with
  | idle t => simp [Timer.tick, run]
  | short t a h =>
    have left := t.counter_left a h
    rw [Timer.advance_short t a h, Timer.tick, if_pos run]
    by_cases hb : a + b < t.counter.toNat
    · rw [Timer.advance_short t _ hb, Timer.advance_short _ b (by simp only [left]; omega)]
      simp [BitVec.sub_sub, BitVec.ofNat_add]
    · by_cases hb0 : b = 0
      · omega
      · have reaches : (t.counter - BitVec.ofNat 16 a).toNat ≤ b := by omega
        by_cases shot : t.cr &&& CR_ONESHOT = 0#8
        · rw [Timer.advance_reload t _ (by omega) (by omega) shot,
            Timer.advance_reload { t with counter := _ } b hb0 reaches shot]
          simp only [left]
          congr 1
          omega
        · rw [Timer.advance_oneShot t _ (by omega) (by omega) shot,
            Timer.advance_oneShot { t with counter := _ } b hb0 reaches shot]
  | oneShot t a hn h shot =>
    rw [Timer.advance_oneShot t _ (by omega) (by omega) shot,
      Timer.advance_oneShot t a hn h shot]
    simp [Timer.tick]
  | again t a hn h cont ih =>
    rw [Timer.advance_reload t _ (by omega) (by omega) cont, Timer.advance_reload t a hn h cont,
      ← ih run]
    congr 1
    omega

theorem Timer.tick_add (t : Timer) (a b : ℕ) : (t.tick a).tick b = t.tick (a + b) := by
  by_cases run : t.running = true
  · simp only [Timer.tick, run, if_true]
    exact (Timer.advance_add t a b run).symm
  · simp [Timer.tick, run]

theorem Timer.tickFires_add (t : Timer) (a b : ℕ) :
    t.tickFires (a + b) = (t.tickFires a || (t.tick a).tickFires b) := by
  by_cases run : t.running = true
  · by_cases h : a < t.counter.toNat
    · have left := t.counter_left a h
      have quiet : t.tickFires a = false := by simp [Timer.tickFires, Timer.fires, Nat.not_le.mpr h]
      rw [quiet, Bool.false_or, Timer.tick, if_pos run, Timer.advance_short t a h]
      simp only [Timer.tickFires, Timer.fires, run, Bool.true_and, left, decide_eq_decide]
      omega
    · by_cases ha : a = 0
      · subst ha
        simp [Timer.tickFires, Timer.fires, Timer.tick]
      · have now : t.tickFires a = true := by simp [Timer.tickFires, Timer.fires, run, ha]; omega
        have later : t.tickFires (a + b) = true := by
          simp [Timer.tickFires, Timer.fires, run, ha]
          omega
        rw [now, later, Bool.true_or]
  · simp [Timer.tickFires, Timer.tick, run]

/-! ## The time-of-day loop -/

theorem todLoop_step (period : ℕ) (tod alarm : Time) (i : Icr) (accum : ℕ)
    (h : 0 < period ∧ period ≤ accum) :
    todLoop period tod alarm i accum =
      todLoop period tod.incTenth alarm
        (raiseWhen (decide (tod.incTenth = alarm)) (Icr.raise ICR_TOD) i) (accum - period) := by
  rw [todLoop, if_pos h]
  by_cases hit : tod.incTenth = alarm <;> simp [hit]

theorem todLoop_done (period : ℕ) (tod alarm : Time) (i : Icr) (accum : ℕ)
    (h : ¬ (0 < period ∧ period ≤ accum)) :
    todLoop period tod alarm i accum = (tod, i, accum) := by
  rw [todLoop, if_neg h]

/-- Running the loop on `x + y` cycles is running it on `x` first, and then on
what that left over and `y`. -/
theorem todLoop_add (period : ℕ) (tod alarm : Time) (i : Icr) (x y : ℕ) :
    todLoop period tod alarm i (x + y) =
      (let r := todLoop period tod alarm i x
       todLoop period r.1 alarm r.2.1 (r.2.2 + y)) := by
  induction x using Nat.strong_induction_on generalizing tod i with
  | _ x ih =>
    by_cases h : 0 < period ∧ period ≤ x
    · rw [todLoop_step period tod alarm i (x + y) (by omega), todLoop_step period tod alarm i x h]
      have rest : x + y - period = x - period + y := by omega
      rw [rest]
      exact ih (x - period) (by omega) _ _
    · rw [todLoop_done period tod alarm i x h]

/-- What is left of the cycles is less than a period. -/
theorem todLoop_left (period : ℕ) (tod alarm : Time) (i : Icr) (x : ℕ) (hp : 0 < period) :
    (todLoop period tod alarm i x).2.2 = x % period := by
  induction x using Nat.strong_induction_on generalizing tod i with
  | _ x ih =>
    by_cases h : 0 < period ∧ period ≤ x
    · rw [todLoop_step period tod alarm i x h, ih (x - period) (by omega),
        ← Nat.mod_eq_sub_mod h.2]
    · have short : x < period := by omega
      rw [todLoop_done period tod alarm i x h]
      exact (Nat.mod_eq_of_lt short).symm

/-- The loop and a flag raised by another part of the chip do not disturb each other. -/
theorem todLoop_raise (period : ℕ) (tod alarm : Time) (i : Icr) (x : ℕ) (c : Bool)
    (flag : BitVec 8) :
    todLoop period tod alarm (raiseWhen c (Icr.raise flag) i) x =
      (let r := todLoop period tod alarm i x
       (r.1, raiseWhen c (Icr.raise flag) r.2.1, r.2.2)) := by
  induction x using Nat.strong_induction_on generalizing tod i with
  | _ x ih =>
    by_cases h : 0 < period ∧ period ≤ x
    · rw [todLoop_step period tod alarm _ x h, todLoop_step period tod alarm i x h,
        raiseWhen_comm (Icr.raise_comm ICR_TOD flag)]
      exact ih (x - period) (by omega) _ _
    · rw [todLoop_done period tod alarm _ x h, todLoop_done period tod alarm i x h]

end Mmemu.Source.Cia6526
