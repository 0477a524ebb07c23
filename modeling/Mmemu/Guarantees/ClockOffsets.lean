import Mmemu.Library.Calendar
import Mmemu.Source.Mega65Clock

/-!
# The MEGA65 clock after it is set

What a program writes to the registers is kept as six offsets from the host's fields. Each register
then shows the written field moved by as much as the host's own field has moved, without a carry of
its own: the time is right at once, its seconds stay so, and the whole time does while the host's
fields move as those of the written time would.
-/
namespace Mmemu.Guarantees.ClockOffsets
open Mmemu.Library.Calendar Mmemu.Source.Mega65Clock Mmemu.Source.Mega65Clock.Mega65Rtc

/-! ## A time of the years 2000 to 2099 -/

structure Clock where
  year : ℕ
  month : ℕ
  day : ℕ
  hour : ℕ
  min : ℕ
  sec : ℕ
  deriving DecidableEq, Repr

namespace Clock

structure Valid (c : Clock) : Prop where
  date : (Date.mk (2000 + c.year) c.month c.day).Valid
  year : c.year < 100
  hour : c.hour < 24
  min : c.min < 60
  sec : c.sec < 60

/-- A second later. -/
def next (c : Clock) : Clock :=
  if c.sec < 59 then { c with sec := c.sec + 1 }
  else if c.min < 59 then { c with min := c.min + 1, sec := 0 }
  else if c.hour < 23 then { c with hour := c.hour + 1, min := 0, sec := 0 }
  else if c.day < monthDays (2000 + c.year) c.month then
    { c with day := c.day + 1, hour := 0, min := 0, sec := 0 }
  else if c.month < 12 then { c with month := c.month + 1, day := 1, hour := 0, min := 0, sec := 0 }
  else { year := (c.year + 1) % 100, month := 1, day := 1, hour := 0, min := 0, sec := 0 }

/-- So many seconds later. -/
def after (c : Clock) (n : ℕ) : Clock := next^[n] c

/-- The fields in the order of the registers. -/
def field (c : Clock) : ℕ → ℤ
  | 0 => c.sec
  | 1 => c.min
  | 2 => c.hour
  | 3 => c.day
  | 4 => c.month
  | _ => c.year

theorem next_sec {c : Clock} (sec : c.sec < 60) : c.next.sec = (c.sec + 1) % 60 := by
  unfold next
  split
  next before =>
    rw [Nat.mod_eq_of_lt (by omega)]
  next last =>
    rw [show c.sec = 59 by omega]
    split
    · rfl
    · split
      · rfl
      · split
        · rfl
        · split <;> rfl

theorem after_sec {c : Clock} (sec : c.sec < 60) (n : ℕ) : (c.after n).sec = (c.sec + n) % 60 := by
  induction n generalizing c with
  | zero => exact (Nat.mod_eq_of_lt sec).symm
  | succ n ih =>
    have later := ih (c := c.next) (next_sec sec ▸ Nat.mod_lt _ (by decide))
    rw [next_sec sec] at later
    change (next^[n] c.next).sec = _
    change (next^[n] c.next).sec = _ at later
    omega

end Clock

/-! ## The calendar -/

namespace Clock

theorem monthDays_le (year month : ℕ) : monthDays year month ≤ 31 := by
  unfold monthDays
  split <;> split <;> decide

theorem Valid.next {c : Clock} (valid : c.Valid) : c.next.Valid := by
  obtain ⟨⟨⟨first, last⟩, one, most⟩, year, hour, min, sec⟩ := valid
  have noSec : 0 < 60 := by decide
  have noHour : 0 < 24 := by decide
  have january : 1 ≤ 12 := by decide
  unfold Clock.next
  dsimp only at *
  split
  next before => exact ⟨⟨⟨first, last⟩, one, most⟩, year, hour, min, Nat.succ_lt_succ before⟩
  split
  next before => exact ⟨⟨⟨first, last⟩, one, most⟩, year, hour, Nat.succ_lt_succ before, noSec⟩
  split
  next before => exact ⟨⟨⟨first, last⟩, one, most⟩, year, Nat.succ_lt_succ before, noSec, noSec⟩
  split
  next before => exact ⟨⟨⟨first, last⟩, Nat.le_succ_of_le one, before⟩, year, noHour, noSec, noSec⟩
  split
  next before =>
    exact ⟨⟨⟨Nat.le_succ_of_le first, before⟩, le_rfl, monthDays_pos⟩, year, noHour, noSec, noSec⟩
  next =>
    exact ⟨⟨⟨le_rfl, january⟩, le_rfl, monthDays_pos⟩, Nat.mod_lt _ (by decide), noHour, noSec, noSec⟩

theorem Valid.after {c : Clock} (valid : c.Valid) (n : ℕ) : (c.after n).Valid := by
  induction n generalizing c with
  | zero => exact valid
  | succ n ih => exact ih valid.next

end Clock

/-! ## The registers -/

/-- The byte of a number in a register: the hours have the flag of the 24 hours. -/
def byte (i : ℕ) (x : ℤ) : BitVec 8 := if i = 2 then toBcd x ||| 0x80 else toBcd x

/-- How a register brings a number into its range. -/
def fit : ℕ → ℤ → ℤ
  | 0 | 1 => normalize 60
  | 2 => normalize 24
  | 3 => clamp 1 31
  | 4 => clamp 1 12
  | _ => normalize 100

/-- The host's field of a register. -/
def hostField (t : Tm) : ℕ → ℤ
  | 0 => t.tm_sec
  | 1 => t.tm_min
  | 2 => t.tm_hour
  | 3 => t.tm_mday
  | 4 => t.tm_mon + 1
  | _ => t.tm_year.tmod 100

def offset (rtc : Mega65Rtc) : ℕ → ℤ
  | 0 => rtc.m_offsetSec
  | 1 => rtc.m_offsetMin
  | 2 => rtc.m_offsetHour
  | 3 => rtc.m_offsetDay
  | 4 => rtc.m_offsetMon
  | _ => rtc.m_offsetYear

/-- The address of a register. -/
def regAddr (rtc : Mega65Rtc) (i : ℕ) : BitVec 32 := rtc.m_base ||| BitVec.ofNat 32 (0x10 + i)

section
variable {rtc : Mega65Rtc} {i : ℕ}

theorem register_eq (small : i < 6) (t : Tm) :
    rtc.register t i = byte i (fit i (hostField t i + offset rtc i)) := by
  match i, small with
  | 0, _ | 1, _ | 2, _ | 3, _ | 4, _ | 5, _ => rfl

/-- The low bits of the base are free for the register. -/
theorem base_page : rtc.m_base &&& ~~~addrMask = rtc.m_base := by
  have parts : rtc.m_base &&& (addrMask ||| ~~~addrMask) = rtc.m_base := by
    rw [show addrMask ||| ~~~addrMask = BitVec.allOnes 32 by decide, BitVec.and_allOnes]
  rw [BitVec.and_or_distrib_left, show rtc.m_base &&& addrMask = 0 from rtc.aligned] at parts
  rw [← BitVec.zero_or (x := rtc.m_base &&& ~~~addrMask)]
  exact parts

theorem regAddr_page (small : i < 6) : regAddr rtc i &&& ~~~addrMask = rtc.m_base := by
  have low : BitVec.ofNat 32 (0x10 + i) &&& ~~~addrMask = 0 := by
    revert i
    decide
  unfold regAddr
  rw [BitVec.and_comm, BitVec.and_or_distrib_left, BitVec.and_comm, base_page, BitVec.and_comm, low]
  exact BitVec.or_zero

theorem regAddr_reg (small : i < 6) : (regAddr rtc i &&& 0x7F).toNat = 0x10 + i := by
  have low : (BitVec.ofNat 32 (0x10 + i) &&& 0x7F).toNat = 0x10 + i := by
    revert i
    decide
  unfold regAddr
  rw [BitVec.and_comm, BitVec.and_or_distrib_left, BitVec.and_comm, rtc.aligned]
  change (0#32 ||| _).toNat = _
  rw [BitVec.zero_or, BitVec.and_comm]
  exact low

theorem ioRead_regAddr (small : i < 6) (t : Tm) :
    rtc.ioRead (regAddr rtc i) t = some (byte i (fit i (hostField t i + offset rtc i))) := by
  unfold ioRead
  rw [if_neg (not_not_intro (regAddr_page small))]
  dsimp only
  rw [regAddr_reg small, if_neg (by omega), if_neg (by omega), if_neg (by omega), Nat.add_sub_cancel_left,
    register_eq small]

/-- The number that a write to a register stands for. -/
def number (i : ℕ) (val : BitVec 8) : ℤ :=
  if i = 2 then ((fromBcd (val &&& 0x7F)).toNat &&& 0x3F : ℕ) else fromBcd (val &&& 0x7F)

theorem ioWrite_regAddr (small : i < 6) (val : BitVec 8) (t : Tm) :
    (rtc.ioWrite (regAddr rtc i) val t).1 = rtc.setRegister t (fromBcd (val &&& 0x7F)) i := by
  unfold ioWrite
  rw [if_neg (not_not_intro (regAddr_page small))]
  dsimp only
  rw [regAddr_reg small, if_neg (by omega), if_neg (by omega), if_neg (by omega), Nat.add_sub_cancel_left]

/-- A write sets the offset of its register and no other. -/
theorem offset_setRegister (small : i < 6) (val : BitVec 8) (t : Tm) {j : ℕ} (small' : j < 6) :
    offset (rtc.setRegister t (fromBcd (val &&& 0x7F)) i) j =
      if j = i then number i val - hostField t i else offset rtc j := by
  match i, small with
  | 0, _ | 1, _ | 2, _ | 3, _ | 4, _ | 5, _ =>
    match j, small' with
    | 0, _ | 1, _ | 2, _ | 3, _ | 4, _ | 5, _ => rfl

theorem setRegister_base (t : Tm) (written : ℤ) : (rtc.setRegister t written i).m_base = rtc.m_base := by
  unfold setRegister
  split <;> rfl

end

/-! ## Runs -/

inductive Event where
  | write (addr : BitVec 32) (val : BitVec 8) (t : Tm)
  | tick (cycles : BitVec 64) (t : Tm)
  | reset

def step (rtc : Mega65Rtc) : Event → Mega65Rtc
  | .write addr val t => (rtc.ioWrite addr val t).1
  | .tick cycles t => (rtc.tick cycles t).1
  | .reset => rtc.reset

def run (rtc : Mega65Rtc) (events : List Event) : Mega65Rtc := events.foldl step rtc

/-- The six writes of a time, the hours with or without the flag of the 24 hours. -/
def writes (c : Clock) (flag : Bool) : List (ℕ × BitVec 8) :=
  [(0, toBcd c.sec), (1, toBcd c.min), (2, if flag then toBcd c.hour ||| 0x80 else toBcd c.hour),
    (3, toBcd c.day), (4, toBcd c.month), (5, toBcd c.year)]

/-- Writes to registers within one host second. -/
def set (rtc : Mega65Rtc) (t : Tm) (order : List (ℕ × BitVec 8)) : Mega65Rtc :=
  order.foldl (fun rtc w => (rtc.ioWrite (regAddr rtc w.1) w.2 t).1) rtc

/-- An event that leaves the setting alone: no reset, and no write to a register of the time. -/
def Quiet (base : BitVec 32) : Event → Prop
  | .write addr _ _ => addr &&& ~~~addrMask = base → (addr &&& 0x7F).toNat < 0x10 ∨ 0x15 < (addr &&& 0x7F).toNat
  | .tick _ _ => True
  | .reset => False

theorem step_quiet {rtc : Mega65Rtc} {e : Event} (quiet : Quiet rtc.m_base e) :
    (step rtc e).m_base = rtc.m_base ∧ offset (step rtc e) = offset rtc := by
  cases e with
  | reset => exact quiet.elim
  | tick cycles t =>
    change (rtc.tick cycles t).1.m_base = _ ∧ offset (rtc.tick cycles t).1 = _
    unfold tick
    split
    · exact ⟨rfl, rfl⟩
    · dsimp only
      split
      · exact ⟨rfl, funext fun i => by unfold offset; split <;> rfl⟩
      · exact ⟨rfl, funext fun i => by unfold offset; split <;> rfl⟩
  | write addr val t =>
    change (rtc.ioWrite addr val t).1.m_base = _ ∧ offset (rtc.ioWrite addr val t).1 = _
    unfold ioWrite
    split
    · exact ⟨rfl, rfl⟩
    next mine =>
      have outside := quiet (not_not.mp mine)
      dsimp only
      split
      · exact ⟨rfl, rfl⟩
      · split
        · exact ⟨rfl, funext fun i => by unfold offset; split <;> rfl⟩
        · exact ⟨rfl, rfl⟩

theorem run_quiet {rtc : Mega65Rtc} {events : List Event} (quiet : ∀ e ∈ events, Quiet rtc.m_base e) :
    (run rtc events).m_base = rtc.m_base ∧ offset (run rtc events) = offset rtc := by
  induction events generalizing rtc with
  | nil => exact ⟨rfl, rfl⟩
  | cons e rest ih =>
    obtain ⟨base, same⟩ := step_quiet (quiet e (List.mem_cons_self ..))
    have quiet' : ∀ e' ∈ rest, Quiet (step rtc e).m_base e' := fun e' mem =>
      base ▸ quiet e' (List.mem_cons_of_mem _ mem)
    obtain ⟨base', same'⟩ := ih quiet'
    exact ⟨base'.trans base, same'.trans same⟩

theorem set_other (rtc : Mega65Rtc) (t : Tm) {order : List (ℕ × BitVec 8)} (small : ∀ w ∈ order, w.1 < 6)
    {i : ℕ} (small' : i < 6) (other : i ∉ order.map Prod.fst) : offset (set rtc t order) i = offset rtc i := by
  induction order generalizing rtc with
  | nil => rfl
  | cons w rest ih =>
    rw [List.map_cons, List.mem_cons, not_or] at other
    have first := small w (List.mem_cons_self ..)
    have later := ih (rtc.ioWrite (regAddr rtc w.1) w.2 t).1 (fun w mem => small w (List.mem_cons_of_mem _ mem))
      other.2
    rw [ioWrite_regAddr first, offset_setRegister first _ _ small', if_neg other.1, ← ioWrite_regAddr first]
      at later
    exact later

/-- Each register keeps what is written to it, in whatever order. -/
theorem set_offset (rtc : Mega65Rtc) (t : Tm) {order : List (ℕ × BitVec 8)} (small : ∀ w ∈ order, w.1 < 6)
    (once : (order.map Prod.fst).Nodup) {i : ℕ} {val : BitVec 8} (mem : (i, val) ∈ order) :
    offset (set rtc t order) i = number i val - hostField t i := by
  induction order generalizing rtc with
  | nil => cases mem
  | cons w rest ih =>
    have small' : ∀ w ∈ rest, w.1 < 6 := fun w mem => small w (List.mem_cons_of_mem _ mem)
    rw [List.map_cons, List.nodup_cons] at once
    rcases List.mem_cons.mp mem with rfl | mem
    · have first : i < 6 := small (i, val) (List.mem_cons_self ..)
      change offset (set (rtc.ioWrite (regAddr rtc i) val t).1 t rest) i = _
      rw [set_other _ t small' first once.1, ioWrite_regAddr first, offset_setRegister first _ _ first, if_pos rfl]
    · exact ih _ small' once.2 mem

theorem set_base (rtc : Mega65Rtc) (t : Tm) {order : List (ℕ × BitVec 8)} (small : ∀ w ∈ order, w.1 < 6) :
    (set rtc t order).m_base = rtc.m_base := by
  induction order generalizing rtc with
  | nil => rfl
  | cons w rest ih =>
    have later := ih (rtc.ioWrite (regAddr rtc w.1) w.2 t).1 fun w mem => small w (List.mem_cons_of_mem _ mem)
    rw [ioWrite_regAddr (small w (List.mem_cons_self ..)), setRegister_base,
      ← ioWrite_regAddr (small w (List.mem_cons_self ..))] at later
    exact later

/-! ## The copy on the physical bus -/

/-- Offsets that the remainders of the copy are made for. -/
structure Bounded (rtc : Mega65Rtc) : Prop where
  sec : -60 ≤ rtc.m_offsetSec
  min : -60 ≤ rtc.m_offsetMin
  hour : -24 ≤ rtc.m_offsetHour
  year : -100 ≤ rtc.m_offsetYear

theorem fromBcd_nonneg (bcd : BitVec 8) : 0 ≤ fromBcd bcd := Int.natCast_nonneg _

theorem Bounded.step {rtc : Mega65Rtc} (h : Bounded rtc) (e : Event) : Bounded (step rtc e) := by
  cases e with
  | reset => exact ⟨(by decide : (-60 : ℤ) ≤ 0), (by decide : (-60 : ℤ) ≤ 0), (by decide : (-24 : ℤ) ≤ 0), (by decide : (-100 : ℤ) ≤ 0)⟩
  | tick cycles t =>
    change Bounded (rtc.tick cycles t).1
    unfold tick
    split
    · exact h
    · dsimp only
      split
      · exact ⟨h.sec, h.min, h.hour, h.year⟩
      · exact ⟨h.sec, h.min, h.hour, h.year⟩
  | write addr val t =>
    have written := fromBcd_nonneg (val &&& 0x7F)
    have sec := t.sec_range
    have min := t.min_range
    have hour := t.hour_range
    have year : t.tm_year.tmod 100 < 100 := Int.tmod_lt_of_pos _ (by decide)
    change Bounded (rtc.ioWrite addr val t).1
    unfold ioWrite
    split
    · exact h
    · dsimp only
      split
      · exact h
      · split
        · exact ⟨h.sec, h.min, h.hour, h.year⟩
        · split
          · exact h
          · unfold setRegister
            split
            · exact ⟨by dsimp only; omega, h.min, h.hour, h.year⟩
            · exact ⟨h.sec, by dsimp only; omega, h.hour, h.year⟩
            · exact ⟨h.sec, h.min, by dsimp only; omega, h.year⟩
            · exact ⟨h.sec, h.min, h.hour, h.year⟩
            · exact ⟨h.sec, h.min, h.hour, h.year⟩
            · exact ⟨h.sec, h.min, h.hour, by dsimp only; omega⟩
            · exact ⟨h.sec, h.min, h.hour, h.year⟩

theorem Bounded.run {rtc : Mega65Rtc} (h : Bounded rtc) (events : List Event) : Bounded (run rtc events) := by
  induction events generalizing rtc with
  | nil => exact h
  | cons e rest ih => exact ih (h.step e)

/-- The copy's remainder is the one of the register. -/
theorem tmod_eq {m x : ℤ} (low : 0 ≤ x + m) : (x + m).tmod m = normalize m x := by
  rw [Int.tmod_eq_emod_of_nonneg low, Int.add_emod_right]
  rfl

theorem copy_eq {rtc : Mega65Rtc} (h : Bounded rtc) (t : Tm) :
    rtc.copy t = (List.range 6).map fun i =>
      (0x0FFD7110 + BitVec.ofNat 32 i, byte i (fit i (hostField t i + offset rtc i))) := by
  obtain ⟨sec, min, hour, year⟩ := h
  have sec' := t.sec_range
  have min' := t.min_range
  have hour' := t.hour_range
  have year' : 0 ≤ t.tm_year.tmod 100 := Int.tmod_nonneg _ t.year_range
  unfold copy
  dsimp only
  rw [tmod_eq (by omega), tmod_eq (by omega), tmod_eq (by omega), tmod_eq (by omega)]
  rfl

/-! ## The clock moves with the host's fields -/

/-- The field of a register at a host time, for a time that was set at another: the written field
moved by as much as the host's. -/
def moved (c : Clock) (t₀ t₁ : Tm) (i : ℕ) : ℤ := fit i (c.field i + (hostField t₁ i - hostField t₀ i))

/-- The host's field has moved like the one of the time after so many seconds; those that come
around, up to that. -/
def Alike (c : Clock) (t₀ t₁ : Tm) (n : ℕ) (i : ℕ) : Prop :=
  let apart := (hostField t₁ i - hostField t₀ i) - ((c.after n).field i - c.field i)
  match i with
  | 0 | 1 => apart % 60 = 0
  | 2 => apart % 24 = 0
  | 3 | 4 => apart = 0
  | _ => apart % 100 = 0

section
variable {c : Clock} (valid : c.Valid)
include valid

theorem written_number {flag : Bool} {i : ℕ} {val : BitVec 8} (mem : (i, val) ∈ writes c flag)
    (plain : i = 5 → c.year < 80) : number i val = c.field i := by
  obtain ⟨⟨⟨-, last⟩, -, most⟩, -, hour, min, sec⟩ := valid
  have days := Clock.monthDays_le (2000 + c.year) c.month
  dsimp only at last most
  have inverse : ∀ x : ℕ, x < 80 → fromBcd (toBcd x &&& 0x7F) = x := by decide
  have hours : ∀ x : ℕ, x < 24 → ∀ flag : Bool,
      number 2 (if flag then toBcd x ||| 0x80 else toBcd x) = x := by decide
  simp only [writes, List.mem_cons, Prod.mk.injEq, List.not_mem_nil, or_false] at mem
  rcases mem with ⟨rfl, rfl⟩ | ⟨rfl, rfl⟩ | ⟨rfl, rfl⟩ | ⟨rfl, rfl⟩ | ⟨rfl, rfl⟩ | ⟨rfl, rfl⟩
  · exact inverse c.sec (by omega)
  · exact inverse c.min (by omega)
  · exact hours c.hour hour flag
  · exact inverse c.day (by omega)
  · exact inverse c.month (by omega)
  · exact inverse c.year (plain rfl)

theorem moved_alike {t₀ t₁ : Tm} {n i : ℕ} (small : i < 6) (alike : Alike c t₀ t₁ n i) :
    moved c t₀ t₁ i = (c.after n).field i := by
  obtain ⟨⟨⟨first, last⟩, one, most⟩, year, hour, min, sec⟩ := valid.after n
  have days := Clock.monthDays_le (2000 + (c.after n).year) (c.after n).month
  dsimp only at first last one most
  unfold Alike at alike
  unfold moved
  generalize hostField t₁ i - hostField t₀ i = apart at alike ⊢
  match i, small with
  | 0, _ | 1, _ | 2, _ | 3, _ | 4, _ | 5, _ =>
    simp only [fit, Mega65Rtc.normalize, clamp, Clock.field] at alike ⊢
    omega

/-- The time that was set is shown at once. -/
theorem moved_at_once {t₀ : Tm} {i : ℕ} (small : i < 6) : moved c t₀ t₀ i = c.field i := by
  refine moved_alike valid (n := 0) small ?_
  unfold Alike Clock.after
  match i, small with
  | 0, _ | 1, _ | 2, _ | 3, _ | 4, _ | 5, _ =>
    simp

/-- The seconds go on as long as the host's do. -/
theorem moved_sec {t₀ t₁ : Tm} {n : ℕ} (later : (t₁.tm_sec - t₀.tm_sec - n) % 60 = 0) :
    moved c t₀ t₁ 0 = (c.after n).field 0 := by
  have sec := Clock.after_sec valid.sec n
  refine moved_alike valid (by decide) ?_
  simp only [Alike, hostField, Clock.field, sec]
  omega

end

theorem step_base (rtc : Mega65Rtc) (e : Event) : (step rtc e).m_base = rtc.m_base := by
  cases e with
  | reset => rfl
  | tick cycles t =>
    change (rtc.tick cycles t).1.m_base = _
    unfold tick
    split
    · rfl
    · dsimp only
      split <;> rfl
  | write addr val t =>
    change (rtc.ioWrite addr val t).1.m_base = _
    unfold ioWrite
    split
    · rfl
    · dsimp only
      split
      · rfl
      · split
        · rfl
        · split
          · rfl
          · exact setRegister_base t _

theorem run_base (rtc : Mega65Rtc) (events : List Event) : (run rtc events).m_base = rtc.m_base := by
  induction events generalizing rtc with
  | nil => rfl
  | cons e rest ih => exact (ih (step rtc e)).trans (step_base rtc e)

/-- Every register is written once. -/
theorem writes_once (c : Clock) (flag : Bool) : ((writes c flag).map Prod.fst) = List.range 6 := rfl

/-- The registers show the written fields moved by as much as the host's: at once the time itself,
then each field of the time so many seconds later that the host's has moved like, the seconds always.
The copy is what the registers show. -/
theorem clock_moves {base : BitVec 32} (aligned : base &&& 0x7F = 0) (physBus : Bool) (before : List Event)
    {c : Clock} (valid : c.Valid) {flag : Bool} {order : List (ℕ × BitVec 8)} (any : order.Perm (writes c flag))
    (t₀ : Tm) {later : List Event} (quiet : ∀ e ∈ later, Quiet base e) {rtc : Mega65Rtc}
    (reached : rtc = run (set (run (create base aligned physBus) before) t₀ order) later) :
    (∀ t₁ i, i < 6 → (i = 5 → c.year < 80) → rtc.ioRead (regAddr rtc i) t₁ = some (byte i (moved c t₀ t₁ i))) ∧
    (∀ i < 6, moved c t₀ t₀ i = c.field i) ∧
    (∀ t₁ n i, i < 6 → Alike c t₀ t₁ n i → moved c t₀ t₁ i = (c.after n).field i) ∧
    (∀ (t₁ : Tm) (n : ℕ), (t₁.tm_sec - t₀.tm_sec - n) % 60 = 0 → moved c t₀ t₁ 0 = (c.after n).field 0) ∧
    ∀ events cycles t₁, let rtc := run (create base aligned physBus) events
      (rtc.tick cycles t₁).2 = [] ∨ (rtc.tick cycles t₁).2 =
        (List.range 6).map fun i => (0x0FFD7110 + BitVec.ofNat 32 i, (rtc.ioRead (regAddr rtc i) t₁).getD 0) := by
  refine ⟨fun t₁ i small plain => ?_, fun i small => moved_at_once valid small,
    fun t₁ n i small alike => moved_alike valid small alike, fun t₁ n along => moved_sec valid along,
    fun events cycles t₁ => ?_⟩
  · have keys : (order.map Prod.fst).Perm (List.range 6) := writes_once c flag ▸ any.map Prod.fst
    have smalls : ∀ w ∈ order, w.1 < 6 := fun w mem =>
      List.mem_range.mp (keys.mem_iff.mp (List.mem_map.mpr ⟨w, mem, rfl⟩))
    have once : (order.map Prod.fst).Nodup := keys.nodup_iff.mpr List.nodup_range
    obtain ⟨w, mem, rfl⟩ := List.mem_map.mp (keys.mem_iff.mpr (List.mem_range.mpr small))
    have based : (set (run (create base aligned physBus) before) t₀ order).m_base = base := by
      rw [set_base _ _ smalls, run_base]
      rfl
    have kept := (run_quiet (based.symm ▸ quiet)).2
    have written : (w.1, w.2) ∈ order := mem
    have stored := set_offset (run (create base aligned physBus) before) t₀ smalls once written
    rw [written_number valid (any.mem_iff.mp mem) plain] at stored
    rw [ioRead_regAddr small, reached, kept, stored]
    unfold moved
    rw [show hostField t₁ w.1 + (c.field w.1 - hostField t₀ w.1) =
      c.field w.1 + (hostField t₁ w.1 - hostField t₀ w.1) by omega]
  · have bounded : Bounded (run (create base aligned physBus) events) :=
      Bounded.run ⟨(by decide : (-60 : ℤ) ≤ 0), (by decide : (-60 : ℤ) ≤ 0), (by decide : (-24 : ℤ) ≤ 0),
        (by decide : (-100 : ℤ) ≤ 0)⟩ events
    have shown : ∀ i ∈ List.range 6, ((0x0FFD7110 : BitVec 32) + BitVec.ofNat 32 i,
        byte i (fit i (hostField t₁ i + offset (run (create base aligned physBus) events) i))) =
        (0x0FFD7110 + BitVec.ofNat 32 i, ((run (create base aligned physBus) events).ioRead
          (regAddr (run (create base aligned physBus) events) i) t₁).getD 0) := by
      intro i mem
      rw [ioRead_regAddr (List.mem_range.mp mem), Option.getD_some]
    dsimp only
    rw [← List.map_congr_left shown, ← copy_eq bounded]
    unfold tick
    split
    · exact .inl rfl
    · dsimp only
      split
      · exact .inl rfl
      · exact .inr rfl

/-- Ten seconds before a host minute ends, and six seconds later. -/
def tenLeft : Tm := ⟨50, 0, 12, 15, 5, 126, by decide, by decide, by decide, by decide, by decide, by decide⟩
def fourLeft : Tm := ⟨56, 0, 12, 15, 5, 126, by decide, by decide, by decide, by decide, by decide, by decide⟩

/-- A time with five seconds left of its minute. -/
def fiveLeft : Clock := ⟨26, 6, 15, 12, 0, 55⟩

theorem fiveLeft_valid : fiveLeft.Valid :=
  ⟨⟨⟨by decide, by decide⟩, by decide, by decide⟩, by decide, by decide, by decide, by decide⟩

def newClock : Mega65Rtc := create 0xD700 (by decide) true

theorem clock_moves_fiveLeft :
    fiveLeft.Valid ∧ (writes fiveLeft true).Perm (writes fiveLeft true) ∧
      (∀ i < 6, moved fiveLeft tenLeft tenLeft i = fiveLeft.field i) := by
  have aligned : (0xD700 : BitVec 32) &&& 0x7F = 0 := by decide
  have quiet : ∀ e ∈ [Event.tick 1000 fourLeft], Quiet 0xD700 e := by
    intro e mem
    rw [List.mem_singleton.mp mem]
    trivial
  have moves := clock_moves aligned true [] fiveLeft_valid (.refl (writes fiveLeft true)) tenLeft quiet rfl
  exact ⟨fiveLeft_valid, .refl _, moves.2.1⟩

/-- Six seconds after it was set the minute has not moved on, as the host's has not. -/
theorem minute_stays : fiveLeft.Valid ∧
    (set newClock tenLeft (writes fiveLeft false)).ioRead 0xD711 fourLeft = some 0x00 ∧
      byte 1 ((fiveLeft.after 6).field 1) = 0x01 :=
  ⟨fiveLeft_valid, by decide, by decide⟩

end Mmemu.Guarantees.ClockOffsets
