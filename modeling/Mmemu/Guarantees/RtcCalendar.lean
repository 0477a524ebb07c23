import Mathlib.Tactic.IntervalCases
import Mmemu.Library.Calendar
import Mmemu.Library.Runs
import Mmemu.Source.X16I2c

/-!
# The X16's clock keeps the calendar

A second takes the clock from one moment of the years 2000 to 2099 to the next. The registers hold
numbers that are in range as long as what is written to them is: no write is checked, the
leap-year bit counts as twenty months, and the battery bit of the weekday is taken from elsewhere
than where it is shown.
-/
namespace Mmemu.Guarantees.RtcCalendar
open Mmemu.Library.Calendar Mmemu.Library.GuardedRun Mmemu.Source.X16I2c
open Finset (range)

/-! ## Numbers in range -/

/-- Every number is one that its register counts to. -/
structure InRange (r : Rtc) : Prop where
  sec : r.sec < 60
  min : r.min < 60
  hour : r.hour < 24
  dow : 1 ≤ r.dow ∧ r.dow ≤ 7
  day : 1 ≤ r.day ∧ r.day ≤ 31
  month : 1 ≤ r.month ∧ r.month ≤ 12
  year : r.year < 100

def date (r : Rtc) : Date := ⟨2000 + r.year, r.month, r.day⟩

/-- The seconds since the year 2000 began. -/
def moment (r : Rtc) : ℕ :=
  (date r).number 2000 * 86400 + (r.hour * 3600 + r.min * 60 + r.sec)

/-- The seconds of a hundred years. -/
def century : ℕ := 36525 * 86400

theorem century_days : ∑ k ∈ range 100, yearDays (2000 + k) = 36525 := by decide

/-- The days table and the leap day are those of the calendar. -/
theorem monthLength_eq {r : Rtc} (h : InRange r) : ∃ n, Rtc.monthLength r.month = some n ∧
    n + (if r.month = 2 ∧ r.leap = true then 1 else 0) = monthDays (2000 + r.year) r.month := by
  have leap : Leap (2000 + r.year) ↔ r.leap = true := by
    have := h.year
    simp only [Leap, Rtc.leap, decide_eq_true_iff]
    omega
  have all : ∀ month, 1 ≤ month ∧ month ≤ 12 → ∀ b : Bool, ∃ n, Rtc.monthLength month = some n ∧
      n + (if month = 2 ∧ b = true then 1 else 0) =
        if month = 2 then if b = true then 29 else 28
        else if month = 4 ∨ month = 6 ∨ month = 9 ∨ month = 11 then 30 else 31 := by
    intro month within b
    obtain ⟨first, last⟩ := within
    interval_cases month <;> cases b <;> exact ⟨_, rfl, rfl⟩
  simp only [monthDays, leap]
  exact all r.month h.month r.leap

/-! ## A second -/

/-- What no second changes. -/
structure Settings (r r' : Rtc) : Prop where
  running : r'.running = r.running
  clocks : r'.clocks = r.clocks
  h24 : r'.h24 = r.h24
  vbaten : r'.vbaten = r.vbaten

/-- The seconds since midnight. -/
def timeOfDay (r : Rtc) : ℕ := r.hour * 3600 + r.min * 60 + r.sec

/-- One second later by the calendar, which starts again after a hundred years. -/
structure Next (r r' : Rtc) : Prop where
  exists_ : (date r').Valid
  time : timeOfDay r' = (timeOfDay r + 1) % 86400
  dow : r'.dow = (r.dow - 1 + (timeOfDay r + 1) / 86400) % 7 + 1
  number : (date r').number 2000 = ((date r).number 2000 + (timeOfDay r + 1) / 86400) % 36525

/-- The days of the century are counted below 36525. -/
theorem number_century {d : Date} (valid : d.Valid) (since : 2000 ≤ d.year) (before : d.year < 2100) :
    d.number 2000 < 36525 := by
  rw [← century_days]
  exact number_lt 2000 100 valid since before

theorem number_small {r : Rtc} (h : InRange r) (valid : (date r).Valid) :
    (date r).number 2000 < 36525 := by
  have := h.year
  exact number_century valid (by simp [date]) (by simp [date]; omega)

theorem first_valid {year month : ℕ} (first : 1 ≤ month) (last : month ≤ 12) :
    (⟨year, month, 1⟩ : Date).Valid := ⟨⟨first, last⟩, Nat.le_refl 1, monthDays_pos⟩

/-- After the last day of the century its first day comes again. -/
theorem number_new_year {year : ℕ} (small : year < 100) :
    (⟨2000 + if year + 1 = 100 then 0 else year + 1, 1, 1⟩ : Date).number 2000 =
      ((⟨2000 + year, 12, monthDays (2000 + year) 12⟩ : Date).number 2000 + 1) % 36525 := by
  rw [← @number_next_year 2000 (2000 + year) (Nat.le_add_right _ _)]
  by_cases over_ : year + 1 = 100
  · have ended : Date.number 2000 ⟨2000 + year + 1, 1, 1⟩ = 36525 := by
      rw [← century_days, show 2000 + year + 1 = 2100 by omega]
      simp [Date.number]
    rw [ended, if_pos over_]
    simp [Date.number]
  · have first := @first_valid (2000 + (year + 1)) 1 (Nat.le_refl 1) (by decide)
    have below := number_century first (by simp) (by simp; omega)
    rw [if_neg over_, Nat.add_assoc 2000, Nat.mod_eq_of_lt below]

theorem second_within {r : Rtc} (h : InRange r) (valid : (date r).Valid) {r' : Rtc}
    (same : date r' = date r) (time : timeOfDay r' = timeOfDay r + 1) (dow : r'.dow = r.dow)
    (more : timeOfDay r + 1 < 86400) : Next r r' := by
  have small := number_small h valid
  have := h.dow
  refine ⟨same ▸ valid, ?_, ?_, ?_⟩
  · rw [time, Nat.mod_eq_of_lt more]
  · rw [dow, Nat.div_eq_of_lt more]
    omega
  · rw [same, Nat.div_eq_of_lt more, Nat.add_zero, Nat.mod_eq_of_lt small]

theorem second_midnight {r : Rtc} (h : InRange r) {r' : Rtc} (last : timeOfDay r = 86399)
    (time : timeOfDay r' = 0) (dow : r'.dow = if 7 < r.dow + 1 then 1 else r.dow + 1)
    (valid : (date r').Valid) (number : (date r').number 2000 = ((date r).number 2000 + 1) % 36525) :
    Next r r' := by
  have := h.dow
  refine ⟨valid, ?_, ?_, ?_⟩
  · rw [time, last]
  · rw [dow, last]
    split <;> omega
  · rw [number, last]

/-- The last second of a day. -/
theorem second_last {r : Rtc} (h : InRange r) (sec : ¬r.sec + 1 < 60) (min : ¬r.min + 1 < 60)
    (hour : ¬r.hour + 1 < 24) : ∃ r', r.second = .ok r' ∧ InRange r' ∧ Settings r r' ∧
      ((date r).Valid → Next r r') := by
  have last : timeOfDay r = 86399 := by
    have := h.sec
    have := h.min
    have := h.hour
    simp only [timeOfDay]
    omega
  obtain ⟨-, -, -, dow, day, month, year⟩ := id h
  obtain ⟨n, found, days⟩ := monthLength_eq h
  unfold Rtc.second
  rw [if_neg sec, if_neg min, if_neg hour]
  have weekday : 1 ≤ (if 7 < r.dow + 1 then 1 else r.dow + 1) ∧
      (if 7 < r.dow + 1 then 1 else r.dow + 1) ≤ 7 := by
    split <;> omega
  dsimp only
  rw [found]
  unfold Rtc.leap at days ⊢
  dsimp only
  rw [days]
  have most : monthDays (2000 + r.year) r.month ≤ 31 := by
    unfold monthDays
    split <;> split <;> omega
  have this_century : 2000 + r.year < 2100 := by omega
  by_cases moreDay : r.day + 1 ≤ monthDays (2000 + r.year) r.month
  · rw [if_pos moreDay]
    refine ⟨_, rfl, ⟨Nat.succ_pos _, Nat.succ_pos _, Nat.succ_pos _, weekday,
      ⟨Nat.succ_pos _, moreDay.trans most⟩, month, year⟩, ⟨rfl, rfl, rfl, rfl⟩, fun valid => ?_⟩
    have valid' : (⟨2000 + r.year, r.month, r.day + 1⟩ : Date).Valid :=
      ⟨month, Nat.succ_pos _, moreDay⟩
    have next := @number_next_day 2000 (2000 + r.year) r.month r.day day.1
    have below := number_century valid' (Nat.le_add_right _ _) this_century
    refine second_midnight h last (by simp [timeOfDay]) rfl valid' ?_
    exact (Nat.mod_eq_of_lt below).symm.trans (congrArg (· % 36525) next)
  rw [if_neg moreDay]
  have lastDay (valid : (date r).Valid) : r.day = monthDays (2000 + r.year) r.month := by
    have : r.day ≤ monthDays (2000 + r.year) r.month := valid.day.2
    omega
  by_cases moreMonth : r.month + 1 ≤ 12
  · rw [if_pos moreMonth]
    refine ⟨_, rfl, ⟨Nat.succ_pos _, Nat.succ_pos _, Nat.succ_pos _, weekday, by simp,
      ⟨Nat.succ_pos _, moreMonth⟩, year⟩, ⟨rfl, rfl, rfl, rfl⟩, fun valid => ?_⟩
    have valid' := @first_valid (2000 + r.year) (r.month + 1) (Nat.succ_pos _) moreMonth
    have next := @number_next_month 2000 (2000 + r.year) r.month month.1
    rw [← lastDay valid] at next
    have below := number_century valid' (Nat.le_add_right _ _) this_century
    refine second_midnight h last (by simp [timeOfDay]) rfl valid' ?_
    exact (Nat.mod_eq_of_lt below).symm.trans (congrArg (· % 36525) next)
  · rw [if_neg moreMonth]
    have december : r.month = 12 := by omega
    refine ⟨_, rfl, ⟨Nat.succ_pos _, Nat.succ_pos _, Nat.succ_pos _, weekday, by simp, by simp, ?_⟩,
      ⟨rfl, rfl, rfl, rfl⟩, fun valid => ?_⟩
    · dsimp only
      split <;> omega
    have here : date r = ⟨2000 + r.year, 12, monthDays (2000 + r.year) 12⟩ := by
      rw [date, lastDay valid, december]
    refine second_midnight h last (by simp [timeOfDay]) rfl (@first_valid _ 1 (Nat.le_refl 1) (by decide)) ?_
    rw [here]
    exact number_new_year year

/-- A second keeps the numbers in range, and from a date that there is it leads to the next
second. -/
theorem second_ok {r : Rtc} (h : InRange r) : ∃ r', r.second = .ok r' ∧ InRange r' ∧ Settings r r' ∧
    ((date r).Valid → Next r r') := by
  obtain ⟨sec, min, hour, dow, day, month, year⟩ := id h
  by_cases moreSec : r.sec + 1 < 60
  · rw [Rtc.second, if_pos moreSec]
    refine ⟨_, rfl, ⟨moreSec, min, hour, dow, day, month, year⟩, ⟨rfl, rfl, rfl, rfl⟩, fun valid => ?_⟩
    exact second_within h valid rfl (by simp only [timeOfDay]; omega) rfl (by simp only [timeOfDay]; omega)
  by_cases moreMin : r.min + 1 < 60
  · rw [Rtc.second, if_neg moreSec, if_pos moreMin]
    refine ⟨_, rfl, ⟨Nat.succ_pos _, moreMin, hour, dow, day, month, year⟩,
      ⟨rfl, rfl, rfl, rfl⟩, fun valid => ?_⟩
    exact second_within h valid rfl (by simp only [timeOfDay]; omega) rfl (by simp only [timeOfDay]; omega)
  by_cases moreHour : r.hour + 1 < 24
  · rw [Rtc.second, if_neg moreSec, if_neg moreMin, if_pos moreHour]
    refine ⟨_, rfl, ⟨Nat.succ_pos _, Nat.succ_pos _, moreHour, dow, day, month, year⟩,
      ⟨rfl, rfl, rfl, rfl⟩, fun valid => ?_⟩
    exact second_within h valid rfl (by simp only [timeOfDay]; omega) rfl (by simp only [timeOfDay]; omega)
  exact second_last h moreSec moreMin moreHour

/-! ## The loop -/

/-- The loop takes the whole seconds off the cycles, and whatever a second preserves is carried
along. -/
theorem seconds_ok (inv : ℕ → Rtc → Prop) {hz : BitVec 64} (positive : 0 < hz.toNat)
    (free : ∀ n r clocks, inv n r → inv n { r with clocks := clocks })
    (step : ∀ n r, inv n r → ∃ r', r.second = .ok r' ∧ inv (n + 1) r' ∧ r'.clocks = r.clocks)
    (rounds : ℕ) {n : ℕ} {r : Rtc} (enough : r.clocks.toNat < rounds) (h : inv n r) :
    ∃ r', r.seconds hz rounds = .ok r' ∧ inv (n + r.clocks.toNat / hz.toNat) r' ∧
      r'.clocks.toNat = r.clocks.toNat % hz.toNat := by
  induction rounds generalizing n r with
  | zero => omega
  | succ rounds ih =>
    unfold Rtc.seconds
    by_cases whole : hz ≤ r.clocks
    · have le := BitVec.le_def.mp whole
      have left : (r.clocks - hz).toNat = r.clocks.toNat - hz.toNat := BitVec.toNat_sub_of_le whole
      obtain ⟨r1, passed, inv1, clocks⟩ := step n _ (free n r (r.clocks - hz) h)
      rw [if_pos whole, passed]
      have fewer : r1.clocks.toNat < rounds := by
        rw [clocks, left]
        omega
      obtain ⟨r', done, inv', rest⟩ := ih fewer inv1
      rw [clocks, left] at inv' rest
      refine ⟨r', done, ?_, ?_⟩
      · rw [Nat.div_eq_sub_div positive le, Nat.add_comm _ 1, ← Nat.add_assoc]
        exact inv'
      · rw [rest, Nat.mod_eq_sub_mod le]
    · have lt : r.clocks.toNat < hz.toNat := BitVec.lt_def.mp (BitVec.not_le.mp whole)
      rw [if_neg whole, Nat.div_eq_of_lt lt, Nat.mod_eq_of_lt lt]
      exact ⟨r, rfl, h, rfl⟩

/-! ## The calendar -/

/-- The clock `n` seconds after it was at `start`. -/
structure Shows (start : Rtc) (n : ℕ) (r : Rtc) : Prop where
  inRange : InRange r
  exists_ : (date r).Valid
  running : r.running = true
  moment : moment r = (moment start + n) % century
  dow : r.dow = (start.dow - 1 + (timeOfDay start + n) / 86400) % 7 + 1

theorem moment_eq (r : Rtc) : moment r = (date r).number 2000 * 86400 + timeOfDay r := rfl

theorem timeOfDay_lt {r : Rtc} (h : InRange r) : timeOfDay r < 86400 := by
  have := h.sec
  have := h.min
  have := h.hour
  simp only [timeOfDay]
  omega

theorem shows_start {r : Rtc} (h : InRange r) (valid : (date r).Valid) (running : r.running = true) :
    Shows r 0 r := by
  have small := number_small h valid
  have time := timeOfDay_lt h
  have := h.dow
  refine ⟨h, valid, running, ?_, ?_⟩
  · rw [moment_eq, Nat.add_zero, Nat.mod_eq_of_lt]
    simp only [century]
    omega
  · have none_ : (timeOfDay r + 0) / 86400 = 0 := by simp [Nat.div_eq_of_lt time]
    rw [none_]
    omega

section Arithmetic
variable {days time start n : ℕ} (here : days * 86400 + time = (start + n) % century)
include here

theorem moment_succ : (days + (time + 1) / 86400) % 36525 * 86400 + (time + 1) % 86400 =
    (start + (n + 1)) % century := by
  have whole : (start + (n + 1)) % century = (days * 86400 + (time + 1)) % (86400 * 36525) := by
    rw [← Nat.add_assoc, ← Nat.mod_add_mod, ← here, Nat.add_assoc, century, Nat.mul_comm 36525]
  rw [whole, Nat.mod_mul, Nat.mul_comm days, Nat.mul_add_mod, Nat.mul_add_div (by simp), Nat.add_comm,
    Nat.mul_comm 86400]

theorem timeOfDay_of_moment (today : time < 86400) : time = (start + n) % 86400 := by
  have part : (start + n) % century % 86400 = (start + n) % 86400 :=
    Nat.mod_mod_of_dvd _ (Dvd.intro_left 36525 rfl)
  rw [← part, ← here, Nat.mul_comm, Nat.mul_add_mod, Nat.mod_eq_of_lt today]

end Arithmetic

theorem shows_second {start r : Rtc} {n : ℕ} (shows_ : Shows start n r) :
    ∃ r', r.second = .ok r' ∧ Shows start (n + 1) r' ∧ r'.clocks = r.clocks := by
  obtain ⟨r', passed, inRange, settings, next⟩ := second_ok shows_.inRange
  obtain ⟨exists_, time, dow, number⟩ := next shows_.exists_
  have here := shows_.moment
  have weekday := shows_.dow
  have today := timeOfDay_lt shows_.inRange
  rw [moment_eq, moment_eq] at here
  refine ⟨r', passed, ⟨inRange, exists_, settings.running.trans shows_.running, ?_, ?_⟩, settings.clocks⟩
  · rw [moment_eq, number, time]
    exact moment_succ here
  · rw [dow, weekday]
    have same : timeOfDay r = (timeOfDay start + n) % 86400 := by
      rw [timeOfDay_of_moment here today, Nat.add_assoc, Nat.mul_comm, Nat.mul_add_mod]
    have days : (timeOfDay start + n) / 86400 + (timeOfDay r + 1) / 86400 =
        (timeOfDay start + (n + 1)) / 86400 := by
      rw [same]
      omega
    rw [← days]
    omega

/-- Cycles that pass, added up, take the clock as many seconds on. -/
theorem steps_calendar {start : Rtc} {hz : BitVec 64} (positive : 0 < hz.toNat) (cs : List (BitVec 64))
    (short : ∀ c ∈ cs, c.toNat + hz.toNat ≤ 2 ^ 64) {n : ℕ} {r : Rtc} (shows_ : Shows start n r)
    (rest : r.clocks.toNat < hz.toNat) :
    ∃ r', cs.foldlM (fun r c => r.step c hz) r = .ok r' ∧
      Shows start (n + (r.clocks.toNat + (cs.map BitVec.toNat).sum) / hz.toNat) r' ∧
      r'.clocks.toNat = (r.clocks.toNat + (cs.map BitVec.toNat).sum) % hz.toNat := by
  induction cs generalizing n r with
  | nil =>
    refine ⟨r, rfl, ?_, ?_⟩
    · simpa [Nat.div_eq_of_lt rest] using shows_
    · simp [Nat.mod_eq_of_lt rest]
  | cons c cs ih =>
    have fits := short c (List.mem_cons_self ..)
    have sum : (r.clocks + c).toNat = r.clocks.toNat + c.toNat := by
      rw [BitVec.toNat_add, Nat.mod_eq_of_lt (by omega)]
    obtain ⟨r1, done, shows1, rest1⟩ := seconds_ok (Shows start) positive
      (fun _ _ _ h => ⟨⟨h.1.1, h.1.2, h.1.3, h.1.4, h.1.5, h.1.6, h.1.7⟩, h.2, h.3, h.4, h.5⟩)
      (fun _ _ h => shows_second h) ((r.clocks + c).toNat + 1) (n := n)
      (r := { r with clocks := r.clocks + c }) (Nat.lt_succ_self _)
      ⟨⟨shows_.1.1, shows_.1.2, shows_.1.3, shows_.1.4, shows_.1.5, shows_.1.6, shows_.1.7⟩,
        shows_.2, shows_.3, shows_.4, shows_.5⟩
    have first : r.step c hz = .ok r1 := by
      rw [Rtc.step, if_pos shows_.running]
      exact done
    rw [sum] at shows1 rest1
    obtain ⟨r', later, shows', rest'⟩ := ih (fun c' mem => short c' (List.mem_cons_of_mem _ mem)) shows1
      (rest1 ▸ Nat.mod_lt _ positive)
    refine ⟨r', ?_, ?_, ?_⟩
    · rw [List.foldlM_cons, first]
      exact later
    · have total : (r.clocks.toNat + ((c :: cs).map BitVec.toNat).sum) / hz.toNat =
          (r.clocks.toNat + c.toNat) / hz.toNat +
            ((r.clocks.toNat + c.toNat) % hz.toNat + (cs.map BitVec.toNat).sum) / hz.toNat := by
        rw [← Nat.mul_add_div positive, ← Nat.add_assoc, Nat.div_add_mod, List.map_cons, List.sum_cons,
          Nat.add_assoc]
      rw [total, ← Nat.add_assoc, ← rest1]
      exact shows'
    · rw [rest', rest1, Nat.mod_add_mod, List.map_cons, List.sum_cons, Nat.add_assoc]

/-! ## Register values -/

/-- Two decimal digits that spell a number within bounds. -/
def Bcd (first last : ℕ) (v : Byte) : Prop :=
  v.toNat % 16 ≤ 9 ∧ first ≤ unbcd v ∧ unbcd v ≤ last

instance (first last : ℕ) (v : Byte) : Decidable (Bcd first last v) :=
  inferInstanceAs (Decidable (_ ∧ _))

def HourValue (v : Byte) : Prop :=
  v.getLsbD 7 = false ∧ if v.getLsbD 6 then Bcd 1 12 (v &&& 0x1F) else Bcd 0 23 (v &&& 0x3F)

instance (v : Byte) : Decidable (HourValue v) := inferInstanceAs (Decidable (_ ∧ _))

/-- A byte that a time register of the chip can hold. -/
def TimeValue : ℕ → Byte → Prop
  | 0, v => Bcd 0 59 (v &&& 0x7F)
  | 1, v => Bcd 0 59 v
  | 2, v => HourValue v
  | 3, v => v &&& 0xC0 = 0 ∧ 1 ≤ (v &&& 7).toNat
  | 4, v => Bcd 1 31 v
  | 5, v => v &&& 0xC0 = 0 ∧ Bcd 1 12 (v &&& 0x1F)
  | 6, v => Bcd 0 99 v
  | _, _ => True

instance TimeValue.decidable : (reg : ℕ) → (v : Byte) → Decidable (TimeValue reg v)
  | 0, v => inferInstanceAs (Decidable (Bcd 0 59 (v &&& 0x7F)))
  | 1, v => inferInstanceAs (Decidable (Bcd 0 59 v))
  | 2, v => inferInstanceAs (Decidable (HourValue v))
  | 3, _ => inferInstanceAs (Decidable (_ ∧ _))
  | 4, v => inferInstanceAs (Decidable (Bcd 1 31 v))
  | 5, _ => inferInstanceAs (Decidable (_ ∧ _))
  | 6, v => inferInstanceAs (Decidable (Bcd 0 99 v))
  | _ + 7, _ => .isTrue trivial

/-- The bits of a register that a write sets. The oscillator bit of the weekday and the leap-year
bit of the month are the chip's. -/
def own (reg : Byte) : Byte := if reg = 3 then 0x0F else if reg = 5 then 0x1F else 0xFF

theorem bcd_inRange {first last n : ℕ} (within : first ≤ n ∧ n ≤ last) (two : last < 100) :
    Bcd first last (bcd n) := by
  have all : ∀ n < 100, (bcd n).toNat % 16 ≤ 9 ∧ unbcd (bcd n) = n := by decide
  obtain ⟨digit, value⟩ := all n (by omega)
  exact ⟨digit, by omega, by omega⟩

theorem bcd_unbcd {first last : ℕ} {v : Byte} (h : Bcd first last v) (two : last < 100) :
    bcd (unbcd v) = v := by
  have all : ∀ v : Byte, v.toNat % 16 ≤ 9 → unbcd v < 100 → bcd (unbcd v) = v := by decide
  obtain ⟨digit, -, most⟩ := h
  exact all v digit (by omega)

theorem hourRegister_value {r : Rtc} (small : r.hour < 24) : HourValue r.hourRegister := by
  have all : ∀ hour < 24, ∀ h24 : Bool, HourValue
      (if h24 then bcd hour
      else
        let pm := decide (12 ≤ hour)
        let h := if pm then hour - 12 else hour
        bcd (if h = 0 then 12 else h) ||| bitAt pm 5 ||| bitAt true 6) := by
    decide
  exact all r.hour small r.h24

theorem beyond {n : ℕ} (no0 : ¬n = 0) (no1 : ¬n = 1) (no2 : ¬n = 2) (no3 : ¬n = 3) (no4 : ¬n = 4)
    (no5 : ¬n = 5) (no6 : ¬n = 6) : ∃ k, n = k + 7 := ⟨n - 7, by omega⟩

/-- What is in range reads as the chip would hold it. -/
theorem register_timeValue {r : Rtc} (h : InRange r) (reg : Byte) :
    TimeValue reg.toNat (r.register reg) := by
  obtain ⟨sec, min, hour, dow, day, month, year⟩ := h
  unfold Rtc.register
  split
  next zero =>
    have all : ∀ n < 60, ∀ b : Bool, Bcd 0 59 ((bcd n ||| bitAt b 7) &&& 0x7F) := by decide
    rw [zero]
    exact all r.sec sec r.running
  next one =>
    rw [one]
    exact bcd_inRange ⟨Nat.zero_le _, Nat.le_of_lt_succ min⟩ (by decide)
  next two =>
    rw [two]
    exact hourRegister_value hour
  next three =>
    have all : ∀ n < 8, 1 ≤ n → ∀ b b' : Bool,
        let v : Byte := BitVec.ofNat 8 n ||| bitAt b 3 ||| bitAt b' 5
        v &&& 0xC0 = 0 ∧ 1 ≤ (v &&& 7).toNat := by decide
    rw [three]
    exact all r.dow (Nat.lt_succ_of_le dow.2) dow.1 r.vbaten r.running
  next four =>
    rw [four]
    exact bcd_inRange day (by decide)
  next five =>
    have all : ∀ n < 13, 1 ≤ n → ∀ b : Bool,
        let v : Byte := bcd n ||| bitAt b 5
        v &&& 0xC0 = 0 ∧ Bcd 1 12 (v &&& 0x1F) := by decide
    rw [five]
    exact all r.month (Nat.lt_succ_of_le month.2) month.1 r.leap
  next six =>
    rw [six]
    exact bcd_inRange ⟨Nat.zero_le _, Nat.le_of_lt_succ year⟩ (by decide)
  next no0 no1 no2 no3 no4 no5 no6 =>
    obtain ⟨k, later⟩ := beyond no0 no1 no2 no3 no4 no5 no6
    rw [later]
    trivial

/-! ## Writes -/

/-- What a write must hold for the number it leaves to be in range. The leap-year bit is read as
two tens of months. -/
def Accepted : ℕ → Byte → Prop
  | 0, v => unbcd (v &&& 0x7F) < 60
  | 1, v => unbcd v < 60
  | 2, v =>
    if v.getLsbD 6 then
      if v.getLsbD 5 then unbcd (v &&& 0x1F) ≤ 12 else unbcd (v &&& 0x1F) < 24
    else unbcd (v &&& 0x3F) < 24
  | 3, v => 1 ≤ (v &&& 7).toNat
  | 4, v => 1 ≤ unbcd v ∧ unbcd v ≤ 31
  | 5, v => 1 ≤ unbcd v ∧ unbcd v ≤ 12
  | 6, v => unbcd v < 100
  | _, _ => True

theorem setHour_hour (r : Rtc) (v : Byte) : (r.setHour v).hour < 24 ↔ Accepted 2 v := by
  have all : ∀ v : Byte,
      (let h24 := !v.getLsbD 6
        let pm := !h24 && v.getLsbD 5
        let hh := unbcd (if h24 then v &&& 0x3F else v &&& 0x1F)
        let hh := if !h24 && decide (hh = 12) then 0 else hh
        if pm then hh + 12 else hh) < 24 ↔
      if v.getLsbD 6 then
        if v.getLsbD 5 then unbcd (v &&& 0x1F) ≤ 12 else unbcd (v &&& 0x1F) < 24
      else unbcd (v &&& 0x3F) < 24 := by
    decide
  exact all v

theorem setRegister_inRange {r : Rtc} (h : InRange r) (reg v : Byte) :
    InRange (r.setRegister reg v) ↔ Accepted reg.toNat v := by
  obtain ⟨sec, min, hour, dow, day, month, year⟩ := h
  unfold Rtc.setRegister
  split
  next zero =>
    rw [zero]
    exact ⟨fun h => h.sec, fun sec => ⟨sec, min, hour, dow, day, month, year⟩⟩
  next one =>
    rw [one]
    exact ⟨fun h => h.min, fun min => ⟨sec, min, hour, dow, day, month, year⟩⟩
  next two =>
    rw [two, ← setHour_hour r]
    exact ⟨fun h => h.hour, fun hour => ⟨sec, min, hour, dow, day, month, year⟩⟩
  next three =>
    have small : (v &&& 7).toNat ≤ 7 := by
      rw [BitVec.toNat_and]
      exact Nat.and_le_right
    rw [three]
    exact ⟨fun h => h.dow.1, fun dow => ⟨sec, min, hour, ⟨dow, small⟩, day, month, year⟩⟩
  next four =>
    rw [four]
    exact ⟨fun h => h.day, fun day => ⟨sec, min, hour, dow, day, month, year⟩⟩
  next five =>
    rw [five]
    exact ⟨fun h => h.month, fun month => ⟨sec, min, hour, dow, day, month, year⟩⟩
  next six =>
    rw [six]
    exact ⟨fun h => h.year, fun year => ⟨sec, min, hour, dow, day, month, year⟩⟩
  next no0 no1 no2 no3 no4 no5 no6 =>
    obtain ⟨k, later⟩ := beyond no0 no1 no2 no3 no4 no5 no6
    rw [later]
    refine iff_of_true ?_ trivial
    split
    · exact ⟨sec, min, hour, dow, day, month, year⟩
    · exact ⟨sec, min, hour, dow, day, month, year⟩

/-! ## Runs -/

inductive Event where
  | data (v : Byte)
  | write
  | read
  | step (cycles : BitVec 64)
  deriving DecidableEq, Repr

/-- The clock after an event, unless it is lost. -/
def enter (hz : BitVec 64) (s : Except Rtc.Fault Rtc) (e : Event) : Except Rtc.Fault Rtc :=
  match s with
  | .error fault => .error fault
  | .ok r =>
    match e with
    | .data v => .ok (r.data v)
    | .write => .ok r.write
    | .read => .ok r.read.2
    | .step cycles => r.step cycles hz

/-- The clock is not lost and its numbers are in range. -/
def Kept (s : Except Rtc.Fault Rtc) : Prop := ∃ r, s = .ok r ∧ InRange r

def Sound (s : Except Rtc.Fault Rtc) (e : Event) : Prop :=
  ∀ r, s = .ok r → e = .write → Accepted (r.buffer 0).toNat (r.buffer 1)

theorem inRange_clocks {r : Rtc} (clocks : BitVec 64) (h : InRange r) : InRange { r with clocks := clocks } :=
  ⟨h.1, h.2, h.3, h.4, h.5, h.6, h.7⟩

theorem kept_enter {hz : BitVec 64} (positive : 0 < hz.toNat) {s : Except Rtc.Fault Rtc} {e : Event}
    (kept : Kept s) : Kept (enter hz s e) ↔ Sound s e := by
  obtain ⟨r, rfl, h⟩ := kept
  have same : ∀ r', Kept (.ok r') ↔ InRange r' := fun r' =>
    ⟨fun ⟨_, eq, h⟩ => Except.ok.inj eq ▸ h, fun h => ⟨r', rfl, h⟩⟩
  cases e with
  | data v =>
    refine iff_of_true ?_ fun _ _ other => by cases other
    refine (same _).mpr ?_
    unfold Rtc.data
    split
    · exact ⟨h.1, h.2, h.3, h.4, h.5, h.6, h.7⟩
    · exact h
  | write =>
    have written := setRegister_inRange h (r.buffer 0) (r.buffer 1)
    have rewound : InRange r.write ↔ InRange (r.setRegister (r.buffer 0) (r.buffer 1)) :=
      ⟨fun h => ⟨h.1, h.2, h.3, h.4, h.5, h.6, h.7⟩, fun h => ⟨h.1, h.2, h.3, h.4, h.5, h.6, h.7⟩⟩
    refine (same _).trans (rewound.trans (written.trans ?_))
    exact ⟨fun accepted r' eq _ => Except.ok.inj eq ▸ accepted, fun sound => sound r rfl rfl⟩
  | read =>
    refine iff_of_true ((same _).mpr ?_) fun _ _ other => by cases other
    exact ⟨h.1, h.2, h.3, h.4, h.5, h.6, h.7⟩
  | step cycles =>
    refine iff_of_true ?_ fun _ _ other => by cases other
    change Kept (r.step cycles hz)
    unfold Rtc.step
    split
    · obtain ⟨r', done, h', -⟩ := seconds_ok (fun _ r => InRange r) positive
        (fun _ _ clocks h => inRange_clocks clocks h)
        (fun _ _ h => by
          obtain ⟨r', passed, h', settings, -⟩ := second_ok h
          exact ⟨r', passed, h', settings.clocks⟩)
        ((r.clocks + cycles).toNat + 1) (n := 0) (r := { r with clocks := r.clocks + cycles })
        (Nat.lt_succ_self _) (inRange_clocks _ h)
      exact ⟨r', done, h'⟩
    · exact ⟨r, rfl, h⟩

/-! ## Reading back -/

/-- No second passes and nothing is written. -/
def Quiet (hz : BitVec 64) (s : Except Rtc.Fault Rtc) (e : Event) : Prop :=
  match e with
  | .write => False
  | .step cycles =>
    ∀ r, s = .ok r → r.running = true → r.clocks.toNat + cycles.toNat < hz.toNat
  | _ => True

theorem quiet_enter {hz : BitVec 64} {r : Rtc} {e : Event} (quiet : Quiet hz (.ok r) e) :
    ∃ r', enter hz (.ok r) e = .ok r' ∧ ∀ reg, r'.register reg = r.register reg := by
  cases e with
  | data v =>
    refine ⟨r.data v, rfl, ?_⟩
    intro reg
    unfold Rtc.data
    split <;> rfl
  | write => exact absurd quiet id
  | read => exact ⟨r.read.2, rfl, fun _ => rfl⟩
  | step cycles =>
    change ∃ r', r.step cycles hz = .ok r' ∧ _
    unfold Rtc.step
    split
    next running =>
      have short := quiet r rfl running
      have := hz.isLt
      have less : ¬hz ≤ r.clocks + cycles := by
        rw [BitVec.le_def, BitVec.toNat_add, Nat.mod_eq_of_lt (by omega)]
        omega
      refine ⟨{ r with clocks := r.clocks + cycles }, ?_, fun _ => rfl⟩
      dsimp only
      rw [Rtc.seconds, if_neg less]
    next => exact ⟨r, rfl, fun _ => rfl⟩

theorem quiet_run {hz : BitVec 64} {r : Rtc} {es : List Event}
    (quiet : Guarded (enter hz) (Quiet hz) (.ok r) es) :
    ∃ r', es.foldl (enter hz) (.ok r) = .ok r' ∧ ∀ reg, r'.register reg = r.register reg := by
  refine foldl_invariant (enter hz) (Quiet hz)
    (fun s => ∃ r', s = .ok r' ∧ ∀ reg, r'.register reg = r.register reg) ?_ _ es
    ⟨r, rfl, fun _ => rfl⟩ quiet
  rintro s e ⟨r', rfl, same⟩ quiet
  obtain ⟨r'', entered, same'⟩ := quiet_enter quiet
  exact ⟨r'', entered, fun reg => (same' reg).trans (same reg)⟩

theorem time_registers : ∀ reg : Byte, reg.toNat < 7 →
    reg = 0 ∨ reg = 1 ∨ reg = 2 ∨ reg = 3 ∨ reg = 4 ∨ reg = 5 ∨ reg = 6 := by
  decide

/-- A value that the chip can hold is read back as it was written, but for the battery bit of the
weekday: it is taken from bit 5 and shown in bit 3. -/
theorem register_setRegister (r : Rtc) {reg v : Byte} (time : reg.toNat < 7)
    (value : TimeValue reg.toNat v) :
    (r.setRegister reg v).register reg &&& own reg = v &&& own reg ↔
      (reg = 3 → v.getLsbD 5 = v.getLsbD 3) := by
  obtain rfl | rfl | rfl | rfl | rfl | rfl | rfl := time_registers reg time
  · have all : ∀ v : Byte, Bcd 0 59 (v &&& 0x7F) →
        bcd (unbcd (v &&& 0x7F)) ||| bitAt (v.getLsbD 7) 7 = v := by decide
    exact iff_of_true (congrArg (· &&& own 0) (all v value)) fun other => absurd other (by decide)
  · exact iff_of_true (congrArg (· &&& own 1) (bcd_unbcd value (by decide)))
      fun other => absurd other (by decide)
  · have all : ∀ v : Byte, HourValue v → (Rtc.new.setHour v).hourRegister = v := by decide
    exact iff_of_true (congrArg (· &&& own 2) (all v value)) fun other => absurd other (by decide)
  · have all : ∀ (v : Byte) (b : Bool),
        (BitVec.ofNat 8 (v &&& 7).toNat ||| bitAt (v.getLsbD 5) 3 ||| bitAt b 5) &&& own 3 = v &&& own 3 ↔
          v.getLsbD 5 = v.getLsbD 3 := by decide
    exact (all v r.running).trans ⟨fun same _ => same, fun same => same rfl⟩
  · exact iff_of_true (congrArg (· &&& own 4) (bcd_unbcd value (by decide)))
      fun other => absurd other (by decide)
  · have all : ∀ (v : Byte) (b : Bool), v &&& 0xC0 = 0 ∧ Bcd 1 12 (v &&& 0x1F) →
        (bcd (unbcd v) ||| bitAt b 5) &&& own 5 = v &&& own 5 := by decide
    exact iff_of_true (all v _ value) fun other => absurd other (by decide)
  · exact iff_of_true (congrArg (· &&& own 6) (bcd_unbcd value (by decide)))
      fun other => absurd other (by decide)

/-! ## The clock -/

theorem clock_keeps_time (hz : BitVec 64) (positive : 0 < hz.toNat) :
    (∀ r, InRange r → ∀ es,
      (∀ before, before <+: es → Kept (before.foldl (enter hz) (.ok r))) ↔
        Guarded (enter hz) Sound (.ok r) es) ∧
    (∀ r, InRange r → (∃ n, Rtc.monthLength r.month = some n) ∧
      ∀ reg, TimeValue reg.toNat (r.register reg)) ∧
    (∀ r : Rtc, (r.buffer 0).toNat < 7 → TimeValue (r.buffer 0).toNat (r.buffer 1) →
      ((∀ es, Guarded (enter hz) (Quiet hz) (.ok r.write) es →
          ∃ r', es.foldl (enter hz) (.ok r.write) = .ok r' ∧
            r'.register (r.buffer 0) &&& own (r.buffer 0) = r.buffer 1 &&& own (r.buffer 0)) ↔
        (r.buffer 0 = 3 → (r.buffer 1).getLsbD 5 = (r.buffer 1).getLsbD 3))) ∧
    (∀ r, InRange r → (date r).Valid → r.running = true → r.clocks.toNat < hz.toNat →
      ∀ cs : List (BitVec 64), (∀ c ∈ cs, c.toNat + hz.toNat ≤ 2 ^ 64) →
        ∃ r', cs.foldlM (fun r c => r.step c hz) r = .ok r' ∧
          Shows r ((r.clocks.toNat + (cs.map BitVec.toNat).sum) / hz.toNat) r' ∧
          r'.clocks.toNat = (r.clocks.toNat + (cs.map BitVec.toNat).sum) % hz.toNat) := by
  refine ⟨?_, ?_, ?_, ?_⟩
  · intro r h es
    exact forall_prefix_iff (enter hz) Sound Kept (fun _ _ kept => kept_enter positive kept) ⟨r, rfl, h⟩ es
  · intro r h
    obtain ⟨n, found, -⟩ := monthLength_eq h
    exact ⟨⟨n, found⟩, register_timeValue h⟩
  · intro r time value
    rw [← register_setRegister r time value]
    constructor
    · intro all
      obtain ⟨r', ended, back⟩ := all [] trivial
      rw [← Except.ok.inj ended] at back
      exact back
    · intro back es quiet
      obtain ⟨r', ended, same⟩ := quiet_run quiet
      refine ⟨r', ended, ?_⟩
      rw [same]
      exact back
  · intro r h valid running rest cs short
    obtain ⟨r', ended, shows_, rest'⟩ := steps_calendar positive cs short (shows_start h valid running) rest
    rw [Nat.zero_add] at shows_
    exact ⟨r', ended, shows_, rest'⟩

/-- Set a register. -/
def set (reg v : Byte) : List Event := [.data reg, .data v, .write]

/-- The last second of the 31st of December 2099, with the clock running. -/
def lastSecond : Rtc :=
  { Rtc.new with
    running := true, sec := 59, min := 59, hour := 23, dow := 4, day := 31, month := 12, year := 99 }

theorem lastSecond_inRange : InRange lastSecond := by
  constructor <;> decide

theorem lastSecond_valid : (date lastSecond).Valid := by
  constructor <;> decide

theorem clock_keeps_time_lastSecond :
    ((∀ before, before <+: set 5 0x12 → Kept (before.foldl (enter 8000000) (.ok lastSecond))) ↔
        Guarded (enter 8000000) Sound (.ok lastSecond) (set 5 0x12)) ∧
      TimeValue (0 : Byte).toNat (lastSecond.register 0) ∧
      ((∀ es, Guarded (enter 8000000) (Quiet 8000000) (.ok Rtc.new.write) es →
          ∃ r', es.foldl (enter 8000000) (.ok Rtc.new.write) = .ok r' ∧
            r'.register (Rtc.new.buffer 0) &&& own (Rtc.new.buffer 0) =
              Rtc.new.buffer 1 &&& own (Rtc.new.buffer 0)) ↔
        (Rtc.new.buffer 0 = 3 → (Rtc.new.buffer 1).getLsbD 5 = (Rtc.new.buffer 1).getLsbD 3)) ∧
      ∃ r', [(5000000 : BitVec 64), 3000000].foldlM (fun r c => r.step c 8000000) lastSecond = .ok r' ∧
        Shows lastSecond 1 r' := by
  obtain ⟨kept, reads, back, calendar⟩ := clock_keeps_time 8000000 (by decide)
  refine ⟨kept lastSecond lastSecond_inRange _, (reads lastSecond lastSecond_inRange).2 0,
    back Rtc.new (by decide) (by decide), ?_⟩
  obtain ⟨r', ended, shows_, -⟩ := calendar lastSecond lastSecond_inRange lastSecond_valid rfl (by decide)
    [5000000, 3000000] (by simp)
  exact ⟨r', ended, shows_⟩

/-- The second month of a leap year, written with its leap-year bit, is the month 22: the next day
is looked for outside of the days table. -/
def leapMonth : List Event :=
  set 5 0x22 ++ set 2 0x23 ++ set 1 0x59 ++ set 0 0xD9 ++ [.step 8000000]

def lost (s : Except Rtc.Fault Rtc) : Bool :=
  match s with
  | .error .table => true
  | _ => false

theorem clock_loses_time : lost (leapMonth.foldl (enter 8000000) (.ok .new)) = true ∧
    TimeValue 3 0x09 ∧ (Rtc.new.setRegister 3 0x09).register 3 = 0x01 := by
  decide

end Mmemu.Guarantees.RtcCalendar
