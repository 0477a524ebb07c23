import Mathlib.Tactic.Common
import Mmemu.Library.Runs
import Mmemu.Source.X16I2c

/-!
# Frames on the X16's I2C bus

The bus samples the data line at rising clock edges, so that what a master does between START
and STOP comes down to the levels it holds there: nine to a frame, eight bits and the
acknowledge. Each kind of frame has one lemma that says what it does to the clock chip.
-/
namespace Mmemu.Guarantees.I2cFrames
open Mmemu.Source.X16I2c

/-! ## Line changes -/

/-- The port writes of a master, one after the other. -/
def drive (b : I2cBus) (lines : List (Bool × Bool)) : I2cBus :=
  lines.foldl (fun b l => b.setMaster l.1 l.2) b

theorem drive_append (b : I2cBus) (xs ys : List (Bool × Bool)) :
    drive b (xs ++ ys) = drive (drive b xs) ys := List.foldl_append ..

/-- What a master reads off the data line after each rising edge. -/
def heard (b : I2cBus) : List (Bool × Bool) → List Bool
  | [] => []
  | l :: rest =>
    (if l.1 = true ∧ b.clkIn = false then [(b.setMaster l.1 l.2).slaveData] else []) ++
      heard (b.setMaster l.1 l.2) rest

theorem heard_append (b : I2cBus) (xs ys : List (Bool × Bool)) :
    heard b (xs ++ ys) = heard b xs ++ heard (drive b xs) ys := by
  induction xs generalizing b with
  | nil => rfl
  | cons l rest ih =>
    simp only [List.cons_append, heard, ih, List.append_assoc]
    rfl

/-- One clock pulse: the data line may move while the clock is low, and holds a level
while it is high. -/
structure Pulse where
  wiggles : List Bool
  level : Bool

def Pulse.lines (p : Pulse) : List (Bool × Bool) :=
  p.wiggles.map (fun d => (false, d)) ++ [(false, p.level), (true, p.level), (false, p.level)]

/-- The lines as a step has seen them. -/
def relevel (b : I2cBus) (clk data : Bool) : I2cBus :=
  { b with clkIn := clk, oldClk := clk, dataIn := data, oldData := data }

/-- A rising edge at a level of the data line. -/
def clock (b : I2cBus) (level : Bool) : I2cBus := { b with dataIn := level }.rise

def clocks (b : I2cBus) (levels : List Bool) : I2cBus := levels.foldl clock b

def clocksHeard (b : I2cBus) : List Bool → List Bool
  | [] => []
  | l :: rest => (clock b l).dataOut :: clocksHeard (clock b l) rest

theorem clocks_append (b : I2cBus) (xs ys : List Bool) :
    clocks b (xs ++ ys) = clocks (clocks b xs) ys := List.foldl_append ..

theorem clocksHeard_append (b : I2cBus) (xs ys : List Bool) :
    clocksHeard b (xs ++ ys) = clocksHeard b xs ++ clocksHeard (clocks b xs) ys := by
  induction xs generalizing b with
  | nil => rfl
  | cons l rest ih =>
    simp only [List.cons_append, clocksHeard, ih]
    rfl

theorem length_clocksHeard (b : I2cBus) (levels : List Bool) :
    (clocksHeard b levels).length = levels.length := by
  induction levels generalizing b with
  | nil => rfl
  | cons l rest ih => simp only [clocksHeard, List.length_cons, ih]

/-! ## Bits and acknowledges -/

/-- A bit that the master sends. -/
theorem bit_in {b : I2cBus} {n : ℕ} (off : b.readMode = false) :
    b.bit n = { b with value := b.value <<< 1 ||| (if b.dataIn then 1 else 0), state := some (n + 1) } := by
  unfold I2cBus.bit
  rw [if_neg (by rw [off]; exact Bool.false_ne_true)]

/-- The first bit that a device sends. -/
theorem bit_first {b : I2cBus} (on : b.readMode = true) :
    b.bit 0 = { b.fetch with dataOut := b.fetch.value.msb, value := b.fetch.value <<< 1, state := some 1 } := by
  unfold I2cBus.bit
  rw [if_pos on]
  rfl

/-- A later bit of the same byte. -/
theorem bit_out {b : I2cBus} {n : ℕ} (on : b.readMode = true) (later : n ≠ 0) :
    b.bit n = { b with dataOut := b.value.msb, value := b.value <<< 1, state := some (n + 1) } := by
  unfold I2cBus.bit
  rw [if_pos on, if_neg later]

/-- The acknowledge of a byte that the master sent. -/
theorem ack_in {b : I2cBus} (off : b.readMode = false) :
    b.ack =
      if b.byte.1 then { b.byte.2 with dataOut := false, count := b.byte.2.count + 1, state := some 0 }
      else { b.byte.2 with count := 0, readMode := false, state := some 0 } := by
  unfold I2cBus.ack
  rw [if_neg (by rw [off]; exact Bool.false_ne_true)]
  change ({ (if b.byte.1 = true then _ else _ : I2cBus) with state := _ } : I2cBus) = _
  split <;> rfl

/-- The acknowledge of a byte that a device sent: the last one is refused. -/
theorem ack_out {b : I2cBus} (on : b.readMode = true) :
    b.ack =
      if b.dataIn then { b with count := 0, readMode := false, state := some 0 }
      else { b with state := some 0 } := by
  unfold I2cBus.ack
  rw [if_pos on]
  split <;> rfl

theorem rise_idle {b : I2cBus} (idle : b.state = none) : b.rise = b := by
  unfold I2cBus.rise
  rw [idle]

theorem rise_bit {b : I2cBus} {n : ℕ} (place : b.state = some n) (inside : n < 8) :
    b.rise = { b with dataOut := true }.bit n := by
  unfold I2cBus.rise
  split
  next idle => rw [idle] at place; cases place
  next k hk =>
    obtain rfl := Option.some.inj (hk.symm.trans place)
    exact if_pos inside

theorem rise_ack {b : I2cBus} {n : ℕ} (place : b.state = some n) (behind : ¬ n < 8) :
    b.rise = { b with dataOut := true }.ack := by
  unfold I2cBus.rise
  split
  next idle => rw [idle] at place; cases place
  next k hk =>
    obtain rfl := Option.some.inj (hk.symm.trans place)
    exact if_neg behind

/-- The lines a rising edge does not read. -/
def reline (b : I2cBus) (clk oldClk oldData : Bool) : I2cBus :=
  { b with clkIn := clk, oldClk := oldClk, oldData := oldData }

section Reline

variable (b : I2cBus) (clk oldClk oldData : Bool)

theorem fetch_reline : (reline b clk oldClk oldData).fetch = reline b.fetch clk oldClk oldData := by
  unfold I2cBus.fetch
  change (if b.device = _ then _ else if b.device = _ then _ else _) = _
  split
  · rfl
  · split <;> rfl

theorem bit_reline (n : ℕ) :
    (reline b clk oldClk oldData).bit n = reline (b.bit n) clk oldClk oldData := by
  cases on : b.readMode
  · rw [bit_in on]
    exact bit_in on
  · by_cases first : n = 0
    · rw [first, bit_first on]
      refine (bit_first (b := reline b clk oldClk oldData) on).trans ?_
      rw [fetch_reline]
      rfl
    · rw [bit_out on first]
      exact bit_out (b := reline b clk oldClk oldData) on first

theorem byte_reline :
    (reline b clk oldClk oldData).byte = (b.byte.1, reline b.byte.2 clk oldClk oldData) := by
  unfold I2cBus.byte
  change (if b.count = 0 then _ else if b.device = _ then _ else if b.device = _ then _ else _) = _
  split
  · rfl
  · split
    · rfl
    · split <;> rfl

theorem ack_reline : (reline b clk oldClk oldData).ack = reline b.ack clk oldClk oldData := by
  cases on : b.readMode
  · rw [ack_in on]
    refine (ack_in (b := reline b clk oldClk oldData) on).trans ?_
    rw [byte_reline]
    cases b.byte.1 <;> rfl
  · rw [ack_out on]
    refine (ack_out (b := reline b clk oldClk oldData) on).trans ?_
    change (if b.dataIn = true then _ else _) = _
    by_cases high : b.dataIn = true
    · rw [if_pos high, if_pos high]
      rfl
    · rw [if_neg high, if_neg high]
      rfl

/-- A rising edge reads no line but the data. -/
theorem rise_reline : (reline b clk oldClk oldData).rise = reline b.rise clk oldClk oldData := by
  cases h : b.state with
  | none =>
    rw [rise_idle h]
    exact rise_idle (b := reline b clk oldClk oldData) h
  | some n =>
    by_cases inside : n < 8
    · rw [rise_bit h inside, ← bit_reline]
      exact rise_bit (b := reline b clk oldClk oldData) h inside
    · rw [rise_ack h inside, ← ack_reline]
      exact rise_ack (b := reline b clk oldClk oldData) h inside

end Reline

theorem dataIn_fetch (b : I2cBus) : b.fetch.dataIn = b.dataIn := by
  unfold I2cBus.fetch
  split
  · rfl
  · split <;> rfl

theorem dataIn_byte (b : I2cBus) : b.byte.2.dataIn = b.dataIn := by
  unfold I2cBus.byte
  split
  · rfl
  · split
    · rfl
    · split <;> rfl

theorem dataIn_bit (b : I2cBus) (n : ℕ) : (b.bit n).dataIn = b.dataIn := by
  cases on : b.readMode
  · rw [bit_in on]
  · by_cases first : n = 0
    · rw [first, bit_first on]
      exact dataIn_fetch b
    · rw [bit_out on first]

theorem dataIn_ack (b : I2cBus) : b.ack.dataIn = b.dataIn := by
  cases on : b.readMode
  · rw [ack_in on]
    split <;> exact dataIn_byte b
  · rw [ack_out on]
    split <;> rfl

theorem dataIn_rise (b : I2cBus) : b.rise.dataIn = b.dataIn := by
  cases h : b.state with
  | none => rw [rise_idle h]
  | some n =>
    by_cases inside : n < 8
    · rw [rise_bit h inside]
      exact dataIn_bit _ n
    · rw [rise_ack h inside]
      exact dataIn_ack _

/-! ## Pulses -/

/-- A transaction is going on. -/
def Busy (b : I2cBus) : Prop := b.state ≠ none

theorem busy_bit (b : I2cBus) (n : ℕ) : Busy (b.bit n) := Option.some_ne_none _

theorem busy_ack (b : I2cBus) : Busy b.ack := Option.some_ne_none _

theorem busy_rise {b : I2cBus} (busy : Busy b) : Busy b.rise := by
  cases h : b.state with
  | none => exact absurd h busy
  | some n =>
    by_cases inside : n < 8
    · rw [rise_bit h inside]
      exact busy_bit _ n
    · rw [rise_ack h inside]
      exact busy_ack _

theorem busy_clock {b : I2cBus} (busy : Busy b) (level : Bool) : Busy (clock b level) :=
  busy_rise (b := { b with dataIn := level }) busy

/-- The data line moves while the clock is low. -/
theorem setMaster_wiggle {b : I2cBus} (busy : Busy b) (d d' : Bool) :
    (relevel b false d).setMaster false d' = relevel b false d' := by
  have going : (b.state = none) = False := eq_false busy
  cases d <;> cases d' <;> simp [I2cBus.setMaster, I2cBus.step, relevel, going]

/-- The lines are remembered for the next step. -/
def latched (b : I2cBus) : I2cBus := { b with oldClk := b.clkIn, oldData := b.dataIn }

/-- The clock rises. -/
theorem setMaster_rise {b : I2cBus} (busy : Busy b) (level : Bool) :
    (relevel b false level).setMaster true level = relevel (clock b level) true level := by
  have going : (b.state = none) = False := eq_false busy
  have edge : (relevel b false level).setMaster true level =
      latched (reline { b with dataIn := level } true false level).rise := by
    cases level <;> simp [I2cBus.setMaster, I2cBus.step, relevel, reline, latched, going]
  have kept : (clock b level).dataIn = level := dataIn_rise { b with dataIn := level }
  rw [edge, rise_reline]
  change latched (reline (clock b level) true false level) = _
  simp only [relevel, reline, latched, kept]

/-- The clock falls. -/
theorem setMaster_fall {b : I2cBus} (busy : Busy b) (level : Bool) :
    (relevel b true level).setMaster false level = relevel b false level := by
  have going : (b.state = none) = False := eq_false busy
  simp [I2cBus.setMaster, I2cBus.step, relevel, going]

theorem drive_wiggles {b : I2cBus} (busy : Busy b) (d : Bool) (wiggles : List Bool) :
    ∃ d', drive (relevel b false d) (wiggles.map (fun d => (false, d))) = relevel b false d' := by
  induction wiggles generalizing d with
  | nil => exact ⟨d, rfl⟩
  | cons w rest ih =>
    obtain ⟨d', h⟩ := ih w
    refine ⟨d', ?_⟩
    rw [← h, ← setMaster_wiggle busy d w]
    rfl

theorem heard_wiggles (b : I2cBus) (wiggles : List Bool) :
    heard b (wiggles.map (fun d => (false, d))) = [] := by
  induction wiggles generalizing b with
  | nil => rfl
  | cons w rest ih =>
    simp only [List.map_cons, heard, ih]
    rfl

theorem drive_pulse {b : I2cBus} (busy : Busy b) (d : Bool) (p : Pulse) :
    drive (relevel b false d) p.lines = relevel (clock b p.level) false p.level := by
  obtain ⟨d', h⟩ := drive_wiggles busy d p.wiggles
  rw [Pulse.lines, drive_append, h]
  change (((relevel b false d').setMaster false p.level).setMaster true p.level).setMaster false p.level = _
  rw [setMaster_wiggle busy, setMaster_rise busy, setMaster_fall (busy_clock busy _)]

theorem heard_pulse {b : I2cBus} (busy : Busy b) (d : Bool) (p : Pulse) :
    heard (relevel b false d) p.lines = [(clock b p.level).dataOut] := by
  obtain ⟨d', h⟩ := drive_wiggles busy d p.wiggles
  rw [Pulse.lines, heard_append, heard_wiggles, h]
  simp only [heard, setMaster_wiggle busy, setMaster_rise busy]
  rfl

/-- Of a train of pulses only the levels matter. -/
theorem drive_pulses {b : I2cBus} (busy : Busy b) (d : Bool) (ps : List Pulse) :
    ∃ d', drive (relevel b false d) (ps.flatMap Pulse.lines) =
      relevel (clocks b (ps.map Pulse.level)) false d' := by
  induction ps generalizing b d with
  | nil => exact ⟨d, rfl⟩
  | cons p rest ih =>
    obtain ⟨d', h⟩ := ih (busy_clock busy p.level) p.level
    refine ⟨d', ?_⟩
    rw [List.flatMap_cons, drive_append, drive_pulse busy, h]
    rfl

theorem heard_pulses {b : I2cBus} (busy : Busy b) (d : Bool) (ps : List Pulse) :
    heard (relevel b false d) (ps.flatMap Pulse.lines) = clocksHeard b (ps.map Pulse.level) := by
  induction ps generalizing b d with
  | nil => rfl
  | cons p rest ih =>
    rw [List.flatMap_cons, heard_append, heard_pulse busy, drive_pulse busy, ih (busy_clock busy _)]
    rfl

/-! ## Frames -/

/-- A byte on the data line and the level after it. -/
abbrev Frame := Byte × Bool

/-- The bits of a byte, the high one first. -/
def bits (v : Byte) : List Bool :=
  [v.getLsbD 7, v.getLsbD 6, v.getLsbD 5, v.getLsbD 4, v.getLsbD 3, v.getLsbD 2, v.getLsbD 1, v.getLsbD 0]

def shiftIn (v : Byte) (b : Bool) : Byte := v <<< 1 ||| if b then 1 else 0

/-- The byte of eight bits. -/
def ofBits (bs : List Bool) : Byte := bs.foldl shiftIn 0

theorem getLsbD_shiftIn (v : Byte) (b : Bool) (i : ℕ) :
    (shiftIn v b).getLsbD i = if i = 0 then b else decide (i < 8) && v.getLsbD (i - 1) := by
  unfold shiftIn
  cases i with
  | zero => cases b <;> simp
  | succ i => cases b <;> simp

/-- Eight bits push out what a byte held before. -/
theorem shiftIn_bits (v w : Byte) : (bits w).foldl shiftIn v = w := by
  apply BitVec.eq_of_getLsbD_eq
  intro i hi
  have cases : i = 0 ∨ i = 1 ∨ i = 2 ∨ i = 3 ∨ i = 4 ∨ i = 5 ∨ i = 6 ∨ i = 7 := by omega
  rcases cases with rfl | rfl | rfl | rfl | rfl | rfl | rfl | rfl <;>
    simp only [bits, List.foldl, getLsbD_shiftIn] <;> simp

theorem ofBits_bits (w : Byte) : ofBits (bits w) = w := shiftIn_bits 0 w

/-- What comes out of a byte shifted left. -/
def shiftOut (v : Byte) : ℕ → List Bool
  | 0 => []
  | n + 1 => v.msb :: shiftOut (v <<< 1) n

theorem shiftOut_eight (v : Byte) : shiftOut v 8 = bits v := by
  simp [shiftOut, bits, BitVec.msb, BitVec.getMsbD]

/-- Data bits from the master are shifted in. -/
theorem clocks_in (levels : List Bool) {b : I2cBus} {n : ℕ} (off : b.readMode = false)
    (place : b.state = some n) (fits : n + levels.length ≤ 8) :
    ∃ dataIn dataOut, clocks b levels =
      { b with dataIn, dataOut, value := levels.foldl shiftIn b.value, state := some (n + levels.length) } := by
  induction levels generalizing b n with
  | nil => exact ⟨b.dataIn, b.dataOut, congrArg (fun s => { b with state := s }) place⟩
  | cons l rest ih =>
    have inside : n < 8 := by
      rw [List.length_cons] at fits
      omega
    have one : clock b l =
        { b with dataIn := l, dataOut := true, value := shiftIn b.value l, state := some (n + 1) } := by
      refine (rise_bit (b := { b with dataIn := l }) place inside).trans ?_
      exact bit_in off
    obtain ⟨ci, co, h⟩ := @ih { b with dataIn := l, dataOut := true, value := shiftIn b.value l, state := some (n + 1) }
      (n + 1) off rfl (by rw [List.length_cons] at fits; omega)
    refine ⟨ci, co, ?_⟩
    change clocks (clock b l) rest = _
    have place' : n + 1 + rest.length = n + (rest.length + 1) := by omega
    rw [one, h, List.length_cons, ← place']
    rfl

/-- Data bits to the master are shifted out. -/
theorem clocks_out (levels : List Bool) {b : I2cBus} {n : ℕ} (on : b.readMode = true)
    (place : b.state = some (n + 1)) (fits : n + 1 + levels.length ≤ 8) :
    clocksHeard b levels = shiftOut b.value levels.length ∧
    ∃ dataIn dataOut value, clocks b levels =
      { b with dataIn, dataOut, value, state := some (n + 1 + levels.length) } := by
  induction levels generalizing b n with
  | nil => exact ⟨rfl, b.dataIn, b.dataOut, b.value, congrArg (fun s => { b with state := s }) place⟩
  | cons l rest ih =>
    have inside : n + 1 < 8 := by
      rw [List.length_cons] at fits
      omega
    have one : clock b l =
        { b with dataIn := l, dataOut := b.value.msb, value := b.value <<< 1, state := some (n + 1 + 1) } := by
      refine (rise_bit (b := { b with dataIn := l }) place inside).trans ?_
      exact bit_out on (Nat.succ_ne_zero n)
    obtain ⟨sent, ci, co, v, h⟩ := @ih
      { b with dataIn := l, dataOut := b.value.msb, value := b.value <<< 1, state := some (n + 1 + 1) }
      (n + 1) on rfl (by rw [List.length_cons] at fits; omega)
    refine ⟨?_, ci, co, v, ?_⟩
    · rw [clocksHeard, one, sent]
      rfl
    · change clocks (clock b l) rest = _
      have place' : n + 1 + 1 + rest.length = n + 1 + (rest.length + 1) := by omega
      rw [one, h, List.length_cons, ← place']

theorem fetch_lines (b : I2cBus) (dataIn dataOut : Bool) :
    { b with dataIn, dataOut }.fetch = { b.fetch with dataIn, dataOut } := by
  unfold I2cBus.fetch
  change (if b.device = _ then _ else if b.device = _ then _ else _) = _
  split
  · rfl
  · split <;> rfl

theorem readMode_fetch (b : I2cBus) : b.fetch.readMode = b.readMode := by
  unfold I2cBus.fetch
  split
  · rfl
  · split <;> rfl

/-- A device's byte is fetched before its first bit. -/
theorem clocks_fetch (w : Byte) {b : I2cBus} (on : b.readMode = true) (place : b.state = some 0) :
    clocksHeard b (bits w) = bits b.fetch.value ∧
    ∃ dataIn dataOut value, clocks b (bits w) =
      { b.fetch with dataIn, dataOut, value, state := some 8 } := by
  obtain ⟨l, rest, bytes, length⟩ : ∃ l rest, bits w = l :: rest ∧ rest.length = 7 := ⟨_, _, rfl, rfl⟩
  have one : clock b l =
      { b.fetch with
        dataIn := l, dataOut := b.fetch.value.msb, value := b.fetch.value <<< 1, state := some 1 } := by
    refine (rise_bit (b := { b with dataIn := l }) place (by omega)).trans ?_
    refine (bit_first (b := { b with dataIn := l, dataOut := true }) on).trans ?_
    rw [fetch_lines]
  obtain ⟨sent, ci, co, v, h⟩ := clocks_out rest (b := { b.fetch with
        dataIn := l, dataOut := b.fetch.value.msb, value := b.fetch.value <<< 1, state := some 1 }) (n := 0)
    ((readMode_fetch b).trans on) rfl (by omega)
  rw [bytes]
  refine ⟨?_, ci, co, v, ?_⟩
  · rw [clocksHeard, one, sent, length, ← shiftOut_eight]
    rfl
  · change clocks (clock b l) rest = _
    rw [one, h, length]

theorem clock_ack {b : I2cBus} (place : b.state = some 8) (level : Bool) :
    clock b level = { b with dataIn := level, dataOut := true }.ack :=
  rise_ack (b := { b with dataIn := level }) place (Nat.lt_irrefl 8)

def Frame.levels (f : Frame) : List Bool := bits f.1 ++ [f.2]

/-- Between frames. -/
def Framed (b : I2cBus) : Prop := b.state = some 0

def frame (b : I2cBus) (f : Frame) : I2cBus := clocks b f.levels

/-- A byte is in, its acknowledge to come. -/
def received (b : I2cBus) (f : Frame) : I2cBus :=
  { b with dataIn := f.2, dataOut := true, value := f.1, state := some 8 }

/-- A frame that the master sends is delivered. -/
theorem frame_in {b : I2cBus} (framed : Framed b) (off : b.readMode = false) (f : Frame) :
    frame b f = (received b f).ack := by
  obtain ⟨ci, co, h⟩ := clocks_in (bits f.1) off framed (Nat.le_refl 8)
  rw [frame, Frame.levels, clocks_append, h, shiftIn_bits]
  exact clock_ack (b := { b with dataIn := ci, dataOut := co, value := f.1, state := some 8 }) rfl f.2

/-- A frame that a device sends. -/
theorem frame_out {b : I2cBus} (framed : Framed b) (on : b.readMode = true) (f : Frame) :
    (clocksHeard b f.levels).take 8 = bits b.fetch.value ∧
    ∃ value, frame b f = (received b.fetch (value, f.2)).ack := by
  obtain ⟨sent, ci, co, v, h⟩ := clocks_fetch f.1 on framed
  refine ⟨?_, v, ?_⟩
  · rw [Frame.levels, clocksHeard_append, sent]
    rfl
  · rw [frame, Frame.levels, clocks_append, h]
    exact clock_ack (b := { b.fetch with dataIn := ci, dataOut := co, value := v, state := some 8 }) rfl f.2

/-! ## The clock chip's frames -/

/-- The clock chip is being written, `n` bytes after START. -/
structure Writing (b : I2cBus) (n : ℕ) : Prop where
  framed : Framed b
  off : b.readMode = false
  device : b.device = DEVICE_RTC
  count : b.count = n

/-- What is between transactions: no device is listening. -/
structure Fresh (b : I2cBus) : Prop where
  off : b.readMode = false
  count : b.count = 0

/-- A frame that names a device: it is told which way the data goes. -/
theorem frame_address {b : I2cBus} (framed : Framed b) (fresh : Fresh b) (f : Frame)
    (there : f.1 >>> 1 = DEVICE_SMC ∨ f.1 >>> 1 = DEVICE_RTC) :
    Framed (frame b f) ∧ (frame b f).device = f.1 >>> 1 ∧ (frame b f).readMode = f.1.getLsbD 0 ∧
      (frame b f).count = 1 ∧ (frame b f).rtc = b.rtc := by
  have named : (received b f).byte =
      (true, { received b f with device := f.1 >>> 1, readMode := f.1.getLsbD 0 }) := by
    unfold I2cBus.byte
    rw [if_pos (show (received b f).count = 0 from fresh.count)]
    exact congrArg (·, _) (decide_eq_true there)
  rw [frame_in framed fresh.off, ack_in (b := received b f) fresh.off, named]
  exact ⟨rfl, rfl, rfl, congrArg (· + 1) fresh.count, rfl⟩

/-- A frame that names nobody is refused. -/
theorem frame_refused {b : I2cBus} (framed : Framed b) (fresh : Fresh b) (f : Frame)
    (nobody : ¬ (f.1 >>> 1 = DEVICE_SMC ∨ f.1 >>> 1 = DEVICE_RTC)) :
    Framed (frame b f) ∧ Fresh (frame b f) ∧ (frame b f).rtc = b.rtc := by
  have named : (received b f).byte =
      (false, { received b f with device := f.1 >>> 1, readMode := f.1.getLsbD 0 }) := by
    unfold I2cBus.byte
    rw [if_pos (show (received b f).count = 0 from fresh.count)]
    exact congrArg (·, _) (decide_eq_false nobody)
  rw [frame_in framed fresh.off, ack_in (b := received b f) fresh.off, named]
  exact ⟨rfl, ⟨rfl, rfl⟩, rfl⟩

/-- A byte for the clock chip. -/
theorem frame_data {b : I2cBus} {n : ℕ} (h : Writing b n) (data : 0 < n) (f : Frame) :
    Writing (frame b f) (n + 1) ∧
      (frame b f).rtc = if 1 < n then (b.rtc.data f.1).write else b.rtc.data f.1 := by
  obtain ⟨framed, off, device, rfl⟩ := h
  have taken : (received b f).byte = (true, { received b f with
      rtc := if 1 < b.count then (b.rtc.data f.1).write else b.rtc.data f.1 }) := by
    have count : (received b f).count ≠ 0 := Nat.ne_of_gt data
    have there : (received b f).device = DEVICE_RTC := device
    unfold I2cBus.byte
    rw [if_neg count, if_neg (by rw [there]; decide), if_pos there]
    rfl
  rw [frame_in framed off, ack_in (b := received b f) off, taken]
  exact ⟨⟨rfl, off, device, rfl⟩, rfl⟩

/-- A byte from the clock chip, refused as the last one. -/
theorem frame_read {b : I2cBus} (framed : Framed b) (on : b.readMode = true)
    (device : b.device = DEVICE_RTC) (w : Byte) :
    (clocksHeard b (Frame.levels (w, true))).take 8 = bits b.rtc.read.1 ∧
      Framed (frame b (w, true)) ∧ Fresh (frame b (w, true)) ∧
      (frame b (w, true)).rtc = b.rtc.read.2 := by
  have fetched : b.fetch = { b with value := b.rtc.read.1, rtc := b.rtc.read.2 } := by
    unfold I2cBus.fetch
    rw [if_neg (by rw [device]; decide), if_pos device]
  obtain ⟨sent, v, h⟩ := frame_out framed on (w, true)
  rw [sent, h, fetched]
  refine ⟨rfl, ?_⟩
  rw [ack_out (b := received { b with value := b.rtc.read.1, rtc := b.rtc.read.2 } (v, true)) on]
  exact ⟨rfl, ⟨rfl, rfl⟩, rfl⟩

/-! ## Frames for others -/

/-- The clock chip is not being talked to. -/
def Elsewhere (b : I2cBus) : Prop := Fresh b ∨ b.device ≠ DEVICE_RTC

theorem rtc_fetch {b : I2cBus} (other : b.device ≠ DEVICE_RTC) : b.fetch.rtc = b.rtc := by
  unfold I2cBus.fetch
  split <;> rfl

theorem device_fetch (b : I2cBus) : b.fetch.device = b.device := by
  unfold I2cBus.fetch
  split
  · rfl
  · split <;> rfl

/-- A byte that another device takes, or nobody. -/
theorem byte_elsewhere {b : I2cBus} (other : b.device ≠ DEVICE_RTC) (later : b.count ≠ 0) :
    b.byte.1 = true ∧ b.byte.2.rtc = b.rtc ∧ b.byte.2.device = b.device ∧
      b.byte.2.readMode = b.readMode ∧ b.byte.2.count = b.count := by
  unfold I2cBus.byte
  rw [if_neg later]
  split <;> exact ⟨rfl, rfl, rfl, rfl, rfl⟩

/-- A byte for another device. -/
theorem frame_other {b : I2cBus} (framed : Framed b) (off : b.readMode = false)
    (other : b.device ≠ DEVICE_RTC) (later : b.count ≠ 0) (f : Frame) :
    Framed (frame b f) ∧ (frame b f).readMode = false ∧ (frame b f).device = b.device ∧
      (frame b f).count = b.count + 1 ∧ (frame b f).rtc = b.rtc := by
  obtain ⟨acked, rtc, device, way, count⟩ := byte_elsewhere (b := received b f) other later
  rw [frame_in framed off, ack_in (b := received b f) off, if_pos acked]
  exact ⟨rfl, way.trans off, device, congrArg (· + 1) count, rtc⟩

/-- A frame sent while another device, or none, is addressed; if none is, it does not name
the clock chip. -/
theorem frame_elsewhere {b : I2cBus} (framed : Framed b) (h : Elsewhere b) (f : Frame)
    (unnamed : b.readMode = false → b.count = 0 → f.1 >>> 1 ≠ DEVICE_RTC) :
    Framed (frame b f) ∧ Elsewhere (frame b f) ∧ (frame b f).rtc = b.rtc := by
  cases way : b.readMode with
  | false =>
    by_cases first : b.count = 0
    · by_cases smc : f.1 >>> 1 = DEVICE_SMC
      · obtain ⟨framed', device, -, -, rtc⟩ := frame_address framed ⟨way, first⟩ f (.inl smc)
        exact ⟨framed', .inr (by rw [device]; exact unnamed way first), rtc⟩
      · obtain ⟨framed', fresh, rtc⟩ :=
          frame_refused framed ⟨way, first⟩ f (not_or.mpr ⟨smc, unnamed way first⟩)
        exact ⟨framed', .inl fresh, rtc⟩
    · have other : b.device ≠ DEVICE_RTC := h.resolve_left (fun fresh => first fresh.count)
      obtain ⟨framed', -, device, -, rtc⟩ := frame_other framed way other first f
      exact ⟨framed', .inr (by rw [device]; exact other), rtc⟩
  | true =>
    have other : b.device ≠ DEVICE_RTC :=
      h.resolve_left (fun fresh => Bool.false_ne_true (fresh.off.symm.trans way))
    obtain ⟨-, v, sent⟩ := frame_out framed way f
    have device : (received b.fetch (v, f.2)).device ≠ DEVICE_RTC := by
      change b.fetch.device ≠ _
      rw [device_fetch]
      exact other
    rw [sent, ack_out (b := received b.fetch (v, f.2)) ((readMode_fetch b).trans way), ← rtc_fetch other]
    split
    · exact ⟨rfl, .inr device, rfl⟩
    · exact ⟨rfl, .inr device, rfl⟩

end Mmemu.Guarantees.I2cFrames

/-!
# The X16's clock chip as a store

The clock chip keeps the register number and the value of a transaction in a buffer that only
reads and register writes rewind. What its registers should hold is followed beside the run of
transactions; they hold it as long as no transaction starts where another one stopped in the
buffer, and none sends the chip's address after the address of a missing device.
-/
namespace Mmemu.Guarantees.I2cStore
open Mmemu.Library.GuardedRun Mmemu.Source.X16I2c Mmemu.Guarantees.I2cFrames

/-! ## Transactions -/

/-- The address byte of a device that is not on the bus. -/
structure AbsentAddress where
  byte : Byte
  absent : ¬ (byte >>> 1 = DEVICE_SMC ∨ byte >>> 1 = DEVICE_RTC)

inductive Transaction where
  | pointer (reg : Byte)
  | write (reg value : Byte)
  | read
  | smcWrite (bytes : List Byte)
  | smcRead (more : ℕ)
  | absent (address : AbsentAddress) (rest : List Frame)

/-- Bytes sent with the data line released for the acknowledge. -/
def sent (bytes : List Byte) : List Frame := bytes.map (·, true)

def Transaction.frames : Transaction → List Frame
  | .pointer reg => sent [0xDE, reg]
  | .write reg value => sent [0xDE, reg, value]
  | .read => [(0xDF, true), (0xFF, true)]
  | .smcWrite bytes => sent (0x84 :: bytes)
  | .smcRead more => (0x85, true) :: List.replicate more (0xFF, false) ++ [(0xFF, true)]
  | .absent address rest => (address.byte, true) :: rest

/-- A transaction on the lines: the pulses carry its frames, and the data line may move once
more before STOP. -/
structure Exchange where
  what : Transaction
  pulses : List Pulse
  settle : List Bool
  carries : pulses.map Pulse.level = what.frames.flatMap Frame.levels

def START : List (Bool × Bool) := [(true, false), (false, false)]
def STOP : List (Bool × Bool) := [(false, false), (true, false), (true, true)]

def Exchange.lines (e : Exchange) : List (Bool × Bool) :=
  START ++ (e.pulses.flatMap Pulse.lines ++ (e.settle.map (fun d => (false, d)) ++ STOP))

/-- The byte a master reads in the second frame. -/
def byteHeard (levels : List Bool) : Byte := ofBits ((levels.drop 9).take 8)

/-! ## One transaction on the bus -/

/-- Between transactions both lines are released. -/
structure Idle (b : I2cBus) : Prop where
  state : b.state = none
  fresh : Fresh b
  clkIn : b.clkIn = true
  dataIn : b.dataIn = true
  oldClk : b.oldClk = true
  oldData : b.oldData = true

/-- The bus after START. -/
def started (b : I2cBus) : I2cBus := { b with state := some 0 }

theorem drive_start {b : I2cBus} (idle : Idle b) :
    drive b START = relevel (started b) false false ∧ heard b START = [] := by
  obtain ⟨state, -, ci, di, oc, od⟩ := idle
  constructor
  · simp [drive, START, I2cBus.setMaster, I2cBus.step, relevel, started, state, oc, od]
  · simp [heard, START, I2cBus.setMaster, I2cBus.step, state, ci, oc, od]

/-- The first rising edge of a frame leaves the clock chip alone unless it is about to send. -/
theorem first_rise {b : I2cBus} (framed : Framed b) (silent : b.readMode = true → b.device ≠ DEVICE_RTC)
    (level : Bool) : (clock b level).state = some 1 ∧ (clock b level).rtc = b.rtc := by
  have one : clock b level = { b with dataIn := level, dataOut := true }.bit 0 :=
    rise_bit (b := { b with dataIn := level }) framed (by omega)
  rw [one]
  by_cases on : b.readMode = true
  · rw [bit_first (b := { b with dataIn := level, dataOut := true }) on]
    exact ⟨rfl, rtc_fetch (b := { b with dataIn := level, dataOut := true }) (silent on)⟩
  · rw [bit_in (b := { b with dataIn := level, dataOut := true }) (Bool.eq_false_of_not_eq_true on)]
    exact ⟨rfl, rfl⟩

/-- STOP, with the clock chip not about to send. -/
theorem drive_stop {b : I2cBus} (framed : Framed b)
    (silent : b.readMode = true → b.device ≠ DEVICE_RTC) (d : Bool) (settle : List Bool) :
    Idle (drive (relevel b false d) (settle.map (fun d => (false, d)) ++ STOP)) ∧
      (drive (relevel b false d) (settle.map (fun d => (false, d)) ++ STOP)).rtc = b.rtc := by
  have busy : Busy b := by
    unfold Busy
    rw [framed]
    exact Option.some_ne_none 0
  obtain ⟨d', h⟩ := drive_wiggles busy d settle
  rw [drive_append, h]
  change Idle ((((relevel b false d').setMaster false false).setMaster true false).setMaster true true) ∧
    ((((relevel b false d').setMaster false false).setMaster true false).setMaster true true).rtc = _
  rw [setMaster_wiggle busy, setMaster_rise busy]
  have risen := first_rise framed silent false
  have stopped : (relevel (clock b false) true false).setMaster true true =
      { relevel (clock b false) true true with state := none, count := 0, readMode := false } := by
    simp [I2cBus.setMaster, I2cBus.step, relevel, risen.1]
  rw [stopped]
  exact ⟨⟨rfl, ⟨rfl, rfl⟩, rfl, rfl, rfl, rfl⟩, risen.2⟩

/-! ## What a transaction does to the clock chip -/

def play (b : I2cBus) (fs : List Frame) : I2cBus := fs.foldl frame b

theorem clocks_frames (b : I2cBus) (fs : List Frame) :
    clocks b (fs.flatMap Frame.levels) = play b fs := by
  induction fs generalizing b with
  | nil => rfl
  | cons f rest ih =>
    rw [List.flatMap_cons, clocks_append, ih]
    rfl

/-- After the frames of a transaction the bus can take STOP. -/
structure Done (b : I2cBus) (rtc : Rtc) : Prop where
  framed : Framed b
  silent : b.readMode = true → b.device ≠ DEVICE_RTC
  rtc : b.rtc = rtc

theorem done_of_elsewhere {b : I2cBus} {rtc : Rtc} (framed : Framed b) (h : Elsewhere b)
    (same : b.rtc = rtc) : Done b rtc := by
  refine ⟨framed, fun on => ?_, same⟩
  rcases h with fresh | other
  · exact absurd (fresh.off.symm.trans on) Bool.false_ne_true
  · exact other

/-- The address byte $DE. -/
theorem writing_started {b : I2cBus} (framed : Framed b) (fresh : Fresh b) :
    Writing (frame b (0xDE, true)) 1 ∧ (frame b (0xDE, true)).rtc = b.rtc := by
  obtain ⟨framed', device, off, count, rtc⟩ := frame_address framed fresh (0xDE, true) (.inr rfl)
  exact ⟨⟨framed', off, device, count⟩, rtc⟩

theorem done_of_writing {b : I2cBus} {n : ℕ} {rtc : Rtc} (h : Writing b n) (same : b.rtc = rtc) :
    Done b rtc :=
  ⟨h.framed, fun on => absurd (h.off.symm.trans on) Bool.false_ne_true, same⟩

theorem play_pointer {b : I2cBus} (framed : Framed b) (fresh : Fresh b) (reg : Byte) :
    Done (play b (Transaction.pointer reg).frames) (b.rtc.data reg) := by
  obtain ⟨writing, rtc⟩ := writing_started framed fresh
  obtain ⟨writing', rtc'⟩ := frame_data writing Nat.zero_lt_one (reg, true)
  exact done_of_writing writing' (rtc'.trans (congrArg (Rtc.data · reg) rtc))

theorem play_write {b : I2cBus} (framed : Framed b) (fresh : Fresh b) (reg value : Byte) :
    Done (play b (Transaction.write reg value).frames) ((b.rtc.data reg).data value).write := by
  obtain ⟨writing, rtc⟩ := writing_started framed fresh
  obtain ⟨writing', rtc'⟩ := frame_data writing Nat.zero_lt_one (reg, true)
  obtain ⟨writing'', rtc''⟩ := frame_data writing' Nat.zero_lt_two (value, true)
  refine done_of_writing writing'' (rtc''.trans ?_)
  rw [rtc', rtc]
  rfl

theorem play_read {b : I2cBus} (framed : Framed b) (fresh : Fresh b) :
    Done (play b Transaction.read.frames) b.rtc.read.2 ∧
      byteHeard (clocksHeard b (Transaction.read.frames.flatMap Frame.levels)) = b.rtc.read.1 := by
  obtain ⟨framed', device, on, -, rtc⟩ := frame_address framed fresh (0xDF, true) (.inr rfl)
  obtain ⟨heard, framed'', fresh', rtc'⟩ := frame_read framed' on device 0xFF
  rw [rtc] at heard rtc'
  refine ⟨done_of_elsewhere framed'' (.inl fresh') rtc', ?_⟩
  have levels : Transaction.read.frames.flatMap Frame.levels =
      Frame.levels (0xDF, true) ++ Frame.levels (0xFF, true) := rfl
  have nine : (clocksHeard b (Frame.levels (0xDF, true))).length = 9 := length_clocksHeard b _
  rw [levels, clocksHeard_append, byteHeard, ← nine, List.drop_left]
  exact (congrArg ofBits heard).trans (ofBits_bits _)

/-- Frames after the address of another device. -/
theorem play_elsewhere (fs : List Frame) {b : I2cBus} (framed : Framed b) (h : Elsewhere b)
    (unnamed : ∀ f ∈ fs, f.1 >>> 1 ≠ DEVICE_RTC) : Done (play b fs) b.rtc := by
  induction fs generalizing b with
  | nil => exact done_of_elsewhere framed h rfl
  | cons f rest ih =>
    obtain ⟨framed', h', rtc⟩ :=
      frame_elsewhere framed h f (fun _ _ => unnamed f (List.mem_cons_self ..))
    rw [← rtc]
    exact ih framed' h' (fun g hg => unnamed g (List.mem_cons_of_mem _ hg))

/-- Bytes written to the SMC. -/
theorem play_smcBytes (bytes : List Byte) {b : I2cBus} (framed : Framed b)
    (off : b.readMode = false) (device : b.device = DEVICE_SMC) (later : b.count ≠ 0) :
    Done (play b (sent bytes)) b.rtc := by
  induction bytes generalizing b with
  | nil => exact ⟨framed, fun _ => by change b.device ≠ _; rw [device]; decide, rfl⟩
  | cons v rest ih =>
    obtain ⟨framed', off', device', count, rtc⟩ :=
      frame_other framed off (by rw [device]; decide) later (v, true)
    rw [← rtc]
    exact ih framed' off' (device'.trans device) (fun h => Nat.succ_ne_zero _ (count.symm.trans h))

theorem play_smcWrite {b : I2cBus} (framed : Framed b) (fresh : Fresh b) (bytes : List Byte) :
    Done (play b (Transaction.smcWrite bytes).frames) b.rtc := by
  obtain ⟨framed', device, off, count, rtc⟩ := frame_address framed fresh (0x84, true) (.inl rfl)
  rw [← rtc]
  exact play_smcBytes bytes framed' off device (fun h => Nat.one_ne_zero (count.symm.trans h))

theorem play_smcRead {b : I2cBus} (framed : Framed b) (fresh : Fresh b) (more : ℕ) :
    Done (play b (Transaction.smcRead more).frames) b.rtc := by
  refine play_elsewhere _ framed (.inl fresh) (fun f hf => ?_)
  simp only [Transaction.frames, List.mem_append, List.mem_cons, List.mem_replicate,
    List.not_mem_nil, or_false] at hf
  rcases hf with (rfl | ⟨-, rfl⟩) | rfl <;> decide

theorem play_absent {b : I2cBus} (framed : Framed b) (fresh : Fresh b) (address : AbsentAddress)
    (rest : List Frame) (unnamed : ∀ f ∈ rest, f.1 >>> 1 ≠ DEVICE_RTC) :
    Done (play b (Transaction.absent address rest).frames) b.rtc := by
  refine play_elsewhere _ framed (.inl fresh) (fun f hf => ?_)
  rcases List.mem_cons.mp hf with rfl | later
  · exact (not_or.mp address.absent).2
  · exact unnamed f later

/-- The clock chip after a transaction. -/
def after (rtc : Rtc) : Transaction → Rtc
  | .pointer reg => rtc.data reg
  | .write reg value => ((rtc.data reg).data value).write
  | .read => rtc.read.2
  | _ => rtc

/-- No byte after an absent address reads as the clock chip's. -/
def Unnamed : Transaction → Prop
  | .absent _ rest => ∀ f ∈ rest, f.1 >>> 1 ≠ DEVICE_RTC
  | _ => True

theorem play_frames {b : I2cBus} (framed : Framed b) (fresh : Fresh b) (t : Transaction)
    (unnamed : Unnamed t) : Done (play b t.frames) (after b.rtc t) := by
  cases t with
  | pointer reg => exact play_pointer framed fresh reg
  | write reg value => exact play_write framed fresh reg value
  | read => exact (play_read framed fresh).1
  | smcWrite bytes => exact play_smcWrite framed fresh bytes
  | smcRead more => exact play_smcRead framed fresh more
  | absent address rest => exact play_absent framed fresh address rest unnamed

/-- A transaction ends as it began, with both lines released, and does to the clock chip what
its frames do. -/
theorem drive_exchange {b : I2cBus} (idle : Idle b) (e : Exchange) (unnamed : Unnamed e.what) :
    Idle (drive b e.lines) ∧ (drive b e.lines).rtc = after b.rtc e.what := by
  have busy : Busy (started b) := Option.some_ne_none 0
  obtain ⟨d', h⟩ := drive_pulses busy false e.pulses
  have done : Done (play (started b) e.what.frames) (after b.rtc e.what) :=
    play_frames (b := started b) rfl ⟨idle.fresh.off, idle.fresh.count⟩ e.what unnamed
  rw [e.carries, clocks_frames] at h
  rw [Exchange.lines, drive_append, (drive_start idle).1, drive_append, h, ← done.rtc]
  exact drive_stop done.framed done.silent d' e.settle

/-- What the master hears of a read is the byte the chip gives. -/
theorem heard_exchange {b : I2cBus} (idle : Idle b) (e : Exchange) (read : e.what = .read) :
    byteHeard (heard b e.lines) = b.rtc.read.1 := by
  have busy : Busy (started b) := Option.some_ne_none 0
  have fresh : Fresh (started b) := ⟨idle.fresh.off, idle.fresh.count⟩
  have pulses := heard_pulses busy false e.pulses
  rw [e.carries, read] at pulses
  have length : (clocksHeard (started b) (Transaction.read.frames.flatMap Frame.levels)).length = 18 :=
    length_clocksHeard _ _
  refine Eq.trans ?_ (play_read (b := started b) rfl fresh).2
  rw [Exchange.lines, heard_append, (drive_start idle).2, (drive_start idle).1, List.nil_append,
    heard_append, pulses, byteHeard, byteHeard, List.drop_append_of_le_length (by omega),
    List.take_append_of_le_length (by rw [List.length_drop]; omega)]

/-! ## What the registers should hold -/

/-- A battery-RAM register. -/
def Battery (reg : Byte) : Prop := 0x20 ≤ reg ∧ reg < 0x60

instance (reg : Byte) : Decidable (Battery reg) := inferInstanceAs (Decidable (_ ∧ _))

/-- What a register keeps of its own. The oscillator bit of register 3 and the leap-year bit
of register 5 are read off registers 0 and 6. -/
def content (rtc : Rtc) (reg : Byte) : List ℕ :=
  match reg.toNat with
  | 0 => [rtc.running.toNat, rtc.sec]
  | 1 => [rtc.min]
  | 2 => [rtc.h24.toNat, rtc.hour]
  | 3 => [rtc.dow, rtc.vbaten.toNat]
  | 4 => [rtc.day]
  | 5 => [rtc.month]
  | 6 => [rtc.year]
  | _ => if Battery reg then [(rtc.nvram (reg.toNat - 0x20)).toNat] else []

/-- What the transactions so far have asked for. `named` is the register of the last
transaction that named one, `pending` a pointer write that no read has followed. -/
structure Ledger where
  ram : Byte → Byte
  pointer : Option Byte
  named : Option Byte
  pending : Bool

def Ledger.start (rtc : Rtc) : Ledger where
  ram reg := rtc.nvram (reg.toNat - 0x20)
  pointer := none
  named := none
  pending := false

def Ledger.enter (l : Ledger) : Transaction → Ledger
  | .pointer reg => { l with pointer := some reg, named := some reg, pending := true }
  | .write reg value => { l with ram := Function.update l.ram reg value, named := some reg }
  | .read => { l with pending := false }
  | _ => l

/-- A transaction does not start behind another one in the buffer, a battery-RAM register is
read before another one is written, and a missing device is not sent the chip's address. -/
def InOrder (l : Ledger) : Transaction → Prop
  | .pointer _ => l.pending = false
  | .write _ _ => l.pending = false
  | .read => ∀ reg, l.pointer = some reg → Battery reg → l.named = some reg
  | t => Unnamed t

/-- The bus and what its clock chip should hold. -/
structure Session where
  bus : I2cBus
  ledger : Ledger

def Session.step (s : Session) (e : Exchange) : Session :=
  { bus := drive s.bus e.lines, ledger := s.ledger.enter e.what }

def Session.start (smc : Smc) (rtc : Rtc) : Session :=
  { bus := .new smc rtc, ledger := .start rtc }

def Session.InOrder (s : Session) (e : Exchange) : Prop := I2cStore.InOrder s.ledger e.what

/-- A read of the last pointer's battery-RAM register gives what it holds, and no register
changes that is not being written. -/
structure Session.Stores (s : Session) (e : Exchange) : Prop where
  read : ∀ reg, e.what = .read → s.ledger.pointer = some reg → Battery reg →
    byteHeard (heard s.bus e.lines) = s.ledger.ram reg
  kept : ∀ reg, (∀ value, e.what ≠ .write reg value) →
    content (s.step e).bus.rtc reg = content s.bus.rtc reg

/-- The clock chip agrees with a ledger. -/
structure Agrees (rtc : Rtc) (l : Ledger) : Prop where
  pos : rtc.pos = if l.pending then 1 else 0
  named : ∀ reg, l.named = some reg → rtc.buffer 0 = reg
  ram : ∀ reg, Battery reg → rtc.nvram (reg.toNat - 0x20) = l.ram reg

structure Session.Kept (s : Session) : Prop where
  idle : Idle s.bus
  agrees : Agrees s.bus.rtc s.ledger

/-! ## Registers under the buffer -/

theorem data_first {rtc : Rtc} (rewound : rtc.pos = 0) (v : Byte) :
    rtc.data v = { rtc with buffer := Function.update rtc.buffer 0 v, pos := 1 } := by
  rw [Rtc.data, if_pos (by omega), rewound]

theorem data_second {rtc : Rtc} (one : rtc.pos = 1) (v : Byte) :
    rtc.data v = { rtc with buffer := Function.update rtc.buffer 1 v, pos := 2 } := by
  rw [Rtc.data, if_pos (by omega), one]

/-- What a register write stores does not depend on the buffer. -/
theorem setRegister_buffer (rtc : Rtc) (buffer : ℕ → Byte) (pos : ℕ) (reg v : Byte) :
    { rtc with buffer, pos }.setRegister reg v = { rtc.setRegister reg v with buffer, pos } := by
  unfold Rtc.setRegister
  split <;> first | rfl | (split <;> rfl)

/-- A register write from the start of the buffer. -/
theorem write_first {rtc : Rtc} (rewound : rtc.pos = 0) (reg v : Byte) :
    ((rtc.data reg).data v).write =
      { rtc.setRegister reg v with
        buffer := Function.update (Function.update rtc.buffer 0 reg) 1 v, pos := 0 } := by
  have stored := setRegister_buffer rtc (Function.update (Function.update rtc.buffer 0 reg) 1 v) 2 reg v
  rw [data_first rewound, data_second rfl, Rtc.write]
  change ({ Rtc.setRegister { rtc with buffer := _, pos := 2 } reg v with pos := 0 } : Rtc) = _
  rw [stored]

theorem content_data (rtc : Rtc) (v reg : Byte) : content (rtc.data v) reg = content rtc reg := by
  unfold Rtc.data
  split <;> rfl

theorem nvram_setRegister (rtc : Rtc) (reg v : Byte) :
    (rtc.setRegister reg v).nvram =
      if Battery reg then Function.update rtc.nvram (reg.toNat - 0x20) v else rtc.nvram := by
  unfold Rtc.setRegister
  split
  case h_8 =>
    change Rtc.nvram (if Battery reg then _ else _) = _
    split <;> rfl
  all_goals
    next h =>
      refine (if_neg (fun battery => ?_)).symm
      have := BitVec.le_def.mp battery.1
      have low : (0x20 : Byte).toNat = 32 := rfl
      omega

theorem content_setRegister {rtc : Rtc} {reg reg' : Byte} (other : reg' ≠ reg) (v : Byte) :
    content (rtc.setRegister reg v) reg' = content rtc reg' := by
  have apart : reg'.toNat ≠ reg.toNat := fun h => other (BitVec.eq_of_toNat_eq h)
  have ram : Battery reg' →
      (rtc.setRegister reg v).nvram (reg'.toNat - 0x20) = rtc.nvram (reg'.toNat - 0x20) := by
    intro battery'
    rw [nvram_setRegister]
    split
    next battery =>
      refine Function.update_of_ne (fun h => ?_) _ _
      have le := BitVec.le_def.mp battery.1
      have le' := BitVec.le_def.mp battery'.1
      have low : (0x20 : Byte).toNat = 32 := rfl
      omega
    · rfl
  unfold content
  split
  case h_8 =>
    split
    next battery' => rw [ram battery']
    · rfl
  all_goals
    unfold Rtc.setRegister
    split <;> first | omega | rfl | (split <;> rfl)

theorem register_battery {rtc : Rtc} {reg : Byte} (battery : Battery reg) :
    rtc.register reg = rtc.nvram (reg.toNat - 0x20) := by
  have low : (0x20 : Byte).toNat = 32 := rfl
  have le := BitVec.le_def.mp battery.1
  unfold Rtc.register
  split
  case h_8 => exact if_pos battery
  all_goals omega

/-! ## Runs -/

theorem unnamed_of_inOrder {l : Ledger} {t : Transaction} (order : InOrder l t) : Unnamed t := by
  cases t with
  | absent _ _ => exact order
  | pointer _ | write _ _ | read | smcWrite _ | smcRead _ => trivial

theorem agrees_after {rtc : Rtc} {l : Ledger} (h : Agrees rtc l) {t : Transaction}
    (order : InOrder l t) : Agrees (after rtc t) (l.enter t) := by
  cases t with
  | pointer reg =>
    have rewound : rtc.pos = 0 := h.pos.trans (by rw [show l.pending = false from order]; rfl)
    rw [after, data_first rewound]
    refine ⟨rfl, fun reg' named => ?_, h.ram⟩
    exact (Function.update_self 0 reg rtc.buffer).trans (Option.some.inj (show some reg = some reg' from named))
  | write reg value =>
    have quiet : l.pending = false := order
    have rewound : rtc.pos = 0 := h.pos.trans (by rw [quiet]; rfl)
    rw [after, write_first rewound]
    refine ⟨?_, fun reg' named => ?_, fun reg' battery' => ?_⟩
    · change 0 = if l.pending then 1 else 0
      rw [quiet]
      rfl
    · exact Option.some.inj (show some reg = some reg' from named)
    · change (rtc.setRegister reg value).nvram _ = Function.update l.ram reg value reg'
      rw [nvram_setRegister]
      by_cases same : reg' = reg
      · rw [if_pos (same ▸ battery'), same, Function.update_self, Function.update_self]
      · rw [Function.update_of_ne same, ← h.ram reg' battery']
        split
        next battery =>
          refine Function.update_of_ne (fun place => same (BitVec.eq_of_toNat_eq ?_)) _ _
          have le := BitVec.le_def.mp battery.1
          have le' := BitVec.le_def.mp battery'.1
          have low : (0x20 : Byte).toNat = 32 := rfl
          omega
        · rfl
  | read => exact ⟨rfl, h.named, h.ram⟩
  | smcWrite _ | smcRead _ | absent _ _ => exact h

theorem content_after {rtc : Rtc} {l : Ledger} (h : Agrees rtc l) {t : Transaction}
    (order : InOrder l t) {reg : Byte} (other : ∀ value, t ≠ .write reg value) :
    content (after rtc t) reg = content rtc reg := by
  cases t with
  | pointer reg' => exact content_data rtc reg' reg
  | write reg' value =>
    have rewound : rtc.pos = 0 := h.pos.trans (by rw [show l.pending = false from order]; rfl)
    have apart : reg ≠ reg' := fun same => other value (same ▸ rfl)
    rw [after, write_first rewound]
    exact content_setRegister apart value
  | read | smcWrite _ | smcRead _ | absent _ _ => rfl

theorem kept_start {rtc : Rtc} (rewound : rtc.pos = 0) (smc : Smc) : (Session.start smc rtc).Kept where
  idle := ⟨rfl, ⟨rfl, rfl⟩, rfl, rfl, rfl, rfl⟩
  agrees := ⟨rewound, (fun _ named => by cases named), fun _ _ => rfl⟩

theorem kept_step {s : Session} (h : s.Kept) {e : Exchange} (order : s.InOrder e) :
    (s.step e).Kept := by
  obtain ⟨idle, rtc⟩ := drive_exchange h.idle e (unnamed_of_inOrder order)
  refine ⟨idle, ?_⟩
  change Agrees (drive s.bus e.lines).rtc _
  rw [rtc]
  exact agrees_after h.agrees order

theorem stores_of_kept {s : Session} (h : s.Kept) {e : Exchange} (order : s.InOrder e) :
    s.Stores e where
  read reg read pointer battery := by
    have named : s.ledger.named = some reg := by
      have ordered : I2cStore.InOrder s.ledger e.what := order
      rw [read] at ordered
      exact ordered reg pointer battery
    rw [heard_exchange h.idle e read, Rtc.read, h.agrees.named reg named, register_battery battery]
    exact h.agrees.ram reg battery
  kept reg other := by
    obtain ⟨-, rtc⟩ := drive_exchange h.idle e (unnamed_of_inOrder order)
    change content (drive s.bus e.lines).rtc reg = _
    rw [rtc]
    exact content_after h.agrees order other

/-! ## Transactions as they are usually driven -/

/-- Every data change is made with the clock low, and the line is not moved otherwise. -/
def plain (t : Transaction) : Exchange where
  what := t
  pulses := (t.frames.flatMap Frame.levels).map (Pulse.mk [])
  settle := []
  carries := by
    rw [List.map_map]
    exact List.map_id _

/-- In every run of transactions that are in order, battery RAM is a store. -/
theorem battery_stores {rtc : Rtc} (rewound : rtc.pos = 0) (smc : Smc) (es : List Exchange)
    (run : Guarded Session.step Session.InOrder (.start smc rtc) es) :
    Guarded Session.step Session.Stores (.start smc rtc) es :=
  Guarded.mono Session.step Session.Kept (fun _ _ h order => kept_step h order)
    (fun _ _ h order => stores_of_kept h order) (kept_start rewound smc) run

/-- A register written, read back after an SMC transaction and a call for a missing device. -/
def storing : List Exchange :=
  [plain (.write 0x21 0x55), plain (.smcWrite [0x05, 0xFF]), plain (.pointer 0x21),
    plain (.absent ⟨0x90, by decide⟩ [(0x01, true)]), plain .read]

/-- A battery-RAM register read back as it was written. -/
theorem storing_stores :
    Guarded Session.step Session.InOrder (.start .new .new) storing ∧
      Guarded Session.step Session.Stores (.start .new .new) storing := by
  have order : Guarded Session.step Session.InOrder (.start .new .new) storing :=
    ⟨rfl, trivial, rfl,
      List.forall_mem_singleton.mpr (by decide),
      fun _ named _ => named, trivial⟩
  exact ⟨order, battery_stores rfl .new storing order⟩

/-- A pointer write behind another one: the read gives the first pointer's register. -/
def repointing : List Exchange :=
  [plain (.write 0x21 0x55), plain (.pointer 0x20), plain (.pointer 0x21), plain .read]

set_option maxRecDepth 100000 in
theorem repointed_read :
    ¬ ∀ (rtc : Rtc) (_ : rtc.pos = 0) (smc : Smc) (es : List Exchange),
      Guarded Session.step Session.Stores (.start smc rtc) es := by
  intro all
  obtain ⟨-, -, -, stores, -⟩ := all .new rfl .new repointing
  have wrong := stores.read 0x21 rfl rfl (by decide)
  revert wrong
  decide

end Mmemu.Guarantees.I2cStore
