import Mmemu.Source.Antic
import Mmemu.Library.EdgeInput

/-!
# ANTIC's interrupts at the CPU

`raiseNmi` drops the NMI line and sets it again, which the CPU does not see between two of its
steps. An interrupt is taken if the CPU has stepped with the line low since the one before,
and steps again before ANTIC lets the line go at a line start. On display lines the refresh
cycles keep the CPU from stepping in between, so interrupts on lines in a row are lost.
-/
namespace Mmemu.Guarantees.NmiDelivery
open Mmemu.Source.MemoryBus
open Mmemu.Source.Cpu6502
open Mmemu.Source.Atari
open Mmemu.Library.StateFrame
open Mmemu.Library.EdgeInput

variable {ρ : Type} [Devices ρ]

/-! ## The NMI line of a run -/

def input (m : Machine ρ) : Input := ⟨m.state.nmiLine, m.state.nmiPrev⟩

/-- The CPU step samples the line, unless the core is asleep. -/
def sampling (m : Machine ρ) : List Signal :=
  if m.state.asleep then [] else [.sample (interruptTaken m.state = some 0xFFFA)]

/-- The levels that a tick sets the line to. -/
def driven (m : Machine ρ) : List Signal := m.bus.nmiSets.map .drive

def eventSignals (m : Machine ρ) : AtariEvent → List Signal
  | .schedulerStep =>
    if m.bus.antic.cpuBlocked then
      driven (clock (tickAll 1)
        { m with bus := { m.bus with antic := m.bus.antic.consumeBlockedCycle } })
    else
      let (c, stepped) := step wiring m
      sampling m ++ driven (clock (tickAll c) stepped)
  | .resetKey => driven (clock pressResetKey m)

/-- What happens on the line between ANTIC and the CPU in a run. -/
def signals : Machine ρ → List AtariEvent → List Signal
  | _, [] => []
  | m, e :: rest => eventSignals m e ++ signals (happen m e) rest

/-! ## One event -/

theorem after_drives (i : Input) (levels : List Bool) :
    i.after (levels.map .drive) = ⟨levels.foldl (fun _ level => level) i.level, i.seen⟩ := by
  induction levels generalizing i with
  | nil => rfl
  | cons level rest ih =>
    rw [List.map_cons, List.foldl_cons]
    exact ih { i with level := level }

theorem consistent_drives (i : Input) (levels : List Bool) :
    Consistent i (levels.map .drive) := by
  induction levels generalizing i with
  | nil => trivial
  | cons level rest ih =>
    refine ⟨fun taken sample => ?_, ih _⟩
    cases sample

theorem input_wires (m : Machine ρ) : input (wires m) = (input m).after (driven m) := by
  rw [driven, after_drives]
  rfl

instance : Closed (fun _ _ : World ρ => True) where
  refl _ := trivial
  trans _ _ _ _ _ := trivial
  read8 _ _ := trivial
  write8 _ _ _ := trivial

theorem taken_eq {s : CPU6502State} (awake : s.asleep = false) :
    decide (interruptTaken s = some 0xFFFA) = s.nmiEdge := by
  rw [interruptTaken, if_neg (by simp [awake])]
  cases s.nmiEdge with
  | true => rfl
  | false =>
    rw [if_neg (by simp)]
    split <;> decide

/-- The CPU's own step samples the line as an edge-triggered input does. -/
theorem step_sampling (m : Machine ρ) :
    Consistent (input m) (sampling m) ∧
      input (step wiring m).2 = (input m).after (sampling m) := by
  unfold sampling
  cases asleep : m.state.asleep with
  | true =>
    rw [if_pos rfl, step_asleep wiring asleep]
    exact ⟨trivial, rfl⟩
  | false =>
    obtain ⟨line, prev, -⟩ := step_nmiLine (r := fun _ _ : World ρ => True) (w := wiring) rfl rfl
      (by simp) asleep
    rw [if_neg (by simp)]
    refine ⟨⟨?_, trivial⟩, ?_⟩
    · intro taken sample
      cases sample
      exact taken_eq asleep
    · rw [input, line, prev]
      rfl

theorem event_signals (m : Machine ρ) (e : AtariEvent) :
    Consistent (input m) (eventSignals m e) ∧
      input (happen m e) = (input m).after (eventSignals m e) := by
  cases e with
  | resetKey => exact ⟨consistent_drives _ _, input_wires _⟩
  | schedulerStep =>
    simp only [happen, schedulerStep, eventSignals]
    split
    · exact ⟨consistent_drives _ _, input_wires _⟩
    · obtain ⟨consistent, stepped⟩ := step_sampling m
      refine ⟨consistent_append.mpr ⟨consistent, consistent_drives _ _⟩, ?_⟩
      change input (wires (clock (tickAll (step wiring m).1) (step wiring m).2)) = _
      rw [input_wires]
      change (input (step wiring m).2).after _ = _
      rw [stepped, Input.after, Input.after, ← List.foldl_append]
      rfl

/-! ## Runs -/

theorem signals_consistent (m : Machine ρ) (events : List AtariEvent) :
    Consistent (input m) (signals m events) := by
  induction events generalizing m with
  | nil => trivial
  | cons e rest ih =>
    obtain ⟨consistent, after⟩ := event_signals m e
    refine consistent_append.mpr ⟨consistent, ?_⟩
    rw [← after]
    exact ih (happen m e)

/-- Every interrupt that ANTIC raises is taken exactly once, and nothing else is, precisely if
each finds the line seen low by the CPU and is seen before ANTIC lets the line go. -/
theorem served_iff (m : Machine ρ) (idle : m.state.nmiLine = false ∨ m.state.nmiPrev = true)
    (events : List AtariEvent) :
    Served (signals m events) ↔ Visible (input m) (signals m events) :=
  Library.EdgeInput.served_iff_held (signals_consistent m events) idle

/-! ## Display-list interrupts on consecutive lines -/

/-- 64 KB of memory and no other device. -/
instance : Devices (BitVec 32 → BitVec 8) where
  read8 mem addr := (mem addr, mem)
  write8 mem addr val := Function.update mem addr val
  peek8 mem addr := mem addr
  dmaMissiles mem _ _ := mem
  dmaPlayer mem _ _ _ := mem
  drawLine mem _ := mem
  tickBefore mem _ := mem
  tickAfter mem _ := mem
  irq _ := false

/-- Line 8 after its display-list interrupt, which the CPU has taken: the handler is at a row of
NOPs, and the display list asks for an interrupt on every blank line. -/
def consecutiveLines : Machine (BitVec 32 → BitVec 8) where
  state := { (default : CPU6502State) with
    sp := 0xF0, p := 0x24, pc := 0x0300, nmiLine := true, nmiPrev := true }
  bus :=
    { antic :=
        { regs := fun r => if r = DMACTL then 0x20 else if r = NMIEN then 0x80 else 0
          lines := 262, line := 8, cycle := 105, nmist := 0x80, nmiHold := true, wsync := false
          stealPending := 0, dlPc := 0x2001, memScan := 0, instr := 0x80, mode := 0, row := 1
          lastRow := 0, waitVbl := false, prevVscrol := false, dliThisLine := true
          lineData := [], lineBytes := 0, hscrolShift := 0, hsFetchWidth := 2 }
      devices := fun addr => if addr < 0x1000 then 0xEA else 0x80
      nmiSets := [] }
  cmos := false
  curOp := 0xEA
  branchTarget := 0

/-- To the first CPU step after the interrupt of line 9. -/
def consecutiveEvents : List AtariEvent := List.replicate 16 .schedulerStep

theorem served_iff_consecutiveLines :
    Served (signals consecutiveLines consecutiveEvents) ↔
      Visible (input consecutiveLines) (signals consecutiveLines consecutiveEvents) :=
  served_iff consecutiveLines (.inr rfl) consecutiveEvents

theorem signals_consecutiveLines : signals consecutiveLines consecutiveEvents =
    List.replicate 5 (.sample false) ++
      [.drive false, .drive false, .drive true, .sample false] := by
  decide

/-- The interrupt of line 9 is not taken. -/
theorem not_served_consecutiveLines : ¬ Served (signals consecutiveLines consecutiveEvents) := by
  rw [signals_consecutiveLines]
  intro served
  have taken := served.once (List.replicate 5 (.sample false) ++ [.drive false, .drive false])
    [.sample false] ⟨[], rfl, by decide, .inl rfl⟩ ⟨false, by decide⟩
  exact absurd taken (by decide)

end Mmemu.Guarantees.NmiDelivery
