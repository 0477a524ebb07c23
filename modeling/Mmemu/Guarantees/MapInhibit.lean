import Mmemu.Library.EdgeInput
import Mmemu.Source.Cpu45gs02Frame

/-!
# NMIs across MAP and EOM on the 45GS02

The core remembers the NMI line at every instruction boundary, also at those where MAP makes
interrupts wait. So an NMI that comes between MAP and EOM is not deferred but lost; any other
is taken once, if the core has seen the line low before.
-/
namespace Mmemu.Guarantees.MapInhibit
open Mmemu.Source.MemoryBus
open Mmemu.Source.Cpu45gs02
open Mmemu.Library.StateFrame
open Mmemu.Library.EdgeInput

variable {ω : Type} [MachineBus ω]

/-! ## What one event does to the line -/

/-- The line and what the core remembers of it. -/
def line (c : MOS45GS02 ω) : Bool × Bool := (c.state.nmiLine, c.state.nmiPrev)

omit [MachineBus ω] in
theorem line_of_nmi {c c' : MOS45GS02 ω} (same : SameNmi c c') : line c' = line c := by
  obtain ⟨level, prev, -⟩ := NmiState.mk.inj same
  exact Prod.ext level prev

theorem line_proceed (w : Wiring ω) (c : MOS45GS02 ω) : line (proceed w c).2 = line c := by
  have intercepted : line (intercept w c).2 = line c := line_of_nmi (intercept_nmi w c)
  have observed : line (observe w (intercept w c).2).2 = line (intercept w c).2 := by
    simp only [line, observe_state]
  change line ((if (intercept w c).1 then _ else _ : Exec ω ℕ) (intercept w c).2).2 = _
  split
  · exact intercepted
  · change line ((if (observe w (intercept w c).2).1 then _ else _ : Exec ω ℕ)
      (observe w (intercept w c).2).2).2 = _
    split
    · obtain ⟨level, prev, -⟩ := NmiState.mk.inj (execute_nmi (observe w (intercept w c).2).2)
      have executed : line (execute (observe w (intercept w c).2).2).2 =
          line (observe w (intercept w c).2).2 := Prod.ext level prev
      exact executed.trans (observed.trans intercepted)
    · exact observed.trans intercepted

/-- At an instruction boundary the core remembers the line. -/
theorem line_step (w : Wiring ω) {c : MOS45GS02 ω}
    (running : MachineBus.isHaltRequested c.bus = false) :
    line (step w c).2 = (c.state.nmiLine, c.state.nmiLine) := by
  rw [step_running w running]
  split
  next taken =>
    have high : c.state.nmiLine = true := by
      simp only [CPU45GS02State.nmiTaken, Bool.and_eq_true] at taken
      exact taken.1.1
    exact (line_of_nmi (interrupt_nmi 0xFFFA _)).trans (Prod.ext rfl high.symm)
  next =>
    split
    · exact line_of_nmi (interrupt_nmi 0xFFFE _)
    · exact line_proceed w _

theorem enterHypervisor_nmi (hooks : HypervisorHooks ω) (trapAddr : BitVec 16) :
    Keeps SameNmi (enterHypervisor hooks trapAddr : Exec ω Unit) := by
  refine Keeps.bind (fun _ => rfl) fun _ => Keeps.bind (regs_nmi fun _ => rfl) fun _ =>
    Keeps.bind (Keeps.modify fun c => ?_) fun _ => Keeps.modify fun c => ?_
  · split <;> rfl
  · cases hooks.onEnter <;> rfl

theorem exitHypervisor_nmi (hooks : HypervisorHooks ω) :
    Keeps SameNmi (exitHypervisor hooks : Exec ω Unit) := by
  refine Keeps.get.bind fun _ => Keeps.bind (regs_nmi fun _ => rfl) fun _ =>
    Keeps.bind (Keeps.modify fun c => ?_) fun _ => Keeps.bind (Keeps.modify fun c => ?_) fun _ =>
      regs_nmi fun _ => rfl
  · split <;> rfl
  · cases hooks.onExit <;> rfl

/-- The event raises the line, if it is low. -/
def raises : Event → Bool
  | .triggerNmi | .setNmiLine true => true
  | _ => false

/-- The event leaves an asserted line asserted. -/
def keepsAsserted : Event → Bool
  | .reset | .setNmiLine false => false
  | _ => true

/-- What happens between two boundaries leaves an asserted line and the core's memory of it. -/
theorem line_apply (w : Wiring ω) {c : MOS45GS02 ω} (high : c.state.nmiLine = true) {e : Event}
    (keeps : keepsAsserted e = true) (between : e ≠ .step) : line (apply w c e) = line c := by
  cases e with
  | step => exact absurd rfl between
  | reset => cases keeps
  | setNmiLine asserted =>
    cases asserted with
    | false => cases keeps
    | true => exact Prod.ext high.symm rfl
  | triggerNmi => exact Prod.ext high.symm rfl
  | triggerIrq | setIrqLine | setHaltLine => rfl
  | enterHypervisor trapAddr => exact line_of_nmi (enterHypervisor_nmi w.hooks trapAddr c)
  | exitHypervisor => exact line_of_nmi (exitHypervisor_nmi w.hooks c)

/-! ## Runs -/

def run (w : Wiring ω) (c : MOS45GS02 ω) (events : List Event) : MOS45GS02 ω :=
  events.foldl (apply w) c

/-- A step of a core that the bus does not halt is an instruction boundary: whether interrupts
wait there, and whether an NMI is taken. -/
def boundary (c : MOS45GS02 ω) : List Gated :=
  if MachineBus.isHaltRequested c.bus then []
  else [⟨c.state.mapInterruptInhibit, c.state.nmiTaken⟩]

/-- The instruction boundaries of a run. -/
def boundaries (w : Wiring ω) : MOS45GS02 ω → List Event → List Gated
  | _, [] => []
  | c, e :: later => (if e = .step then boundary c else []) ++ boundaries w (apply w c e) later

/-- While the line stays asserted the boundaries are samples that remember it. -/
theorem boundaries_remembered (w : Wiring ω) {c : MOS45GS02 ω} (high : c.state.nmiLine = true)
    {events : List Event} (asserted : ∀ e ∈ events, keepsAsserted e = true) :
    Remembered c.state.nmiPrev (boundaries w c events) := by
  induction events generalizing c with
  | nil => trivial
  | cons e later ih =>
    have keeps : keepsAsserted e = true := asserted e List.mem_cons_self
    have asserted' : ∀ e' ∈ later, keepsAsserted e' = true := fun e' mem =>
      asserted e' (List.mem_cons_of_mem e mem)
    -- what the boundaries that follow start from
    have after {prev : Bool} (same : line (apply w c e) = (true, prev)) :
        Remembered prev (boundaries w (apply w c e) later) := by
      obtain ⟨level, remembered⟩ := Prod.mk.inj same
      rw [← remembered]
      exact ih level asserted'
    unfold boundaries
    by_cases stepped : e = .step
    · subst stepped
      rw [if_pos rfl, boundary]
      cases halted : MachineBus.isHaltRequested c.bus with
      | true =>
        rw [if_pos rfl, List.nil_append]
        refine after ?_
        change ((step w c).2.state.nmiLine, (step w c).2.state.nmiPrev) = _
        rw [step_halted w halted]
        exact Prod.ext high rfl
      | false =>
        rw [if_neg (by simp)]
        have remembered := line_step w halted
        rw [high] at remembered
        refine ⟨?_, after remembered⟩
        simp [CPU45GS02State.nmiTaken, high]
    · rw [if_neg stepped, List.nil_append]
      refine after ?_
      rw [line_apply w high keeps stepped]
      exact Prod.ext high rfl

/-- `rise` raises the line in a run, and it stays asserted during `window`. -/
structure Asserted (w : Wiring ω) (c : MOS45GS02 ω) (events before : List Event) (rise : Event)
    (window : List Event) : Prop where
  part : before ++ rise :: window <+: events
  low : (run w c before).state.nmiLine = false
  raises : raises rise = true
  stays : ∀ e ∈ window, keepsAsserted e = true

/-- Every NMI is taken once: at the first boundary at which interrupts do not wait. -/
def Delivered (w : Wiring ω) (c : MOS45GS02 ω) (events : List Event) : Prop :=
  ∀ before rise window, Asserted w c events before rise window →
    TakenOnce (boundaries w (run w c (before ++ [rise])) window)

/-- Every rise of the line is seen at a boundary at which interrupts do not wait, unless they
wait as long as the line stays asserted. -/
def SeenInTime (w : Wiring ω) (c : MOS45GS02 ω) (events : List Event) : Prop :=
  ∀ before rise window, Asserted w c events before rise window →
    OpenInTime (run w c before).state.nmiPrev (boundaries w (run w c (before ++ [rise])) window)

theorem line_rise (w : Wiring ω) {c : MOS45GS02 ω} {rise : Event} (up : raises rise = true) :
    line (apply w c rise) = (true, c.state.nmiPrev) := by
  cases rise with
  | triggerNmi => rfl
  | setNmiLine asserted =>
    cases asserted with
    | false => cases up
    | true => rfl
  | _ => cases up

theorem delivered_iff (w : Wiring ω) (c : MOS45GS02 ω) (events : List Event) :
    Delivered w c events ↔ SeenInTime w c events := by
  have window {before window : List Event} {rise : Event}
      (asserted : Asserted w c events before rise window) :
      TakenOnce (boundaries w (run w c (before ++ [rise])) window) ↔
        OpenInTime (run w c before).state.nmiPrev
          (boundaries w (run w c (before ++ [rise])) window) := by
    have risen : run w c (before ++ [rise]) = apply w (run w c before) rise := by
      simp [run]
    obtain ⟨high, prev⟩ := Prod.mk.inj (line_rise w (c := run w c before) asserted.raises)
    rw [risen, ← prev]
    exact takenOnce_iff (boundaries_remembered w high asserted.stays)
  constructor
  · intro delivered before rise window' asserted
    exact (window asserted).mp (delivered before rise window' asserted)
  · intro seen before rise window' asserted
    exact (window asserted).mpr (seen before rise window' asserted)

/-! ## An NMI between MAP and EOM -/

/-- MAP, EOM and NOPs, about to execute MAP. -/
def mapProgram : MOS45GS02 FlatMemoryBus where
  state := { (default : CPU45GS02State) with sp := 0x01FF, p := 0x24, pc := 0x2000 }
  hyperState := .zero
  bus := { FlatMemoryBus.new 16 with data := fun addr => if addr = 0x2000 then 0x5C else 0xEA }
  mapMmu := false
  hyperRom := none
  experimentalPrefixMode := false

def unwired : Wiring FlatMemoryBus := ⟨none, none, ⟨none, none⟩⟩

/-- The line rises after MAP and stays asserted over EOM and three NOPs. -/
def riseInside : List Event := [.step, .setNmiLine true, .step, .step, .step, .step]

theorem boundaries_riseInside :
    boundaries unwired (run unwired mapProgram [.step, .setNmiLine true])
        [.step, .step, .step, .step] =
      [⟨true, false⟩, ⟨false, false⟩, ⟨false, false⟩, ⟨false, false⟩] := by decide

/-- The NMI is never taken. -/
theorem not_delivered_riseInside : ¬ Delivered unwired mapProgram riseInside := by
  intro delivered
  have once := delivered [.step] (.setNmiLine true) [.step, .step, .step, .step]
    ⟨List.prefix_refl _, by decide, rfl, by decide⟩
  change TakenOnce (boundaries unwired (run unwired mapProgram [.step, .setNmiLine true]) _) at once
  rw [boundaries_riseInside] at once
  exact absurd once (by decide)

end Mmemu.Guarantees.MapInhibit
