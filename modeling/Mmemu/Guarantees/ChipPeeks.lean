import Mmemu.Library.Schedules
import Mmemu.Source.PortDevices

/-!
# CIA 6526 and VIA 6522: a peek shows what a read would

`ioPeek` and `ioRead` are one function with a flag. Where the port devices keep
their own promise (`Promised`), a peek gives the value of the read and leaves the
chip and everything outside it as it was, so peeks may be put anywhere into a
run without being noticed.
-/
namespace Mmemu.Guarantees.ChipPeeks
open Mmemu.Library.SilentProbe Mmemu.Source Mmemu.Source.PortDevices

variable {ω : Type}

/-- What `iport_device.h` asks of `peekPort`: the state `readPort` would return,
without side effects. -/
def Promised (device : Option (IPortDevice ω)) : Prop :=
  ∀ d ∈ device, ∀ w, d.peekPort w = ((d.readPort w).1, w)

theorem pins_peek {device : Option (IPortDevice ω)} (promised : Promised device) (w : ω) :
    pins device true w = ((pins device false w).1, w) := by
  cases device with
  | none => rfl
  | some d => simp [pins, promised d rfl w]

/-! ## The chips alone -/

theorem cia_peek (s : Cia6526.Cia) (addr : BitVec 32) (pinsA pinsB : Option (BitVec 8)) :
    Cia6526.readReg s addr true pinsA pinsB =
      ((Cia6526.readReg s addr false pinsA pinsB).1, s) := by
  unfold Cia6526.readReg
  split
  · rfl
  · cases Cia6526.Reg.decode addr <;> rfl

theorem via_peek (s : Via6522.Via) (addr : BitVec 32) (pinsA pinsB : Option (BitVec 8)) :
    Via6522.readReg s addr true pinsA pinsB =
      ((Via6522.readReg s addr false pinsA pinsB).1, s) := by
  unfold Via6522.readReg
  split
  · rfl
  · cases Via6522.Reg.decode addr <;> rfl

/-! ## With their devices -/

theorem ciaPeek_eq (d : Cia.Wiring ω) (promisedA : Promised d.portADevice)
    (promisedB : Promised d.portBDevice) (s : Cia6526.Cia × ω) (addr : BitVec 32) :
    Cia.ioPeek d s addr = ((Cia.ioRead d s addr).1, s) := by
  unfold Cia.ioPeek Cia.ioRead Cia.readReg
  split
  · rfl
  · by_cases pra : Cia6526.Reg.decode addr = .pra
    · have prb : ¬ Cia6526.Reg.decode addr = .prb := by rw [pra]; decide
      simp only [if_pos pra, if_neg prb, pins_peek promisedA, cia_peek]
    · by_cases prb : Cia6526.Reg.decode addr = .prb
      · simp only [if_neg pra, if_pos prb, pins_peek promisedB, cia_peek]
      · simp only [if_neg pra, if_neg prb, cia_peek]

theorem viaPeek_eq (d : Via.Wiring ω) (promisedA : Promised d.portADevice)
    (promisedB : Promised d.portBDevice) (s : Via6522.Via × ω) (addr : BitVec 32) :
    Via.ioPeek d s addr = ((Via.ioRead d s addr).1, s) := by
  unfold Via.ioPeek Via.ioRead Via.readReg
  split
  · rfl
  · by_cases orb : Via6522.Reg.decode addr = .orb
    · have ora : ¬ Via.readsPortA (Via6522.Reg.decode addr) = true := by
        rw [orb]
        decide
      simp only [if_neg ora, if_pos orb, pins_peek promisedB, via_peek]
    · by_cases ora : Via.readsPortA (Via6522.Reg.decode addr) = true
      · simp only [if_pos ora, if_neg orb, pins_peek promisedA, via_peek]
      · simp only [if_neg ora, if_neg orb, via_peek]

/-! ## Runs with peeks in them -/

/-- A peek's value is the read's, and a run with peeks anywhere in it gives the
answers, and ends in the state, of the run without them. -/
def Unnoticed {σ ε ο : Type*} (read peek : σ → BitVec 32 → ο × σ) (step : σ → ε → ο × σ) : Prop :=
  (∀ s addr, (peek s addr).1 = (read s addr).1) ∧
    ∀ s (events : List (ε ⊕ BitVec 32)),
      runProbed step peek s events = run step s (steps events)

theorem unnoticed {σ ε ο : Type*} {read peek : σ → BitVec 32 → ο × σ} (step : σ → ε → ο × σ)
    (same : ∀ s addr, peek s addr = ((read s addr).1, s)) : Unnoticed read peek step := by
  refine ⟨fun s addr => ?_, fun s events => ?_⟩
  · rw [same]
  · refine runProbed_eq_run (fun s addr => ?_) s events
    rw [same]

/-- For both chips, every state, every address and whatever keeps its promise on
the ports. -/
theorem peeks_unnoticed (c : Cia.Wiring ω) (v : Via.Wiring ω)
    (promised : Promised c.portADevice ∧ Promised c.portBDevice ∧
      Promised v.portADevice ∧ Promised v.portBDevice) :
    Unnoticed (Cia.ioRead c) (Cia.ioPeek c) (Cia.step c) ∧
      Unnoticed (Via.ioRead v) (Via.ioPeek v) (Via.step v) := by
  obtain ⟨ciaA, ciaB, viaA, viaB⟩ := promised
  exact ⟨unnoticed _ (ciaPeek_eq c ciaA ciaB), unnoticed _ (viaPeek_eq v viaA viaB)⟩

/-- A device that counts its reads and shows the count. -/
def counting : IPortDevice ℕ :=
  { readPort := fun w => (BitVec.ofNat 8 w, w + 1)
    peekPort := fun w => (BitVec.ofNat 8 w, w)
    writePort := fun _ w => w
    setDdr := fun _ w => w }

theorem peeks_unnoticed_counting :
    Unnoticed
        (Cia.ioRead ⟨some counting, none, fun _ _ w => w, fun _ w => w⟩)
        (Cia.ioPeek ⟨some counting, none, fun _ _ w => w, fun _ w => w⟩)
        (Cia.step ⟨some counting, none, fun _ _ w => w, fun _ w => w⟩) ∧
      Unnoticed
        (Via.ioRead ⟨none, some counting, fun _ w => w, fun _ w => w⟩)
        (Via.ioPeek ⟨none, some counting, fun _ w => w, fun _ w => w⟩)
        (Via.step ⟨none, some counting, fun _ w => w, fun _ w => w⟩) :=
  peeks_unnoticed _ _ (by simp [Promised, counting])

end Mmemu.Guarantees.ChipPeeks
