import Mmemu.Library.WordBytes
import Mmemu.Source.Cpu6502Frame

/-!
# The status register and interrupt entries

Bit 5 of P is set and bit 4 clear in every state a core reaches from reset. The status byte
that BRK and PHP push has bit 4 set, the one that IRQ and NMI push has it clear, and RTI
undoes an interrupt entry whose stacked bytes are still in place.
-/
namespace Mmemu.Guarantees.StatusRegister
open Mmemu.Source.MemoryBus
open Mmemu.Source.Cpu6502
open Mmemu.Library.StateFrame

/-! ## The invariant -/

section Invariant
variable {ω : Type} [IBus ω]

/-- The status discipline, whatever the world does. -/
def KeepsStatus (c c' : MOS6502 ω) : Prop := StatusOk c.state.p → StatusOk c'.state.p

instance : Closed (fun _ _ : ω => True) where
  refl _ := trivial
  trans _ _ _ _ _ := trivial
  read8 _ _ := trivial
  write8 _ _ _ := trivial

omit [IBus ω] in
theorem keepsStatus_of_framed {α : Type} {x : Exec ω α}
    (h : Keeps (Framed Kept fun _ _ : ω => True) x) : Keeps KeepsStatus x :=
  h.mono fun _ _ framed => framed.regs.status

theorem execute_keepsStatus (w : Wiring ω) : Keeps KeepsStatus (execute w) := by
  intro c
  have decoded : Framed PcOnly (fun _ _ : ω => True) c (decode c).core := decode_frame c
  have observed : KeepsStatus (decode c).core (observe w c.state.pc (decode c).core).2 := by
    unfold observe
    cases w.observer with
    | none => exact id
    | some obs =>
      dsimp only
      split <;> exact id
  have performed : Keeps KeepsStatus (perform w (decode c)) :=
    keepsStatus_of_framed (perform_keeps w (fun _ _ _ => trivial) (decode c))
  intro ok
  have fetched := observed (decoded.regs.legal.status ok)
  rw [execute_eq]
  split
  · exact performed _ fetched
  · exact fetched

/-- Intercepts that keep the discipline, as those that write the carry only do. -/
def HooksKeepStatus (w : Wiring ω) : Prop := ∀ hook ∈ w.pcHook, Keeps KeepsStatus hook.fire

theorem step_keepsStatus (w : Wiring ω) (hooks : HooksKeepStatus w) :
    Keeps KeepsStatus (step w) := by
  intro c ok
  have entered (vector : BitVec 16) : Keeps KeepsStatus (interrupt w vector) :=
    keepsStatus_of_framed (interrupt_keeps w (fun _ _ _ => trivial) vector)
  cases asleep : c.state.asleep with
  | true =>
    rw [step_asleep w asleep]
    exact ok
  | false =>
    cases edge : c.state.nmiEdge with
    | true =>
      rw [step_nmi w asleep edge]
      exact entered _ _ ok
    | false =>
      cases irq : c.state.irqTaken with
      | true =>
        rw [step_irq w asleep edge irq]
        exact entered _ _ ok
      | false =>
        have executes : c.state.executes = true := by
          simp [CPU6502State.executes, asleep, edge, irq]
        cases hooked : w.pcHook with
        | none =>
          rw [step_execute w hooked executes]
          exact execute_keepsStatus w _ ok
        | some hook =>
          rw [step_hooked w hooked executes]
          split
          · split
            · exact hooks hook hooked c.sampled ok
            · exact execute_keepsStatus w _ (hooks hook hooked c.sampled ok)
          · exact execute_keepsStatus w _ ok

theorem reset_status (c : MOS6502 ω) : StatusOk (reset c).2.state.p := by
  change StatusOk (FLAG_U ||| FLAG_I)
  decide

theorem apply_status (w : Wiring ω) (hooks : HooksKeepStatus w) (c : MOS6502 ω) (e : Event)
    (ok : StatusOk c.state.p) : StatusOk (apply w c e).state.p := by
  cases e with
  | step => exact step_keepsStatus w hooks c ok
  | reset => exact reset_status c
  | _ => exact ok

/-- A core after any run from reset. -/
def Reachable (w : Wiring ω) (c : MOS6502 ω) : Prop :=
  ∃ start : MOS6502 ω, ∃ events : List Event, c = events.foldl (apply w) (reset start).2

theorem Reachable.status {w : Wiring ω} (hooks : HooksKeepStatus w) {c : MOS6502 ω}
    (h : Reachable w c) : StatusOk c.state.p := by
  obtain ⟨start, events, rfl⟩ := h
  have from_ (c : MOS6502 ω) (ok : StatusOk c.state.p) :
      StatusOk (events.foldl (apply w) c).state.p := by
    induction events generalizing c with
    | nil => exact ok
    | cons e rest ih => exact ih _ (apply_status w hooks c e ok)
  exact from_ _ (reset_status start)

end Invariant

/-! ## What is pushed and pulled -/

section Stack
variable {ω : Type} [IBus ω]

/-- The stack location of a stack pointer. -/
def stackAt (sp : BitVec 8) : BitVec 32 := (0x0100 ||| sp.setWidth 16 : BitVec 16).setWidth 32

/-- The world after PC and a status byte are pushed. -/
def stacked (b : ω) (sp : BitVec 8) (pc : BitVec 16) (status : BitVec 8) : ω :=
  let b := IBus.write8 b (stackAt sp) (pc.extractLsb' 8 8)
  let b := IBus.write8 b (stackAt (sp - 1)) (pc.setWidth 8)
  IBus.write8 b (stackAt (sp - 2)) status

/-- The world after the vector is read. -/
def vectored (hook : Option (ω → ω)) (vector : BitVec 16) (b : ω) : ω :=
  let b := match hook with
    | some pull => pull b
    | none => b
  let b := (IBus.read8 b (vector.setWidth 32)).2
  (IBus.read8 b ((vector + 1).setWidth 32)).2

/-- Pulling from `sp` up yields these bytes. -/
def StackedAt (sp : BitVec 8) : List (BitVec 8) → ω → Prop
  | [], _ => True
  | val :: rest, b =>
    (IBus.read8 b (stackAt (sp + 1))).1 = val ∧
      StackedAt (sp + 1) rest (IBus.read8 b (stackAt (sp + 1))).2

/-- What the core owes to a handler that tells BRK from IRQ, in one state. -/
structure Disciplined (w : Wiring ω) (c : MOS6502 ω) : Prop where
  status : StatusOk c.state.p
  php : ∀ d c', instruction w c = some (d, c') → d.info.fn = .PHP →
    (step w c).2.bus = IBus.write8 c'.bus (stackAt c'.state.sp) (c'.state.p ||| FLAG_B)
  brk : ∀ d c', instruction w c = some (d, c') → d.info.fn = .BRK →
    (step w c).2.bus = vectored w.onVectorPull 0xFFFE
      (stacked c'.bus c'.state.sp (c'.state.pc + 1) (c'.state.p ||| FLAG_B ||| FLAG_U))
  entry : ∀ vector, interruptTaken c.state = some vector →
    (step w c).2.bus =
      vectored w.onVectorPull vector (stacked c.bus c.state.sp c.state.pc c.state.p)
  return_ : ∀ vector, interruptTaken c.state = some vector →
    ∀ handled d c', instruction w handled = some (d, c') → d.info.fn = .RTI →
    c'.state.sp = (step w c).2.state.sp →
    StackedAt c'.state.sp
      [c.state.p, c.state.pc.setWidth 8, c.state.pc.extractLsb' 8 8] c'.bus →
    (step w handled).2.state.pc = c.state.pc ∧ (step w handled).2.state.p = c.state.p ∧
      (step w handled).2.state.sp = c.state.sp

theorem enter_eq (hook : Option (ω → ω)) (status : BitVec 8 → BitVec 8) (vector : BitVec 16)
    (c : MOS6502 ω) :
    (enter hook status vector c).2.bus =
        vectored hook vector (stacked c.bus c.state.sp c.state.pc (status c.state.p)) ∧
      (enter hook status vector c).2.state.sp = c.state.sp - 3 := by
  have third : c.state.sp - 1 - 1 = c.state.sp - 2 := by bv_omega
  have down : c.state.sp - 1 - 1 - 1 = c.state.sp - 3 := by bv_omega
  cases hook with
  | none =>
    constructor
    · rw [stacked, ← third]
      rfl
    · rw [← down]
      rfl
  | some pull =>
    constructor
    · rw [stacked, ← third]
      rfl
    · rw [← down]
      rfl

/-- What RTI makes of a pushed P, and an interrupt of P when it pushes it. -/
theorem pulled_of_statusOk {p : BitVec 8} (ok : StatusOk p) : p &&& ~~~FLAG_B ||| FLAG_U = p := by
  revert p
  decide

/-- An interrupt pushes PC and P as they are, and lowers SP by three. -/
theorem step_taken (w : Wiring ω) {c : MOS6502 ω} (ok : StatusOk c.state.p) {vector : BitVec 16}
    (taken : interruptTaken c.state = some vector) :
    (step w c).2.bus =
        vectored w.onVectorPull vector (stacked c.bus c.state.sp c.state.pc c.state.p) ∧
      (step w c).2.state.sp = c.state.sp - 3 := by
  have entered (c' : MOS6502 ω) (bus : c'.bus = c.bus) (sp : c'.state.sp = c.state.sp)
      (pc : c'.state.pc = c.state.pc) (p : c'.state.p = c.state.p) :
      (interrupt w vector c').2.bus =
          vectored w.onVectorPull vector (stacked c.bus c.state.sp c.state.pc c.state.p) ∧
        (interrupt w vector c').2.state.sp = c.state.sp - 3 := by
    have entry := enter_eq w.onVectorPull (fun p => p &&& ~~~FLAG_B ||| FLAG_U) vector c'
    simp only [bus, sp, pc, p, pulled_of_statusOk ok] at entry
    exact entry
  unfold interruptTaken at taken
  split at taken
  · cases taken
  next awake =>
    split at taken
    next edge =>
      obtain rfl := Option.some.inj taken
      rw [step_nmi w (by simpa using awake) edge]
      exact entered _ rfl rfl rfl rfl
    next edge =>
      split at taken
      next irq =>
        obtain rfl := Option.some.inj taken
        rw [step_irq w (by simpa using awake) (by simpa using edge) irq]
        exact entered _ rfl rfl rfl rfl
      · cases taken

theorem opRTI_returns {c : MOS6502 ω} {sp p : BitVec 8} {pc : BitVec 16} (ok : StatusOk p)
    (lowered : c.state.sp = sp - 3)
    (there : StackedAt c.state.sp [p, pc.setWidth 8, pc.extractLsb' 8 8] c.bus)
    (addr : BitVec 16) :
    (opRTI addr c).2.state.pc = pc ∧ (opRTI addr c).2.state.p = p ∧
      (opRTI addr c).2.state.sp = sp := by
  obtain ⟨first, second, third, -⟩ := there
  have raised : c.state.sp + 1 + 1 + 1 = sp := by
    rw [lowered]
    bv_omega
  refine ⟨?_, ?_, raised⟩
  · refine Eq.trans ?_ (Library.LittleEndian.bytes_append pc)
    rw [← second, ← third]
    rfl
  · refine Eq.trans ?_ (pulled_of_statusOk ok)
    rw [← first]
    rfl

/-- Every state that a core reaches from reset, whatever the lines do, keeps bits 4 and 5 of P
and tells BRK from an interrupt, and RTI takes an interrupt back. -/
theorem disciplined {w : Wiring ω} (hooks : HooksKeepStatus w) {c : MOS6502 ω}
    (reached : Reachable w c) : Disciplined w c := by
  have ok : StatusOk c.state.p := reached.status hooks
  refine ⟨ok, ?_, ?_, ?_, ?_⟩
  · intro d c' runs fn
    rw [step_instruction runs, perform, fn]
    rfl
  · intro d c' runs fn
    rw [step_instruction runs, perform, fn]
    exact (enter_eq w.onVectorPull (fun p => p ||| FLAG_B ||| FLAG_U) 0xFFFE
      { c' with state := { c'.state with pc := c'.state.pc + 1 } }).1
  · intro vector taken
    exact (step_taken w ok taken).1
  · intro vector taken handled d c' runs fn sp there
    rw [step_instruction runs, perform, fn]
    exact opRTI_returns ok (sp.trans (step_taken w ok taken).2) there d.addr

end Stack

/-- Nothing attached to the core but its bus. -/
def bare : Wiring FlatMemoryBus := ⟨none, none, none⟩

/-- CLI at $0200, run after a reset, with an IRQ asserted. -/
def interrupted : MOS6502 FlatMemoryBus :=
  [.setIrqLine true, .step].foldl (apply bare) (reset
    { state := default
      bus := { FlatMemoryBus.new 16 with
        data := fun addr => match addr.toNat with
          | 0x200 => 0x58
          | 0x300 => 0x40
          | 0xFFFD => 0x02
          | 0xFFFF => 0x03
          | _ => 0 }
      cmos := false, curOp := 0, branchTarget := 0 }).2

theorem disciplined_interrupted :
    interruptTaken interrupted.state = some 0xFFFE ∧ Disciplined bare interrupted :=
  ⟨by decide, disciplined (fun _ hooked => by cases hooked) ⟨_, _, rfl⟩⟩

end Mmemu.Guarantees.StatusRegister
