import Mmemu.Source.DebuggerFrame
import Mmemu.Library.Runs

/-!
# The call-stack trace

Every instruction that opens a frame on the hardware stack pushes an entry on the stack trace,
and every one that closes a frame pops one. An interrupt opens a frame inside the step, where
nothing is pushed, and its RTI pops all the same: it takes an entry of the interrupted code.
-/
namespace Mmemu.Guarantees.StackBalance
open Mmemu.Source.MemoryBus
open Mmemu.Source.Cpu6502
open Mmemu.Source.Debugger
open Mmemu.Library.NestedRun

/-! ## Frames of the hardware stack -/

inductive Opening where
  | call | push | brk | interrupt
  deriving DecidableEq, Repr

inductive Closing where
  | rts | pull | rti
  deriving DecidableEq, Repr

/-- A call ends with RTS, a push with a pull, BRK and an interrupt with RTI. -/
def Matched : Opening → Closing → Prop
  | .call, .rts | .push, .pull | .brk, .rti | .interrupt, .rti => True
  | _, _ => False

def fnKind : OpcodeFn → Kind Opening Closing
  | .JSR => .opens .call
  | .BRK => .opens .brk
  | .PHA | .PHX | .PHY | .PHP => .opens .push
  | .RTS => .closes .rts
  | .RTI => .closes .rti
  | .PLA | .PLX | .PLY | .PLP => .closes .pull
  | _ => .quiet

/-- What the next step does to the hardware stack. -/
def stepKind (m : Machine) : Kind Opening Closing :=
  if (interruptTaken m.state).isSome then .opens .interrupt
  else match instruction wiring m with
    | some (d, _) => fnKind d.info.fn
    | none => .quiet

def machineFrames : Bracketing Machine Command Opening Closing where
  step := obey
  kind m c := match c with
    | .core .step => stepKind m
    | _ => .quiet
  matched := Matched

def stackTrace (m : Machine) : List StackEntry := m.bus.debug.stackTrace

/-- The trace after each closing step is the trace before the step it matches. -/
def Balanced : Machine → List Command → Prop :=
  machineFrames.EachFrame (Restored machineFrames stackTrace)

/-- Every interrupt that the run returns from is taken with an empty trace. -/
def InterruptsOnEmptyTrace : Machine → List Command → Prop :=
  machineFrames.EachFrame (EmptyIfUnrecorded (· ≠ .interrupt) stackTrace)

/-! ## What an entry does to the trace -/

def pushes (entry : DisasmEntry) : Bool :=
  entry.isCall || (!entry.isReturn && entry.stackOp ≠ .none && entry.stackOp ≠ .pull)

def pops (entry : DisasmEntry) : Bool :=
  !entry.isCall && (entry.isReturn || entry.stackOp = .pull)

theorem trackStack_pushes (d : DebugContext) (cpu : CPU6502State) {entry : DisasmEntry}
    (h : pushes entry = true) :
    ∃ a, (d.trackStack cpu entry).stackTrace = a :: d.stackTrace := by
  unfold DebugContext.trackStack
  split
  · exact ⟨_, rfl⟩
  next notCall =>
    split
    next isReturn => simp [pushes, notCall, isReturn] at h
    · split
      all_goals first
        | exact ⟨_, rfl⟩
        | simp_all [pushes]

theorem trackStack_pops (d : DebugContext) (cpu : CPU6502State) {entry : DisasmEntry}
    (h : pops entry = true) : (d.trackStack cpu entry).stackTrace = d.stackTrace.tail := by
  unfold DebugContext.trackStack
  split
  next isCall => simp [pops, isCall] at h
  next notCall =>
    split
    · rfl
    next notReturn =>
      have pull : entry.stackOp = .pull := by simpa [pops, notCall, notReturn] using h
      rw [pull]
      rfl

theorem trackStack_quiet (d : DebugContext) (cpu : CPU6502State) {entry : DisasmEntry}
    (noPush : pushes entry = false) (noPop : pops entry = false) :
    (d.trackStack cpu entry).stackTrace = d.stackTrace := by
  unfold DebugContext.trackStack
  split
  next isCall => simp [pushes, isCall] at noPush
  next notCall =>
    split
    next isReturn => simp [pops, notCall, isReturn] at noPop
    next notReturn =>
      have none : entry.stackOp = .none := by
        simp only [pops, notCall, notReturn] at noPop
        simp only [pushes, notCall, notReturn] at noPush
        by_contra some
        simp_all
      rw [none]

/-- An opcode's function and the flags of its decoded entry agree. -/
def agrees (cmos : Bool) (op : BitVec 8) : Bool :=
  let entry : DisasmEntry :=
    ⟨0, [], op == 0x20, op == 0x60 || op == 0x40, 0, stackOpFor (opcode cmos op).mnemonic⟩
  match fnKind (opcode cmos op).fn with
  | .opens _ => pushes entry
  | .closes _ => pops entry
  | .quiet => !pushes entry && !pops entry

theorem tables_agree : ∀ (cmos : Bool) (op : BitVec 8), agrees cmos op = true := by
  decide

/-- What the debugger makes of an instruction is what its function does to the stack. -/
theorem trackStack_fnKind (d : DebugContext) (cpu : CPU6502State) (cmos : Bool) (w : World)
    (addr : BitVec 32) :
    let after := (d.trackStack cpu (decodeEntry cmos w addr)).stackTrace
    match fnKind (opcode cmos (IBus.peek8 w addr)).fn with
    | .opens _ => ∃ a, after = a :: d.stackTrace
    | .closes _ => after = d.stackTrace.tail
    | .quiet => after = d.stackTrace := by
  have agree := tables_agree cmos (IBus.peek8 w addr)
  unfold agrees at agree
  dsimp only at agree ⊢
  split at agree
  next k opens => exact trackStack_pushes d cpu agree
  next k closes => exact trackStack_pops d cpu agree
  next quiet =>
    rw [Bool.and_eq_true, Bool.not_eq_true', Bool.not_eq_true'] at agree
    exact trackStack_quiet d cpu agree.1 agree.2

/-! ## Steps -/

theorem trackStack_congr {d d' : DebugContext} (same : d'.stackTrace = d.stackTrace)
    (cpu : CPU6502State) (entry : DisasmEntry) :
    (d'.trackStack cpu entry).stackTrace = (d.trackStack cpu entry).stackTrace := by
  unfold DebugContext.trackStack DebugContext.pushStack DebugContext.popStack
  split
  · simp [same]
  · split
    · simp [same]
    · split <;> simp [same]

theorem execCheck_stackTrace (d : DebugContext) (cpu : CPU6502State) (bus : FlatMemoryBus)
    (addr : BitVec 32) : (d.execCheck cpu bus addr).2.stackTrace = d.stackTrace := by
  unfold DebugContext.execCheck
  split <;> rfl

theorem concluded_stackTrace (m : Machine) (brk : Bool) (checked : Bool × DebugContext) :
    (concluded m brk checked).2.stackTrace =
      if (concluded m brk checked).1
      then (checked.2.trackStack m.state (entryAt m)).stackTrace else checked.2.stackTrace := by
  obtain ⟨cont, d⟩ := checked
  cases brk <;> cases cont <;> rfl

/-- Only an instruction that the observer lets go moves the trace. -/
theorem answer_stackTrace (d : DebugContext) (m : Machine) :
    (answer d m).2.stackTrace =
      if (answer d m).1 then (d.trackStack m.state (entryAt m)).stackTrace else d.stackTrace := by
  have checked := execCheck_stackTrace (d.traced m.state (entryAt m)) m.state m.bus.bus
    (m.state.pc.setWidth 32)
  have traced : (d.traced m.state (entryAt m)).stackTrace = d.stackTrace := rfl
  have skipped : ({ d.traced m.state (entryAt m) with resumeSkipAddr := ~~~0 } :
      DebugContext).stackTrace = d.stackTrace := rfl
  rw [answer_eq]
  dsimp only
  split
  · rw [if_pos rfl]
    exact trackStack_congr skipped _ _
  · rw [concluded_stackTrace, trackStack_congr (checked.trans traced), checked]
    rfl

theorem interrupt_stackTrace (vector : BitVec 16) (m : Machine) :
    stackTrace (interrupt wiring vector m).2 = stackTrace m := by
  have frame : Framed Kept Accessed m (interrupt wiring vector m).2 :=
    interrupt_keeps wiring (by simp [wiring]) vector m
  exact frame.bus.settings.stackTrace

/-- A step that executes an instruction, or is stopped before it. -/
theorem stepped_stackTrace {m : Machine} (executes : m.state.executes = true) :
    stackTrace (stepped m) =
      if (instruction wiring m).isSome
      then (m.bus.debug.trackStack m.state.sampled (entryAt m.sampled)).stackTrace
      else stackTrace m := by
  obtain ⟨d, h⟩ := stepped_executes executes
  have settings : SameSettings m.bus.debug d := h.settings
  have asked : (instruction wiring m).isSome = (answer d m.sampled).1 :=
    instruction_isSome executes settings
  have after : stackTrace (stepped m) = (answer d m.sampled).2.stackTrace := by
    cases ran : (answer d m.sampled).1 with
    | true => exact (h.run ran).2.settings.stackTrace
    | false =>
      rw [stackTrace, (h.stop ran).2]
  rw [after, answer_stackTrace, asked]
  exact ite_congr rfl (fun _ => trackStack_congr settings.stackTrace _ _)
    fun _ => settings.stackTrace

/-- The function of an executed instruction is that of the opcode at PC. -/
theorem instruction_fn {m c : Machine} {d : Decoded World}
    (h : instruction wiring m = some (d, c)) :
    d.info = opcode m.cmos (IBus.peek8 m.bus (m.state.pc.setWidth 32)) := by
  unfold instruction at h
  split at h
  · change (if (observe wiring m.sampled.state.pc (decode m.sampled).core).1 then _ else none) = _
      at h
    split at h
    · obtain ⟨rfl, -⟩ := Prod.mk.inj (Option.some.inj h)
      rfl
    · cases h
  · cases h

/-- What the trace makes of a step of some kind. -/
def Effect (kind : Kind Opening Closing) (before after : List StackEntry) : Prop :=
  match kind with
  | .quiet | .opens .interrupt => after = before
  | .opens _ => ∃ a, after = a :: before
  | .closes _ => after = before.tail

theorem fnKind_ne_interrupt (fn : OpcodeFn) : fnKind fn ≠ .opens .interrupt := by
  cases fn <;> simp [fnKind]

theorem asleep_of_idle {s : CPU6502State} (quiet : interruptTaken s = none)
    (idle : s.executes = false) : s.asleep = true := by
  by_contra awake
  have awake' : s.asleep = false := by simpa using awake
  unfold interruptTaken at quiet
  rw [if_neg awake] at quiet
  split at quiet
  · cases quiet
  next edge =>
    split at quiet
    · cases quiet
    next irq => simp [CPU6502State.executes, awake', edge, irq] at idle

theorem stepped_effect (m : Machine) :
    Effect (stepKind m) (stackTrace m) (stackTrace (stepped m)) := by
  unfold stepKind
  cases taken : interruptTaken m.state with
  | some vector =>
    change stackTrace (stepped m) = stackTrace m
    unfold interruptTaken at taken
    split at taken
    · cases taken
    next awake =>
      split at taken
      next edge =>
        rw [stepped, step_nmi wiring (by simpa using awake) edge]
        exact interrupt_stackTrace _ _
      next edge =>
        split at taken
        next irq =>
          rw [stepped, step_irq wiring (by simpa using awake) (by simpa using edge) irq]
          exact interrupt_stackTrace _ _
        · cases taken
  | none =>
    rw [if_neg (by simp)]
    cases executes : m.state.executes with
    | false =>
      have asleep : m.state.asleep = true := asleep_of_idle taken executes
      have nothing : instruction wiring m = none := by
        rw [instruction, if_neg (by simp [executes])]
      rw [nothing]
      change stackTrace (stepped m) = stackTrace m
      rw [stepped, step_asleep wiring asleep]
      rfl
    | true =>
      have after := stepped_stackTrace executes
      cases runs : instruction wiring m with
      | none =>
        rw [runs, if_neg (by simp)] at after
        exact after
      | some run =>
        obtain ⟨d, c⟩ := run
        rw [runs, if_pos (by rfl)] at after
        have effect := trackStack_fnKind m.bus.debug m.state.sampled m.cmos m.bus
          (m.state.pc.setWidth 32)
        rw [← instruction_fn runs] at effect
        dsimp only at effect ⊢
        rw [after]
        cases kind : fnKind d.info.fn with
        | quiet =>
          rw [kind] at effect
          exact effect
        | closes k =>
          rw [kind] at effect
          exact effect
        | opens k =>
          rw [kind] at effect
          cases k with
          | interrupt => exact absurd kind (fnKind_ne_interrupt _)
          | call | push | brk => exact effect

theorem obey_effect (m : Machine) (c : Command) :
    Effect (machineFrames.kind m c) (stackTrace m) (stackTrace (obey m c)) := by
  cases c with
  | resume | setPc | configure => rfl
  | core e =>
    cases e with
    | step => exact stepped_effect m
    | reset =>
      have read : ReadOnly m.bus (reset m).2.bus :=
        IsTrans.trans _ _ _ (ReadClosed.read8 m.bus _) (ReadClosed.read8 _ _)
      exact read.settings.stackTrace
    | _ => rfl

/-- The trace is a shadow of the hardware stack in which interrupts have no entry. -/
theorem shadow : Shadow machineFrames (· ≠ Opening.interrupt) stackTrace where
  quiet := by
    intro m c quiet
    have effect := obey_effect m c
    rw [quiet] at effect
    exact effect
  pushed := by
    intro m c k opens recorded
    have effect := obey_effect m c
    rw [opens] at effect
    cases k with
    | interrupt => exact absurd rfl recorded
    | call | push | brk => exact effect
  skipped := by
    intro m c k opens unrecorded
    obtain rfl := not_not.mp unrecorded
    have effect := obey_effect m c
    rw [opens] at effect
    exact effect
  popped := by
    intro m c k closes
    have effect := obey_effect m c
    rw [closes] at effect
    exact effect

/-- The trace stays balanced precisely if every interrupt that the run returns from is taken
while it is empty. -/
theorem balanced_iff (m : Machine) (commands : List Command) :
    Balanced m commands ↔ InterruptsOnEmptyTrace m commands :=
  shadow.restored_iff m commands

/-- `JSR $0300` at $0200 with an IRQ handler that returns at once. -/
def interruptedCall : Machine where
  state := { (default : CPU6502State) with sp := 0xFD, p := 0x20, pc := 0x0200 }
  bus :=
    { bus := { FlatMemoryBus.new 16 with
        data := fun addr => match addr.toNat with
          | 0x200 => 0x20
          | 0x202 => 0x03
          | 0x300 => 0xEA
          | 0x400 => 0x40
          | 0xFFFF => 0x04
          | _ => 0 }
      debug := .new }
  cmos := false
  curOp := 0
  branchTarget := 0

/-- Call, take an IRQ in the subroutine and return from it. -/
def interruptedCommands : List Command :=
  [.core .step, .core (.setIrqLine true), .core .step, .core (.setIrqLine false), .core .step]

/-- The RTI takes the entry of the call away. -/
theorem not_balanced_interruptedCall : ¬ Balanced interruptedCall interruptedCommands := by
  intro balanced
  have entry : stepKind (machineFrames.run interruptedCall (interruptedCommands.take 2)) =
      .opens .interrupt := by decide
  have exit : stepKind (machineFrames.run interruptedCall (interruptedCommands.take 4)) =
      .closes .rti := by decide
  have restored := balanced (interruptedCommands.take 2) (.core .step) [.core (.setIrqLine false)] (.core .step) [] .interrupt
    rfl ⟨entry, .quiet rfl (.nil _), .rti, exit, trivial⟩
  have before : (stackTrace (machineFrames.run interruptedCall
      (interruptedCommands.take 2))).length = 1 := by decide
  have after : (stackTrace (machineFrames.run interruptedCall interruptedCommands)).length = 0 := by
    decide
  have same : (stackTrace (machineFrames.run interruptedCall interruptedCommands)).length =
      (stackTrace (machineFrames.run interruptedCall (interruptedCommands.take 2))).length :=
    congrArg List.length restored
  omega

end Mmemu.Guarantees.StackBalance
