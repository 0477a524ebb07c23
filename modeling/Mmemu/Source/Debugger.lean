import Mmemu.Source.Cpu6502Step
import Mmemu.Library.UndoLog

/-!
# Debug context: breakpoints, execution trace and stack trace

Source: src/libdebug/main/debug_context.cpp, trace_buffer.cpp, breakpoint_list.cpp and
stack_trace.cpp, for a 6502 on a flat memory bus: `onStep` and the memory callbacks, and the
reverse step. A condition is the predicate its expression evaluates to; watchpoints carry
none here. Messages, logging, the heat map and Lua actions leave no trace in this state.
-/
namespace Mmemu.Source.Debugger
open Mmemu.Source.MemoryBus
open Mmemu.Source.Cpu6502

abbrev MemoryWrite := Library.UndoLog.Entry (BitVec 32) (BitVec 8)

/-- One traced instruction; `cpuState` is the `saveState` snapshot, which always fits. -/
structure TraceEntry where
  addr : BitVec 32
  cycles : BitVec 64
  memWrites : List MemoryWrite
  instr : List (BitVec 8)
  cpuState : CPU6502State
  deriving Inhabited

/-- The registers a trace entry is materialised to: all but the internal ones, in the order
the map of names lists them. -/
def materialized : List Reg := [.A, .P, .PC, .SP, .X, .Y]

inductive BreakpointType where
  | exec | readWatch | writeWatch | valueWatch
  deriving DecidableEq, Repr

structure Breakpoint where
  addr : BitVec 32
  type : BreakpointType
  condition : CPU6502State → FlatMemoryBus → Bool
  hitCount : ℕ
  enabled : Bool
  id : ℕ

/-- Count a hit of the first breakpoint that matches. -/
def hit (found : Breakpoint → Bool) : List Breakpoint → Option (List Breakpoint)
  | [] => none
  | b :: rest =>
    if found b then some ({ b with hitCount := b.hitCount + 1 } :: rest)
    else (hit found rest).map (b :: ·)

def checkExec (bps : List Breakpoint) (addr : BitVec 32) (cpu : CPU6502State)
    (bus : FlatMemoryBus) : Option (List Breakpoint) :=
  hit (fun b => b.enabled && b.type = .exec && b.addr == addr && b.condition cpu bus) bps

def checkWrite (bps : List Breakpoint) (addr : BitVec 32) : Option (List Breakpoint) :=
  hit (fun b => b.enabled && b.type = .writeWatch && b.addr == addr) bps

def checkRead (bps : List Breakpoint) (addr : BitVec 32) : Option (List Breakpoint) :=
  hit (fun b => b.enabled && b.type = .readWatch && b.addr == addr) bps

inductive StackPushType where
  | call | pha | phx | phy | php | phz | brk
  deriving DecidableEq, Repr

structure StackEntry where
  type : StackPushType
  pushedByPc : BitVec 32
  value : BitVec 32
  deriving DecidableEq, Repr

/-- `stackTrace` has the newest entry first. -/
structure DebugContext where
  breakpoints : List Breakpoint
  trace : CircularBuffer TraceEntry
  stackTrace : List StackEntry
  paused : Bool
  pauseOnBrk : Bool
  lastPausedAddr : BitVec 32
  resumeSkipAddr : BitVec 32

namespace DebugContext

def new : DebugContext where
  breakpoints := []
  trace := .new 1000 default
  stackTrace := []
  paused := false
  pauseOnBrk := true
  lastPausedAddr := ~~~0
  resumeSkipAddr := ~~~0

def resume (d : DebugContext) : DebugContext :=
  { d with resumeSkipAddr := d.lastPausedAddr, paused := false }

def pushStack (d : DebugContext) (type : StackPushType) (pc value : BitVec 32) : DebugContext :=
  { d with stackTrace := ⟨type, pc, value⟩ :: d.stackTrace }

def popStack (d : DebugContext) : DebugContext := { d with stackTrace := d.stackTrace.tail }

/-- The stack effect of an instruction about to execute; no register is called Z here. -/
def trackStack (d : DebugContext) (cpu : CPU6502State) (entry : DisasmEntry) : DebugContext :=
  if entry.isCall then d.pushStack .call entry.addr entry.targetAddr
  else if entry.isReturn then d.popStack
  else match entry.stackOp with
    | .pushA => d.pushStack .pha entry.addr (regRead cpu .A)
    | .pushX => d.pushStack .phx entry.addr (regRead cpu .X)
    | .pushY => d.pushStack .phy entry.addr (regRead cpu .Y)
    | .pushP => d.pushStack .php entry.addr (regRead cpu .P)
    | .pushZ => d.pushStack .phz entry.addr 0
    | .brk => d.pushStack .brk entry.addr 0
    | .pull => d.popStack
    | .none => d

/-- Pause at an instruction, which then does not execute. -/
def pauseAt (d : DebugContext) (addr : BitVec 32) : DebugContext :=
  { d with lastPausedAddr := addr, paused := true }

/-- The entry a step is traced with, before the instruction executes. -/
def captured (cpu : CPU6502State) (entry : DisasmEntry) : TraceEntry where
  addr := entry.addr
  cycles := cpu.cycles
  memWrites := []
  instr := entry.raw
  cpuState := cpu

def traced (d : DebugContext) (cpu : CPU6502State) (entry : DisasmEntry) : DebugContext :=
  { d with trace := d.trace.push (captured cpu entry) }

/-- The breakpoint check of a step, with what it answers. -/
def execCheck (d : DebugContext) (cpu : CPU6502State) (bus : FlatMemoryBus) (addr : BitVec 32) :
    Bool × DebugContext :=
  match checkExec d.breakpoints addr cpu bus with
  | some bps => (false, { d with breakpoints := bps }.pauseAt addr)
  | none => (true, d)

def onStep (d : DebugContext) (cpu : CPU6502State) (bus : FlatMemoryBus) (entry : DisasmEntry) :
    Bool × DebugContext :=
  let d := d.traced cpu entry
  -- on resume, the breakpoint at the address just paused on is passed
  if entry.addr = d.resumeSkipAddr then
    (true, { d with resumeSkipAddr := ~~~0 }.trackStack cpu entry)
  else
    let (cont, d) := d.execCheck cpu bus entry.addr
    let (cont, d) := if d.pauseOnBrk && entry.stackOp = .brk
      then (false, d.pauseAt entry.addr) else (cont, d)
    if cont then (true, d.trackStack cpu entry) else (false, d)

def onStepLite (d : DebugContext) (cpu : CPU6502State) (pc : BitVec 32) : DebugContext :=
  { d with trace := d.trace.push ⟨pc, cpu.cycles, [], [], cpu⟩ }

/-- Add a write to the newest trace entry. -/
def recordWrite (d : DebugContext) (w : MemoryWrite) : DebugContext :=
  { d with trace := d.trace.modifyBack fun e => { e with memWrites := e.memWrites ++ [w] } }

def watch (d : DebugContext) (check : Option (List Breakpoint)) : DebugContext :=
  match check with
  | some bps => { d with breakpoints := bps, paused := true }
  | none => d

def onMemoryWrite (d : DebugContext) (addr : BitVec 32) (before : BitVec 8) : DebugContext :=
  (d.recordWrite ⟨addr, before⟩).watch (checkWrite d.breakpoints addr)

def onMemoryRead (d : DebugContext) (addr : BitVec 32) : DebugContext :=
  d.watch (checkRead d.breakpoints addr)

end DebugContext

/-! ## The machine under the debugger -/

/-- The bus and the debug context that observes it. -/
structure World where
  bus : FlatMemoryBus
  debug : DebugContext

/-- The observer of an access gets the masked address and the byte that was there. -/
instance : IBus World where
  read8 w addr :=
    (w.bus.read8 addr, { w with debug := w.debug.onMemoryRead (addr &&& w.bus.addrMask) })
  write8 w addr val :=
    { bus := w.bus.write8 addr val
      debug := w.debug.onMemoryWrite (addr &&& w.bus.addrMask) (w.bus.peek8 addr) }
  peek8 w addr := w.bus.peek8 addr

abbrev Machine := MOS6502 World

def observer : ExecutionObserver World where
  needsDisasm := true
  onStep cpu entry w :=
    let (cont, debug) := w.debug.onStep cpu w.bus entry
    (cont, { w with debug := debug })
  onStepLite cpu pc w := { w with debug := w.debug.onStepLite cpu pc }

/-- The core is observed; no intercepts and no vector-pull listener. -/
def wiring : Wiring World := ⟨some observer, none, none⟩

def stepped (m : Machine) : Machine := (step wiring m).2

/-- Take a trace entry back on the bus that the debugger observes. -/
def undoWrites (writes : List MemoryWrite) (w : World) : World :=
  writes.reverse.foldl (fun w e => IBus.write8 w e.addr e.before) w

/-- The registers of an entry put back by name, and PC. -/
def restoreRegs (e : TraceEntry) (s : CPU6502State) : CPU6502State :=
  let s := materialized.foldl (fun s r => regWrite s r (regRead e.cpuState r)) s
  { s with pc := e.addr.setWidth 16 }

/-- `TraceBuffer::reverseStep`: false when there is nothing to take back. -/
def reverseStep (m : Machine) : Bool × Machine :=
  match m.bus.debug.trace.popBack with
  | none => (false, m)
  | some (entry, trace) =>
    let w := undoWrites entry.memWrites { m.bus with debug := { m.bus.debug with trace := trace } }
    (true, { m with bus := w, state := restoreRegs entry m.state })

/-! ## Sessions -/

/-- What the machine and the user do in a debugging session. -/
inductive Command where
  | core (e : Event)
  | resume
  | setPc (pc : BitVec 16)
  | configure (breakpoints : List Breakpoint) (pauseOnBrk : Bool)

def obey (m : Machine) : Command → Machine
  | .core e => apply wiring m e
  | .resume => { m with bus := { m.bus with debug := m.bus.debug.resume } }
  | .setPc pc => { m with state := { m.state with pc := pc } }
  | .configure bps brk =>
    { m with bus := { m.bus with
        debug := { m.bus.debug with breakpoints := bps, pauseOnBrk := brk } } }

end Mmemu.Source.Debugger
