import Mathlib.Data.BitVec

/-!
# Lua cycle events

`lua_event_registry.cpp` and the part of `DebugContext::onStep` that counts cycles and calls the
handlers, for any core. What the other observers and the breakpoint list answer is given with the
step; tracing, stack tracking and what a handler itself does leave no trace in this state.
-/
namespace Mmemu.Source.LuaEvents

structure CycleEvent where
  interval : BitVec 64
  /-- Absolute cycle count for next firing. -/
  nextFire : BitVec 64
  functionName : String

structure LuaEventRegistry where
  m_cycleEvents : List CycleEvent

namespace LuaEventRegistry

def registerCycleEvent (r : LuaEventRegistry) (interval : BitVec 64) (functionName : String) :
    LuaEventRegistry :=
  if interval = 0 then r else ⟨r.m_cycleEvents ++ [⟨interval, interval, functionName⟩]⟩

def unregisterCycleEvent (r : LuaEventRegistry) (index : ℕ) : LuaEventRegistry :=
  if index < r.m_cycleEvents.length then ⟨r.m_cycleEvents.eraseIdx index⟩ else r

def cycleEventCount (r : LuaEventRegistry) : ℕ := r.m_cycleEvents.length

/-- The handlers to call, and every event with its next firing. -/
def readyEvents (currentCycle : BitVec 64) : List CycleEvent → List String × List CycleEvent
  | [] => ([], [])
  | event :: rest =>
    let (readyHandlers, rest) := readyEvents currentCycle rest
    if event.nextFire ≤ currentCycle then
      (event.functionName :: readyHandlers,
        { event with nextFire := currentCycle + event.interval } :: rest)
    else (readyHandlers, event :: rest)

def getReadyCycleHandlers (r : LuaEventRegistry) (currentCycle : BitVec 64) :
    List String × LuaEventRegistry :=
  let (readyHandlers, events) := readyEvents currentCycle r.m_cycleEvents
  (readyHandlers, ⟨events⟩)

end LuaEventRegistry

structure DebugContext where
  m_luaEventRegistry : LuaEventRegistry
  m_paused : Bool
  m_pauseOnBrk : Bool
  m_lastPausedAddr : BitVec 32
  m_resumeSkipAddr : BitVec 32
  m_cycleCounter : BitVec 64

/-- What a step is given: the instruction, the cycles of the core, whether every other observer
goes on and whether an execution breakpoint is hit. -/
structure Step where
  addr : BitVec 32
  isBrk : Bool
  cycles : BitVec 64
  others : Bool
  breakpoint : Bool

/-- Whether the instruction is executed, and the handlers that were called. -/
structure Outcome where
  cont : Bool
  called : List String
  context : DebugContext

namespace DebugContext

def new : DebugContext where
  m_luaEventRegistry := ⟨[]⟩
  m_paused := false
  m_pauseOnBrk := true
  m_lastPausedAddr := ~~~0
  m_resumeSkipAddr := ~~~0
  m_cycleCounter := 0

def resume (d : DebugContext) : DebugContext :=
  { d with m_resumeSkipAddr := d.m_lastPausedAddr, m_paused := false }

def pauseAt (d : DebugContext) (addr : BitVec 32) : DebugContext :=
  { d with m_lastPausedAddr := addr, m_paused := true }

def executeLuaCycleEvents (d : DebugContext) (currentCycle : BitVec 64) : List String × DebugContext :=
  let (handlers, registry) := d.m_luaEventRegistry.getReadyCycleHandlers currentCycle
  (handlers, { d with m_luaEventRegistry := registry })

def onStep (d : DebugContext) (entry : Step) : Outcome :=
  let cont := entry.others
  let d := { d with m_cycleCounter := d.m_cycleCounter + entry.cycles }
  -- on resume, the breakpoint at the address just paused on is passed
  if entry.addr = d.m_resumeSkipAddr then ⟨true, [], { d with m_resumeSkipAddr := ~~~0 }⟩
  else
    let (cont, d) := if entry.breakpoint then (false, d.pauseAt entry.addr) else (cont, d)
    let (cont, d) := if d.m_pauseOnBrk && entry.isBrk then (false, d.pauseAt entry.addr) else (cont, d)
    let (called, d) := if d.m_luaEventRegistry.cycleEventCount > 0
      then d.executeLuaCycleEvents d.m_cycleCounter else ([], d)
    ⟨cont, called, d⟩

end DebugContext

end Mmemu.Source.LuaEvents
