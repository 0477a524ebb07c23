import Mmemu.Source.Debugger
import Mmemu.Source.Cpu6502Frame

/-!
# A step under the debugger

What reads and writes of an instruction do to the world of the debugger, and the parts of
a step: the observer is asked with the registers and memory from before the instruction,
and what the instruction writes afterwards is logged in the newest trace entry.
-/
namespace Mmemu.Source.Debugger
open Mmemu.Source.MemoryBus
open Mmemu.Source.Cpu6502
open Mmemu.Library.StateFrame
open Mmemu.Library.UndoLog

/-- A breakpoint but for its hit count. -/
def Breakpoint.fresh (b : Breakpoint) : Breakpoint := { b with hitCount := 0 }

/-- The settings that no memory access changes. -/
structure SameSettings (d d' : DebugContext) : Prop where
  breakpoints : d'.breakpoints.map Breakpoint.fresh = d.breakpoints.map Breakpoint.fresh
  stackTrace : d'.stackTrace = d.stackTrace
  pauseOnBrk : d'.pauseOnBrk = d.pauseOnBrk
  lastPausedAddr : d'.lastPausedAddr = d.lastPausedAddr
  resumeSkipAddr : d'.resumeSkipAddr = d.resumeSkipAddr

theorem SameSettings.refl (d : DebugContext) : SameSettings d d := ⟨rfl, rfl, rfl, rfl, rfl⟩

theorem SameSettings.trans {d d' d'' : DebugContext} (h : SameSettings d d')
    (h' : SameSettings d' d'') : SameSettings d d'' :=
  ⟨h'.breakpoints.trans h.breakpoints, h'.stackTrace.trans h.stackTrace,
    h'.pauseOnBrk.trans h.pauseOnBrk, h'.lastPausedAddr.trans h.lastPausedAddr,
    h'.resumeSkipAddr.trans h.resumeSkipAddr⟩

/-- Counting a hit changes a hit count only. -/
theorem hit_fresh {found : Breakpoint → Bool} {bps bps' : List Breakpoint}
    (h : hit found bps = some bps') : bps'.map Breakpoint.fresh = bps.map Breakpoint.fresh := by
  induction bps generalizing bps' with
  | nil => cases h
  | cons b rest ih =>
    rw [hit] at h
    split at h
    · cases h
      rfl
    · obtain ⟨rest', found', rfl⟩ := Option.map_eq_some_iff.mp h
      rw [List.map_cons, List.map_cons, ih found']

theorem recordWrite_settings (d : DebugContext) (e : MemoryWrite) :
    SameSettings d (d.recordWrite e) := ⟨rfl, rfl, rfl, rfl, rfl⟩

theorem watch_settings (d : DebugContext) (found : Breakpoint → Bool) :
    SameSettings d (d.watch (hit found d.breakpoints)) := by
  unfold DebugContext.watch
  split
  · next bps h => exact ⟨hit_fresh h, rfl, rfl, rfl, rfl⟩
  · exact .refl d

theorem watch_trace (d : DebugContext) (check : Option (List Breakpoint)) :
    (d.watch check).trace = d.trace := by
  unfold DebugContext.watch
  split <;> rfl

/-! ## Reads -/

/-- What reading leaves of the world. -/
structure ReadOnly (w w' : World) : Prop where
  bus : w'.bus = w.bus
  trace : w'.debug.trace = w.debug.trace
  settings : SameSettings w.debug w'.debug

instance : ReadClosed ReadOnly where
  refl _ := ⟨rfl, rfl, .refl _⟩
  trans _ _ _ h h' := ⟨h'.bus.trans h.bus, h'.trace.trans h.trace, h.settings.trans h'.settings⟩
  read8 _ _ := ⟨rfl, watch_trace _ _, watch_settings _ _⟩

/-! ## Reads and writes -/

/-- Writes logged in the newest trace entry. -/
def extendNewest (log : List MemoryWrite) : List TraceEntry → List TraceEntry
  | [] => []
  | e :: older => { e with memWrites := e.memWrites ++ log } :: older

theorem extendNewest_nil (entries : List TraceEntry) : extendNewest [] entries = entries := by
  cases entries <;> simp [extendNewest]

theorem extendNewest_append (log newer : List MemoryWrite) (entries : List TraceEntry) :
    extendNewest (log ++ newer) entries = extendNewest newer (extendNewest log entries) := by
  cases entries <;> simp [extendNewest]

theorem recent_recordWrite (d : DebugContext) (e : MemoryWrite) :
    (d.recordWrite e).trace.recent = extendNewest [e] d.trace.recent := by
  unfold DebugContext.recordWrite
  cases h : d.trace.recent with
  | nil => exact CircularBuffer.recent_modifyBack_nil _ _ h
  | cons newest older => exact CircularBuffer.recent_modifyBack_cons _ _ h

/-- Every address of the log is one the bus can name. -/
def Masked (mask : BitVec 32) (log : List MemoryWrite) : Prop :=
  ∀ e ∈ log, e.addr &&& mask = e.addr

/-- What reading and writing do to the world: on plain RAM each write is logged. -/
structure Accessed (w w' : World) : Prop where
  settings : SameSettings w.debug w'.debug
  capacity : w'.debug.trace.capacity = w.debug.trace.capacity
  overlays : w'.bus.overlays = w.bus.overlays
  addrMask : w'.bus.addrMask = w.bus.addrMask
  logged : w.bus.overlays = [] → ∃ log, Masked w.bus.addrMask log ∧
    Logs log w.bus.data w'.bus.data ∧
    w'.debug.trace.recent = extendNewest log w.debug.trace.recent

theorem ReadOnly.accessed {w w' : World} (h : ReadOnly w w') : Accessed w w' where
  settings := h.settings
  capacity := by rw [h.trace]
  overlays := by rw [h.bus]
  addrMask := by rw [h.bus]
  logged _ := by
    refine ⟨[], by simp [Masked], ?_, ?_⟩
    · rw [h.bus]
      exact .nil _
    · rw [h.trace, extendNewest_nil]

theorem write8_settings (w : World) (addr : BitVec 32) (val : BitVec 8) :
    SameSettings w.debug (IBus.write8 w addr val).debug := by
  change SameSettings w.debug (DebugContext.watch (w.debug.recordWrite _) (checkWrite _ _))
  exact (recordWrite_settings _ _).trans (watch_settings (w.debug.recordWrite _) _)

theorem write8_capacity (w : World) (addr : BitVec 32) (val : BitVec 8) :
    (IBus.write8 w addr val).debug.trace.capacity = w.debug.trace.capacity := by
  change (DebugContext.watch _ _).trace.capacity = _
  rw [watch_trace]
  exact CircularBuffer.capacity_modifyBack _ _

/-- A write to RAM, with what it leaves in the trace. -/
theorem write8_recent (w : World) (ram : w.bus.overlays = []) (addr : BitVec 32)
    (val : BitVec 8) :
    (IBus.write8 w addr val).debug.trace.recent =
      extendNewest [⟨addr &&& w.bus.addrMask, w.bus.data (addr &&& w.bus.addrMask)⟩]
        w.debug.trace.recent := by
  change (DebugContext.watch _ _).trace.recent = _
  rw [watch_trace, ← FlatMemoryBus.peek8_of_ram _ ram]
  exact recent_recordWrite _ _

theorem write8_accessed (w : World) (addr : BitVec 32) (val : BitVec 8) :
    Accessed w (IBus.write8 w addr val) where
  settings := write8_settings w addr val
  capacity := write8_capacity w addr val
  overlays := FlatMemoryBus.overlays_write8 _ _ _
  addrMask := FlatMemoryBus.addrMask_write8 _ _ _
  logged ram := by
    refine ⟨_, ?_, ?_, write8_recent w ram addr val⟩
    · simp [Masked, BitVec.and_assoc]
    · change Logs _ _ (w.bus.write8 addr val).data
      rw [FlatMemoryBus.data_write8_of_ram _ ram]
      exact .write _ _ _

instance : Closed Accessed where
  refl w := ReadOnly.accessed ⟨rfl, rfl, .refl _⟩
  trans w w' w'' h h' :=
    { settings := h.settings.trans h'.settings
      capacity := h'.capacity.trans h.capacity
      overlays := h'.overlays.trans h.overlays
      addrMask := h'.addrMask.trans h.addrMask
      logged := fun ram => by
        obtain ⟨log, masked, logs, recent⟩ := h.logged ram
        obtain ⟨newer, masked', logs', recent'⟩ := h'.logged (h.overlays.trans ram)
        refine ⟨log ++ newer, ?_, logs.append logs', ?_⟩
        · intro e there
          rcases List.mem_append.mp there with old | new
          · exact masked e old
          · rw [← h.addrMask]
            exact masked' e new
        · rw [recent', recent, extendNewest_append] }
  read8 w addr := ReadOnly.accessed (ReadClosed.read8 w addr)
  write8 := write8_accessed

/-! ## The observer in a step -/

/-- The entry that the observer gets. -/
def entryAt (m : Machine) : DisasmEntry := decodeEntry m.cmos m.bus (m.state.pc.setWidth 32)

/-- What the observer answers to the instruction at PC. -/
def answer (d : DebugContext) (m : Machine) : Bool × DebugContext :=
  d.onStep m.state m.bus.bus (entryAt m)

/-- The answer once the breakpoints are checked. -/
def concluded (m : Machine) (brk : Bool) (checked : Bool × DebugContext) : Bool × DebugContext :=
  let stopped := if brk then (false, checked.2.pauseAt (m.state.pc.setWidth 32)) else checked
  if stopped.1 then (true, stopped.2.trackStack m.state (entryAt m)) else (false, stopped.2)

/-- The answer in the order of the source: the skip, the breakpoints, BRK. -/
theorem answer_eq (d : DebugContext) (m : Machine) :
    answer d m =
      let d := d.traced m.state (entryAt m)
      let checked := d.execCheck m.state m.bus.bus (m.state.pc.setWidth 32)
      if m.state.pc.setWidth 32 = d.resumeSkipAddr then
        (true, { d with resumeSkipAddr := ~~~0 }.trackStack m.state (entryAt m))
      else concluded m (checked.2.pauseOnBrk && (entryAt m).stackOp = .brk) checked := rfl

theorem hit_isSome (found : Breakpoint → Bool) (bps : List Breakpoint) :
    (hit found bps).isSome = bps.any found := by
  induction bps with
  | nil => rfl
  | cons b rest ih =>
    rw [hit, List.any_cons]
    cases found b with
    | true => rfl
    | false => simp [ih]

/-- Hit counts decide nothing. -/
theorem any_fresh {found : Breakpoint → Bool} (blind : ∀ b, found b.fresh = found b)
    {bps bps' : List Breakpoint}
    (same : bps'.map Breakpoint.fresh = bps.map Breakpoint.fresh) :
    bps'.any found = bps.any found := by
  have each (l : List Breakpoint) : l.any found = (l.map Breakpoint.fresh).any found := by
    rw [List.any_map]
    exact congrArg (List.any l) (funext fun b => (blind b).symm)
  rw [each, same, ← each]

/-- The observer lets the instruction at PC pass: the skip is there, or neither a breakpoint nor
BRK stops it. -/
def passes (d : DebugContext) (m : Machine) : Bool :=
  m.state.pc.setWidth 32 = d.resumeSkipAddr ||
    !((d.breakpoints.any fun b => b.enabled && b.type = .exec &&
        b.addr == m.state.pc.setWidth 32 && b.condition m.state m.bus.bus) ||
      (d.pauseOnBrk && (entryAt m).stackOp = .brk))

theorem execCheck_fst (d : DebugContext) (cpu : CPU6502State) (bus : FlatMemoryBus)
    (addr : BitVec 32) :
    (d.execCheck cpu bus addr).1 = !(d.breakpoints.any fun b =>
      b.enabled && b.type = .exec && b.addr == addr && b.condition cpu bus) := by
  rw [← hit_isSome]
  unfold DebugContext.execCheck checkExec
  cases hit _ d.breakpoints <;> rfl

theorem execCheck_paused (d : DebugContext) (cpu : CPU6502State) (bus : FlatMemoryBus)
    (addr : BitVec 32) (stop : (d.execCheck cpu bus addr).1 = false) :
    (d.execCheck cpu bus addr).2.paused = true := by
  revert stop
  unfold DebugContext.execCheck
  split
  · intro _
    rfl
  · intro stop
    cases stop

theorem execCheck_skip (d : DebugContext) (cpu : CPU6502State) (bus : FlatMemoryBus)
    (addr : BitVec 32) : (d.execCheck cpu bus addr).2.resumeSkipAddr = d.resumeSkipAddr ∧
      (d.execCheck cpu bus addr).2.pauseOnBrk = d.pauseOnBrk := by
  unfold DebugContext.execCheck
  split <;> exact ⟨rfl, rfl⟩

theorem trackStack_skip (d : DebugContext) (cpu : CPU6502State) (entry : DisasmEntry) :
    (d.trackStack cpu entry).resumeSkipAddr = d.resumeSkipAddr := by
  unfold DebugContext.trackStack
  split
  · rfl
  · split
    · rfl
    · split <;> rfl

theorem concluded_spec (m : Machine) (brk : Bool) (checked : Bool × DebugContext)
    (paused : checked.1 = false → checked.2.paused = true) :
    (concluded m brk checked).1 = (checked.1 && !brk) ∧
      (concluded m brk checked).2.resumeSkipAddr = checked.2.resumeSkipAddr ∧
      ((concluded m brk checked).1 = false → (concluded m brk checked).2.paused = true) := by
  obtain ⟨cont, d⟩ := checked
  cases brk with
  | true => exact ⟨(Bool.and_false cont).symm, rfl, fun _ => rfl⟩
  | false =>
    cases cont with
    | true => exact ⟨rfl, trackStack_skip _ _ _, fun stop => by cases stop⟩
    | false => exact ⟨rfl, rfl, fun _ => paused rfl⟩

theorem answer_skipping {d : DebugContext} {m : Machine}
    (skip : m.state.pc.setWidth 32 = d.resumeSkipAddr) :
    (answer d m).1 = true ∧ (answer d m).2.resumeSkipAddr = ~~~0 := by
  have here : m.state.pc.setWidth 32 = (d.traced m.state (entryAt m)).resumeSkipAddr := skip
  simp only [answer_eq, if_pos here]
  exact ⟨trivial, trackStack_skip _ _ _⟩

/-- Without the skip the observer stops the instruction for a breakpoint or for BRK, and then
the debugger is paused. -/
theorem answer_checked {d : DebugContext} {m : Machine}
    (unskipped : m.state.pc.setWidth 32 ≠ d.resumeSkipAddr) :
    (answer d m).1 = passes d m ∧ (answer d m).2.resumeSkipAddr = d.resumeSkipAddr ∧
      ((answer d m).1 = false → (answer d m).2.paused = true) := by
  have here : m.state.pc.setWidth 32 ≠ (d.traced m.state (entryAt m)).resumeSkipAddr := unskipped
  have found := execCheck_fst (d.traced m.state (entryAt m)) m.state m.bus.bus
    (m.state.pc.setWidth 32)
  obtain ⟨skip, brk⟩ := execCheck_skip (d.traced m.state (entryAt m)) m.state m.bus.bus
    (m.state.pc.setWidth 32)
  obtain ⟨cont, skip', paused⟩ := concluded_spec m (d.pauseOnBrk && (entryAt m).stackOp = .brk)
    _ (execCheck_paused (d.traced m.state (entryAt m)) m.state m.bus.bus
      (m.state.pc.setWidth 32))
  have brk' : ((d.traced m.state (entryAt m)).execCheck m.state m.bus.bus
      (m.state.pc.setWidth 32)).2.pauseOnBrk = d.pauseOnBrk := brk
  simp only [answer_eq, if_neg here, brk']
  refine ⟨?_, skip'.trans skip, paused⟩
  rw [cont, found, passes, decide_eq_false unskipped, Bool.false_or, Bool.not_or]
  rfl

theorem passes_settings {d d' : DebugContext} (same : SameSettings d d') (m : Machine) :
    passes d' m = passes d m := by
  unfold passes
  rw [same.resumeSkipAddr, same.pauseOnBrk, any_fresh (fun _ => rfl) same.breakpoints]

theorem answer_passes (d : DebugContext) (m : Machine) : (answer d m).1 = passes d m := by
  by_cases skip : m.state.pc.setWidth 32 = d.resumeSkipAddr
  · rw [(answer_skipping skip).1, passes, decide_eq_true skip, Bool.true_or]
  · exact (answer_checked skip).1

theorem observe_eq (pc : BitVec 16) (c : Machine) :
    observe wiring pc c =
      let (cont, debug) := c.bus.debug.onStep { c.state with pc := pc } c.bus.bus
        (decodeEntry c.cmos c.bus (pc.setWidth 32))
      (cont, { c with
        bus := ⟨c.bus.bus, debug⟩
        state := { c.state with pc := if cont then c.state.pc else pc } }) := rfl

/-- The frame of the part of a step that the observer is asked in: `d` is the debug context
once the instruction has been fetched, `m'` the machine after the step. -/
structure Executed (m : Machine) (d : DebugContext) (m' : Machine) : Prop where
  settings : SameSettings m.bus.debug d
  trace : d.trace = m.bus.debug.trace
  cmos : m'.cmos = m.cmos
  stop : (answer d m).1 = false → m'.state = m.state ∧ m'.bus = ⟨m.bus.bus, (answer d m).2⟩
  run : (answer d m).1 = true → Kept m.state m'.state ∧ Accessed ⟨m.bus.bus, (answer d m).2⟩ m'.bus

theorem decode_readOnly (m : Machine) : Framed PcOnly ReadOnly m (decode m).core := decode_frame m

/-- The observer is asked with the registers and the memory from before the instruction. -/
theorem observe_decoded (m : Machine) :
    observe wiring m.state.pc (decode m).core =
      let asked := answer (decode m).core.bus.debug m
      (asked.1, { (decode m).core with
        bus := ⟨m.bus.bus, asked.2⟩
        state := { (decode m).core.state with
          pc := if asked.1 then (decode m).core.state.pc else m.state.pc } }) := by
  have frame := decode_readOnly m
  generalize (decode m).core = c at frame
  obtain ⟨regs, cmos, bus⟩ := frame
  have same : decodeEntry c.cmos c.bus (m.state.pc.setWidth 32) = entryAt m := by
    have world : c.bus = ⟨m.bus.bus, c.bus.debug⟩ := by rw [← bus.bus]
    rw [cmos, world]
    rfl
  have state : { c.state with pc := m.state.pc } = m.state := by rw [regs]
  have asked := observe_eq m.state.pc c
  rw [same, state, bus.bus] at asked
  exact asked

/-- An instruction's step: the observer is asked with the state before the instruction, and
either stops it or lets it run on the world it answered with. -/
theorem execute_spec (m : Machine) : ∃ d, Executed m d (execute wiring m).2 := by
  have frame := decode_readOnly m
  have performed (c : Machine) : Framed Kept Accessed c (perform wiring (decode m) c).2 :=
    perform_keeps wiring (by simp [wiring]) (decode m) c
  rw [execute_eq, observe_decoded]
  generalize (decode m).core = c at frame
  obtain ⟨regs, cmos, bus⟩ := frame
  have state : { c.state with pc := m.state.pc } = m.state := by rw [regs]
  refine ⟨c.bus.debug, bus.settings, bus.trace, ?_, ?_, ?_⟩
  · dsimp only
    split
    · exact (performed _).cmos.trans cmos
    · exact cmos
  · intro stop
    simp only [stop, Bool.false_eq_true, if_false]
    exact ⟨state, trivial⟩
  · intro run
    simp only [run, if_true]
    have after := performed { c with
      bus := ⟨m.bus.bus, (answer c.bus.debug m).2⟩, state := { c.state with pc := c.state.pc } }
    exact ⟨regs.legal.kept.trans after.regs, after.bus⟩

/-- The core executes the instruction if the observer lets it. -/
theorem instructed_isSome (m : Machine) :
    (instructed wiring m).isSome = (answer (decode m).core.bus.debug m).1 := by
  change (if (observe wiring m.state.pc (decode m).core).1 then some _ else none).isSome = _
  rw [observe_decoded]
  dsimp only
  split
  next cont => exact cont.symm
  next stop => simpa using stop

theorem stepped_executes {m : Machine} (executes : m.state.executes = true) :
    ∃ d, Executed m.sampled d (stepped m) := by
  obtain ⟨d, h⟩ := execute_spec m.sampled
  refine ⟨d, ?_⟩
  rw [stepped, step_execute wiring rfl executes]
  exact h

/-- Whether the step executes its instruction; reading the opcode decides nothing. -/
theorem instruction_isSome {m : Machine} (executes : m.state.executes = true) {d : DebugContext}
    (same : SameSettings m.bus.debug d) :
    (instruction wiring m).isSome = (answer d m.sampled).1 := by
  have settings : SameSettings m.bus.debug (decode m.sampled).core.bus.debug :=
    (decode_readOnly m.sampled).bus.settings
  rw [instruction, if_pos executes]
  change (instructed wiring m.sampled).isSome = _
  rw [instructed_isSome, answer_passes, answer_passes, passes_settings settings,
    passes_settings same]

end Mmemu.Source.Debugger
