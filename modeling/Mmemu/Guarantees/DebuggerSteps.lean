import Mmemu.Library.Stepping
import Mmemu.Source.Cpu45gs02Frame
import Mmemu.Source.Cpu6502Frame
import Mmemu.Source.CpuZ80Step
import Mmemu.Source.DebuggerFrame

/-!
# Reverse stepping

The undo of an instruction is made through the observed bus, so its writes are recorded in
the trace entry of the instruction before it and come back with the next reverse step. The
registers are always restored; of the memory, every other instruction is undone.
-/
namespace Mmemu.Guarantees.ReverseStep
open Mmemu.Source
open Mmemu.Source.MemoryBus
open Mmemu.Source.Cpu6502
open Mmemu.Source.Debugger
open Mmemu.Library.UndoLog

def unstepped (m : Machine) : Machine := (reverseStep m).2

/-- The addresses that the newest traced instruction wrote. -/
def written (m : Machine) : List (BitVec 32) :=
  (m.bus.debug.trace.recent.head?.elim [] TraceEntry.memWrites).map Entry.addr

/-- The registers a program works with. -/
def registers (s : CPU6502State) :
    BitVec 8 × BitVec 8 × BitVec 8 × BitVec 8 × BitVec 8 × BitVec 16 :=
  (s.a, s.x, s.y, s.sp, s.p, s.pc)

/-- The byte of RAM at an address. -/
def byte (m : Machine) (addr : BitVec 32) : BitVec 8 := m.bus.bus.peek8 addr

/-- `n` reverse steps after `n` steps give registers and RAM from before them. -/
def Reversed (m : Machine) (n : ℕ) : Prop :=
  registers (unstepped^[n] (stepped^[n] m)).state = registers m.state ∧
    ∀ addr, byte (unstepped^[n] (stepped^[n] m)) addr = byte m addr

/-- Counting the instructions of the run from zero: the first even one that writes an address
finds there the byte from before the run, and an address that no even one writes has that
byte after the run. -/
def EvenWritesRestore (m : Machine) (n : ℕ) : Prop :=
  ∀ addr,
    (∀ i < n, i % 2 = 0 → addr &&& m.bus.bus.addrMask ∈ written (stepped^[i + 1] m) →
      (∀ j < i, j % 2 = 0 → addr &&& m.bus.bus.addrMask ∉ written (stepped^[j + 1] m)) →
      byte (stepped^[i] m) addr = byte m addr) ∧
    ((∀ i < n, i % 2 = 0 → addr &&& m.bus.bus.addrMask ∉ written (stepped^[i + 1] m)) →
      byte (stepped^[n] m) addr = byte m addr)

/-! ## The run -/

theorem trackStack_trace (d : DebugContext) (cpu : CPU6502State) (entry : DisasmEntry) :
    (d.trackStack cpu entry).trace = d.trace := by
  unfold DebugContext.trackStack
  split
  · rfl
  · split
    · rfl
    · split <;> rfl

theorem execCheck_trace (d : DebugContext) (cpu : CPU6502State) (bus : FlatMemoryBus)
    (addr : BitVec 32) : (d.execCheck cpu bus addr).2.trace = d.trace := by
  unfold DebugContext.execCheck
  split <;> rfl

/-- Whatever the observer answers, the instruction is traced. -/
theorem onStep_trace (d : DebugContext) (cpu : CPU6502State) (bus : FlatMemoryBus)
    (entry : DisasmEntry) :
    (d.onStep cpu bus entry).2.trace = d.trace.push (DebugContext.captured cpu entry) := by
  have checked := execCheck_trace (d.traced cpu entry) cpu bus entry.addr
  unfold DebugContext.onStep
  dsimp only
  split
  · exact trackStack_trace _ _ _
  · split
    · exact checked
    · split
      · exact (trackStack_trace _ _ _).trans checked
      · exact checked

/-- What one traced instruction leaves: its entry in front, with its writes logged. -/
structure Traced (m m' : Machine) (e : TraceEntry) : Prop where
  addr : e.addr = m.state.pc.setWidth 32
  cpuState : e.cpuState = m.state.sampled
  masked : Masked m.bus.bus.addrMask e.memWrites
  logs : Logs e.memWrites m.bus.bus.data m'.bus.bus.data
  recent : m'.bus.debug.trace.recent =
    e :: m.bus.debug.trace.recent.take (m.bus.debug.trace.capacity - 1)
  capacity : m'.bus.debug.trace.capacity = m.bus.debug.trace.capacity
  overlays : m'.bus.bus.overlays = m.bus.bus.overlays
  addrMask : m'.bus.bus.addrMask = m.bus.bus.addrMask

theorem stepped_traced (m : Machine) (ram : m.bus.bus.overlays = [])
    (room : 0 < m.bus.debug.trace.capacity) (executes : m.state.executes = true) :
    ∃ e, Traced m (stepped m) e := by
  obtain ⟨d, h⟩ := execute_spec m.sampled
  have after : stepped m = (execute wiring m.sampled).2 := by
    unfold stepped
    rw [step_execute wiring rfl executes]
  rw [← after] at h
  have pushed : (answer d m.sampled).2.trace = m.bus.debug.trace.push
      (DebugContext.captured m.state.sampled (entryAt m.sampled)) := by
    rw [answer, onStep_trace, h.trace]
    rfl
  have capacity : (answer d m.sampled).2.trace.capacity = m.bus.debug.trace.capacity := by
    rw [pushed]
    rfl
  have recent := CircularBuffer.recent_push m.bus.debug.trace room
    (DebugContext.captured m.state.sampled (entryAt m.sampled))
  rw [← pushed] at recent
  cases ran : (answer d m.sampled).1 with
  | false =>
    obtain ⟨-, bus⟩ := h.stop ran
    refine ⟨DebugContext.captured m.state.sampled (entryAt m.sampled), rfl, rfl, ?_, ?_, ?_, ?_,
      ?_, ?_⟩
    · simp [Masked, DebugContext.captured]
    · rw [bus]
      exact .nil _
    · rw [bus]
      exact recent
    · rw [bus]
      exact capacity
    · rw [bus]
      rfl
    · rw [bus]
      rfl
  | true =>
    obtain ⟨-, accessed⟩ := h.run ran
    obtain ⟨log, masked, logs, logged⟩ := accessed.logged ram
    refine ⟨{ DebugContext.captured m.state.sampled (entryAt m.sampled) with memWrites := log },
      rfl, rfl, masked, logs, ?_, ?_, accessed.overlays, accessed.addrMask⟩
    · rw [logged]
      change extendNewest log (answer d m.sampled).2.trace.recent = _
      rw [recent]
      rfl
    · exact accessed.capacity.trans capacity

/-- A run of `n` traced instructions, its entries the oldest first. -/
structure TracedRun (m : Machine) (n : ℕ) (entries : List TraceEntry) : Prop where
  length : entries.length = n
  each : ∀ i (h : i < entries.length), Traced (stepped^[i] m) (stepped^[i + 1] m) entries[i]
  recent : ∃ older, (stepped^[n] m).bus.debug.trace.recent = entries.reverse ++ older
  capacity : (stepped^[n] m).bus.debug.trace.capacity = m.bus.debug.trace.capacity
  overlays : ∀ k ≤ n, (stepped^[k] m).bus.bus.overlays = []
  addrMask : ∀ k ≤ n, (stepped^[k] m).bus.bus.addrMask = m.bus.bus.addrMask

theorem run_traced (m : Machine) (ram : m.bus.bus.overlays = []) (n : ℕ)
    (fits : n ≤ m.bus.debug.trace.capacity)
    (executes : ∀ k < n, (stepped^[k] m).state.executes = true) :
    ∃ entries, TracedRun m n entries := by
  induction n with
  | zero =>
    refine ⟨[], rfl, by simp, ⟨_, rfl⟩, rfl, ?_, ?_⟩
    · intro k hk
      obtain rfl : k = 0 := by omega
      exact ram
    · intro k hk
      obtain rfl : k = 0 := by omega
      rfl
  | succ n ih =>
    obtain ⟨entries, run⟩ := ih (by omega) fun k hk => executes k (by omega)
    have room : 0 < (stepped^[n] m).bus.debug.trace.capacity := by
      rw [run.capacity]
      omega
    have ram' := run.overlays n (Nat.le_refl n)
    obtain ⟨e, traced⟩ := stepped_traced (stepped^[n] m) ram' room (executes n (by omega))
    rw [← Function.iterate_succ_apply' stepped n m] at traced
    obtain ⟨older, recent⟩ := run.recent
    refine ⟨entries ++ [e], ?_, ?_, ?_, ?_, ?_, ?_⟩
    · simp [run.length]
    · intro i hi
      rcases Nat.lt_or_ge i entries.length with old | new
      · rw [List.getElem_append_left old]
        exact run.each i old
      · obtain rfl : i = n := by
          have := run.length
          simp at hi
          omega
        rw [List.getElem_append_right new]
        simpa [run.length] using traced
    · refine ⟨older.take (m.bus.debug.trace.capacity - 1 - n), ?_⟩
      have kept : entries.reverse.take (m.bus.debug.trace.capacity - 1) = entries.reverse :=
        List.take_of_length_le (by rw [List.length_reverse, run.length]; omega)
      rw [traced.recent, recent, run.capacity, List.take_append, kept, List.length_reverse,
        run.length, List.reverse_append]
      rfl
    · exact traced.capacity.trans run.capacity
    · intro k hk
      rcases Nat.lt_or_ge n k with last | before
      · obtain rfl : k = n + 1 := by omega
        exact traced.overlays.trans ram'
      · exact run.overlays k before
    · intro k hk
      rcases Nat.lt_or_ge n k with last | before
      · obtain rfl : k = n + 1 := by omega
        exact traced.addrMask.trans (run.addrMask n (Nat.le_refl n))
      · exact run.addrMask k before

/-! ## The way back -/

/-- A trace entry's log as the bus sees it. -/
def busLog (mask : BitVec 32) (log : List MemoryWrite) : List MemoryWrite :=
  log.map fun e => ⟨e.addr &&& mask, e.before⟩

theorem busLog_of_masked {mask : BitVec 32} {log : List MemoryWrite} (h : Masked mask log) :
    busLog mask log = log := by
  unfold busLog
  conv_rhs => rw [← List.map_id log]
  refine List.map_congr_left fun e there => ?_
  rw [h e there]
  rfl

theorem record_masked (mask : BitVec 32) (log : List MemoryWrite) (data : BitVec 32 → BitVec 8) :
    Masked mask (record (busLog mask log) data) := by
  induction log generalizing data with
  | nil => simp [Masked, busLog, record]
  | cons e rest ih =>
    intro e' there
    rcases List.mem_cons.mp there with rfl | there
    · simp [BitVec.and_assoc]
    · exact ih _ e' there

/-- Writing a list of bytes through the observed bus. -/
theorem foldl_write8 (writes : List MemoryWrite) (w : World) (ram : w.bus.overlays = []) :
    let w' := writes.foldl (fun w e => IBus.write8 w e.addr e.before) w
    w'.bus.data = (busLog w.bus.addrMask writes).foldl
        (fun m e => Function.update m e.addr e.before) w.bus.data ∧
      w'.debug.trace.recent = extendNewest (record (busLog w.bus.addrMask writes) w.bus.data)
        w.debug.trace.recent ∧
      w'.bus.addrMask = w.bus.addrMask ∧ w'.bus.overlays = [] := by
  induction writes generalizing w with
  | nil => exact ⟨rfl, (extendNewest_nil _).symm, rfl, ram⟩
  | cons e rest ih =>
    have mask : (IBus.write8 w e.addr e.before).bus.addrMask = w.bus.addrMask :=
      FlatMemoryBus.addrMask_write8 _ _ _
    have data : (IBus.write8 w e.addr e.before).bus.data =
        Function.update w.bus.data (e.addr &&& w.bus.addrMask) e.before :=
      FlatMemoryBus.data_write8_of_ram _ ram _ _
    obtain ⟨data', recent, mask', ram'⟩ := ih (IBus.write8 w e.addr e.before)
      ((FlatMemoryBus.overlays_write8 _ _ _).trans ram)
    rw [mask, data] at data' recent
    refine ⟨data', ?_, mask'.trans mask, ram'⟩
    rw [List.foldl_cons, recent, write8_recent w ram, ← extendNewest_append]
    rfl

/-- The machine's memory and logs as the undo library has them. -/
def logsOf (m : Machine) : (BitVec 32 → BitVec 8) × List (List MemoryWrite) :=
  (m.bus.bus.data, m.bus.debug.trace.recent.map fun e => busLog m.bus.bus.addrMask e.memWrites)

theorem map_extendNewest (mask : BitVec 32) (log : List MemoryWrite) (entries : List TraceEntry)
    (masked : Masked mask log) :
    (extendNewest log entries).map (fun e => busLog mask e.memWrites) =
      extendTop log (entries.map fun e => busLog mask e.memWrites) := by
  cases entries with
  | nil => rfl
  | cons e older =>
    have appended : busLog mask (e.memWrites ++ log) = busLog mask e.memWrites ++ log := by
      conv_rhs => rw [← busLog_of_masked masked]
      exact List.map_append
    simp only [extendNewest, extendTop, List.map_cons, appended]

/-- What a reverse step leaves of the trace but for the writes recorded by the undo. -/
def snapshots (m : Machine) : List (BitVec 32 × CPU6502State) :=
  m.bus.debug.trace.recent.map fun e => (e.addr, e.cpuState)

theorem unstepped_nil (m : Machine) (empty : m.bus.debug.trace.recent = []) : unstepped m = m := by
  rw [unstepped, reverseStep, CircularBuffer.popBack_none _ empty]

theorem unstepped_cons (m : Machine) (ram : m.bus.bus.overlays = []) {e : TraceEntry}
    {older : List TraceEntry} (h : m.bus.debug.trace.recent = e :: older) :
    logsOf (unstepped m) = stepBack (logsOf m) ∧
      snapshots (unstepped m) = (snapshots m).tail ∧
      (unstepped m).bus.bus.addrMask = m.bus.bus.addrMask ∧
      (unstepped m).bus.bus.overlays = [] ∧
      (unstepped m).state = restoreRegs e m.state := by
  obtain ⟨trace, popped, recent, -⟩ := CircularBuffer.popBack_some m.bus.debug.trace h
  have result : unstepped m = { m with
      bus := undoWrites e.memWrites { m.bus with debug := { m.bus.debug with trace := trace } }
      state := restoreRegs e m.state } := by
    rw [unstepped, reverseStep, popped]
  have undone := foldl_write8 e.memWrites.reverse
    { m.bus with debug := { m.bus.debug with trace := trace } } ram
  obtain ⟨data, recent', mask, ram'⟩ := undone
  have reversed : busLog m.bus.bus.addrMask e.memWrites.reverse =
      (busLog m.bus.bus.addrMask e.memWrites).reverse := List.map_reverse
  dsimp only at data recent' mask ram'
  rw [reversed] at data recent'
  rw [← undo_reverse, List.reverse_reverse] at data
  rw [recent] at recent'
  refine ⟨?_, ?_, ?_, ?_, ?_⟩
  · have masked := record_masked m.bus.bus.addrMask e.memWrites.reverse m.bus.bus.data
    rw [reversed] at masked
    rw [result]
    simp only [logsOf, undoWrites, mask, data, recent', h, List.map_cons, stepBack]
    rw [map_extendNewest _ _ _ masked]
  · rw [result]
    simp only [snapshots, undoWrites, recent', h]
    cases older <;> rfl
  · rw [result]
    exact mask
  · rw [result]
    exact ram'
  · rw [result]

/-- Reverse steps undo the logs of the trace, newest first, as a stack of logs whose undo is
itself recorded. -/
theorem logsOf_unstepped (m : Machine) (ram : m.bus.bus.overlays = []) (k : ℕ) :
    logsOf (unstepped^[k] m) = stepBack^[k] (logsOf m) ∧
      snapshots (unstepped^[k] m) = (snapshots m).drop k ∧
      (unstepped^[k] m).bus.bus.addrMask = m.bus.bus.addrMask ∧
      (unstepped^[k] m).bus.bus.overlays = [] := by
  induction k with
  | zero => exact ⟨rfl, rfl, rfl, ram⟩
  | succ k ih =>
    obtain ⟨logs, snaps, mask, ram'⟩ := ih
    simp only [Function.iterate_succ_apply', ← logs]
    cases h : (unstepped^[k] m).bus.debug.trace.recent with
    | nil =>
      rw [unstepped_nil _ h]
      refine ⟨?_, ?_, mask, ram'⟩
      · simp [logsOf, h, stepBack]
      · rw [← List.drop_drop, ← snaps]
        simp [snapshots, h]
    | cons e older =>
      obtain ⟨back, tail, mask', ram'', -⟩ := unstepped_cons _ ram' h
      refine ⟨back, ?_, mask'.trans mask, ram''⟩
      rw [tail, snaps, List.tail_drop]

@[simp] theorem registers_restoreRegs (e : TraceEntry) (s : CPU6502State) :
    registers (restoreRegs e s) = registers { e.cpuState with pc := e.addr.setWidth 16 } := by
  simp [registers, restoreRegs, materialized, regWrite, regRead]

/-- The registers after a number of reverse steps are those of the last entry popped. -/
theorem registers_unstepped (m : Machine) (ram : m.bus.bus.overlays = []) (k : ℕ)
    {addr : BitVec 32} {cpu : CPU6502State} (there : (snapshots m)[k]? = some (addr, cpu)) :
    registers (unstepped^[k + 1] m).state = registers { cpu with pc := addr.setWidth 16 } := by
  obtain ⟨-, snaps, -, ram'⟩ := logsOf_unstepped m ram k
  rw [Function.iterate_succ_apply']
  have first : (snapshots (unstepped^[k] m)).head? = some (addr, cpu) := by
    rw [snaps, List.head?_drop, there]
  cases h : (unstepped^[k] m).bus.debug.trace.recent with
  | nil => simp [snapshots, h] at first
  | cons e older =>
    simp only [snapshots, h, List.map_cons, List.head?_cons, Option.some.injEq,
      Prod.mk.injEq] at first
    obtain ⟨-, -, -, -, state⟩ := unstepped_cons _ ram' h
    rw [state, registers_restoreRegs, first.1, first.2]

/-! ## Exactness -/

theorem byte_of_ram (m : Machine) (ram : m.bus.bus.overlays = []) (addr : BitVec 32) :
    byte m addr = m.bus.bus.data (addr &&& m.bus.bus.addrMask) :=
  FlatMemoryBus.peek8_of_ram _ ram _

theorem TracedRun.written {m : Machine} {n : ℕ} {entries : List TraceEntry}
    (run : TracedRun m n entries) (i : ℕ) (h : i < entries.length) :
    written (stepped^[i + 1] m) = entries[i].memWrites.map Entry.addr := by
  rw [ReverseStep.written, (run.each i h).recent]
  rfl

theorem TracedRun.logs {m : Machine} {n : ℕ} {entries : List TraceEntry}
    (run : TracedRun m n entries) :
    ∃ older, (logsOf (stepped^[n] m)).2 =
      (entries.map TraceEntry.memWrites).reverse ++ older := by
  obtain ⟨older, recent⟩ := run.recent
  refine ⟨older.map fun e => busLog (stepped^[n] m).bus.bus.addrMask e.memWrites, ?_⟩
  rw [logsOf, recent, List.map_append, List.map_reverse]
  dsimp only
  congr 2
  refine List.map_congr_left fun e there => ?_
  obtain ⟨i, h, rfl⟩ := List.mem_iff_getElem.mp there
  have masked := (run.each i h).masked
  rw [run.addrMask i (by have := run.length; omega)] at masked
  rw [run.addrMask n (Nat.le_refl n)]
  exact busLog_of_masked masked

/-- The memory that `n` reverse steps after `n` traced instructions reach. -/
theorem data_reversed {m : Machine} {n : ℕ} {entries : List TraceEntry}
    (run : TracedRun m n entries) :
    (unstepped^[n] (stepped^[n] m)).bus.bus.data =
      undoAlternate (entries.map TraceEntry.memWrites) (stepped^[n] m).bus.bus.data := by
  obtain ⟨older, logs⟩ := run.logs
  obtain ⟨redo, -, back⟩ := stepBack_iterate (entries.map TraceEntry.memWrites) older
    (stepped^[n] m).bus.bus.data
  rw [List.length_map, run.length, ← logs] at back
  exact congrArg Prod.fst ((logsOf_unstepped _ (run.overlays n (Nat.le_refl n)) n).1.trans back)

theorem registers_reversed {m : Machine} {n : ℕ} {entries : List TraceEntry}
    (run : TracedRun m n entries) :
    registers (unstepped^[n] (stepped^[n] m)).state = registers m.state := by
  obtain ⟨older, recent⟩ := run.recent
  cases n with
  | zero => rfl
  | succ k =>
    have length := run.length
    have first := run.each 0 (by omega)
    have there : (snapshots (stepped^[k + 1] m))[k]? =
        some (entries[0].addr, entries[0].cpuState) := by
      rw [snapshots, recent, List.getElem?_map, List.getElem?_append_left (by simp; omega),
        List.getElem?_reverse (by omega)]
      have index : entries.length - 1 - k = 0 := by omega
      simp only [index]
      rw [List.getElem?_eq_getElem (by omega)]
      rfl
    rw [registers_unstepped _ (run.overlays _ (Nat.le_refl _)) k there, first.addr, first.cpuState]
    simp [registers, CPU6502State.sampled]

/-- Reverse stepping is exact precisely if every other instruction's writes suffice to restore
the memory; the registers always come back. -/
theorem reversed_iff (m : Machine) (n : ℕ) (ram : m.bus.bus.overlays = [])
    (fits : n ≤ m.bus.debug.trace.capacity)
    (executes : ∀ k < n, (stepped^[k] m).state.executes = true) :
    Reversed m n ↔ EvenWritesRestore m n := by
  obtain ⟨entries, run⟩ := run_traced m ram n fits executes
  have length := run.length
  have ran := run.overlays n (Nat.le_refl n)
  obtain ⟨-, -, mask, ram'⟩ := logsOf_unstepped (stepped^[n] m) ran n
  have restored := undoAlternate_eq_iff (entries.map TraceEntry.memWrites)
    (fun i => (stepped^[i] m).bus.bus.data) (stepped^[n] m).bus.bus.data (by simp [length])
    (fun i h => by simpa using (run.each i (by simpa using h)).logs)
  rw [Reversed, EvenWritesRestore, and_iff_right (registers_reversed run)]
  refine forall_congr' fun addr => ?_
  rw [byte_of_ram _ ram', byte_of_ram _ ram, mask, run.addrMask n (Nat.le_refl n),
    data_reversed run, restored]
  simp only [List.length_map, List.getElem_map, length]
  refine and_congr ?_ ?_
  · refine forall_congr' fun i => forall_congr' fun h => forall_congr' fun _ => ?_
    rw [run.written i (by omega), byte_of_ram _ (run.overlays i (by omega)),
      run.addrMask i (by omega)]
    refine imp_congr_right fun _ => imp_congr_left ?_
    refine forall_congr' fun j => forall_congr' fun h' => imp_congr_right fun _ => ?_
    rw [run.written j (by omega)]
  · rw [byte_of_ram _ ran, run.addrMask n (Nat.le_refl n)]
    refine imp_congr_left ?_
    refine forall_congr' fun i => forall_congr' fun h => imp_congr_right fun _ => ?_
    rw [run.written i (by omega)]

/-- `STA $10` and `STA $11` at $0200 with A = 1, on RAM that is zero elsewhere. -/
def twoStores : Machine where
  state := { (default : CPU6502State) with a := 1, sp := 0xFD, p := 0x24, pc := 0x0200 }
  bus :=
    { bus := { FlatMemoryBus.new 16 with
        data := fun addr => match addr.toNat with
          | 0x200 | 0x202 => 0x85
          | 0x201 => 0x10
          | 0x203 => 0x11
          | _ => 0 }
      debug := .new }
  cmos := false
  curOp := 0
  branchTarget := 0

theorem twoStores_executes : ∀ k < 2, (stepped^[k] twoStores).state.executes = true := by
  decide

theorem reversed_iff_twoStores : Reversed twoStores 2 ↔ EvenWritesRestore twoStores 2 :=
  reversed_iff twoStores 2 rfl (by decide) twoStores_executes

/-- The second reverse step stores the byte at $11 again. -/
theorem not_reversed_twoStores :
    twoStores.bus.bus.overlays = [] ∧ 2 ≤ twoStores.bus.debug.trace.capacity ∧
      (∀ k < 2, (stepped^[k] twoStores).state.executes = true) ∧ ¬ Reversed twoStores 2 := by
  refine ⟨rfl, by decide, twoStores_executes, fun reversed => ?_⟩
  have stored : byte (unstepped^[2] (stepped^[2] twoStores)) 0x11 = 1#8 := by decide
  have zero : byte twoStores 0x11 = 0#8 := by decide
  have := (stored.symm.trans (reversed.2 0x11)).trans zero
  exact absurd this (by decide)

end Mmemu.Guarantees.ReverseStep

/-!
# Steps that an observer refuses

A refused step of any core returns a cycle that the counter does not show, and so does a halted
step of the 45GS02. What is sampled before the observer is asked stays changed: the NMI line,
the wait for an interrupt and the halt line of the 6502 cores, and EI's delay on the Z80, which
then takes an interrupt that it would have put off.
-/
namespace Mmemu.Guarantees.StoppedSteps
open Mmemu.Source
open Mmemu.Source.MemoryBus
open Mmemu.Library.Stepping
open Mmemu.Library.StateFrame

/-! ## MOS 6502 and WDC 65C02 -/

section MOS6502
open Mmemu.Source.Cpu6502

variable {ω : Type} [IBus ω]

/-- What is attached to the core leaves memory alone where it does not serve a routine, and the
cycle counter always. -/
structure Polite6502 (r : ω → ω → Prop) (w : Wiring ω) : Prop where
  looks : ∀ obs ∈ w.observer, ∀ s entry x, r x (obs.onStep s entry x).2
  counts : ∀ hook ∈ w.pcHook, ∀ c, (hook.fire c).2.state.cycles = c.state.cycles
  declines : ∀ hook ∈ w.pcHook, ∀ c, (hook.fire c).1 = false →
    (hook.fire c).2.state = c.state ∧ r c.bus (hook.fire c).2.bus

/-- An armed intercept that serves the routine at PC. -/
def intercept6502 (w : Wiring ω) (c : MOS6502 ω) : Bool × MOS6502 ω :=
  match w.pcHook with
  | some hook => if hook.armed c.state.pc then hook.fire c else (false, c)
  | none => (false, c)

/-- The observer refuses the instruction of the next step. -/
def Refused6502 (w : Wiring ω) (c : MOS6502 ω) : Prop :=
  c.state.executes = true ∧ (intercept6502 w c.sampled).1 = false ∧
    instructed w (intercept6502 w c.sampled).2 = none

def core6502 (r : ω → ω → Prop) (w : Wiring ω) : Core (MOS6502 ω) CPU6502State where
  steps c n c' := step w c = (n, c')
  functional h h' := Prod.mk.inj (h.symm.trans h')
  refused := Refused6502 w
  regs := MOS6502.state
  cycles c := c.state.cycles
  memory c c' := r c.bus c'.bus

theorem step_executes (w : Wiring ω) {c : MOS6502 ω} (h : c.state.executes = true) :
    step w c =
      if (intercept6502 w c.sampled).1 then addCycles 6 (intercept6502 w c.sampled).2
      else execute w (intercept6502 w c.sampled).2 := by
  cases hooked : w.pcHook with
  | none =>
    have plain : intercept6502 w c.sampled = (false, c.sampled) := by
      simp only [intercept6502, hooked]
    rw [step_execute w hooked h, plain]
    rfl
  | some hook =>
    have armed : intercept6502 w c.sampled =
        if hook.armed c.state.pc then hook.fire c.sampled else (false, c.sampled) := by
      simp only [intercept6502, hooked]
      rfl
    rw [step_hooked w hooked h, armed]
    split <;> rfl

theorem instructed_eq_none {w : Wiring ω} {c : MOS6502 ω} :
    instructed w c = none ↔ (observe w c.state.pc (decode c).core).1 = false := by
  change (if (observe w c.state.pc (decode c).core).1 then
    some (decode c, (observe w c.state.pc (decode c).core).2) else none) = none ↔ _
  simp

theorem execute_refused {w : Wiring ω} {c : MOS6502 ω} (h : instructed w c = none) :
    execute w c = (1, (observe w c.state.pc (decode c).core).2) := by
  rw [execute_eq, if_neg (by simp [instructed_eq_none.mp h])]

variable {r : ω → ω → Prop} {w : Wiring ω}

theorem intercept_cycles (polite : Polite6502 r w) (c : MOS6502 ω) :
    (intercept6502 w c).2.state.cycles = c.state.cycles := by
  unfold intercept6502
  split
  next hook hooked =>
    split
    · exact polite.counts hook hooked c
    · rfl
  · rfl

theorem intercept_declines [IsPreorder ω r] (polite : Polite6502 r w) {c : MOS6502 ω}
    (declined : (intercept6502 w c).1 = false) :
    (intercept6502 w c).2.state = c.state ∧ r c.bus (intercept6502 w c).2.bus := by
  unfold intercept6502 at declined ⊢
  split
  next hook hooked =>
    rw [hooked] at declined
    dsimp only at declined
    split at declined
    next armed => simpa only [if_pos armed] using polite.declines hook hooked c declined
    next unarmed => simpa only [if_neg unarmed] using ⟨trivial, refl c.bus⟩
  · exact ⟨rfl, refl c.bus⟩

theorem observe_attached {obs : ExecutionObserver ω} (attached : w.observer = some obs)
    (pc : BitVec 16) (c : MOS6502 ω) :
    observe w pc c =
      if obs.needsDisasm then
        let out := obs.onStep { c.state with pc := pc }
          (decodeEntry c.cmos c.bus (pc.setWidth 32)) c.bus
        (out.1, { c with
          bus := out.2, state := { c.state with pc := if out.1 then c.state.pc else pc } })
      else (true, { c with bus := obs.onStepLite c.state (pc.setWidth 32) c.bus }) := by
  simp only [observe, attached]
  split <;> rfl

/-- An observer that refuses sees PC at the instruction, and leaves it there. -/
theorem observe_refuses [IsPreorder ω r] (polite : Polite6502 r w) {pc : BitVec 16}
    {c : MOS6502 ω} (refused : (observe w pc c).1 = false) :
    (observe w pc c).2.state = { c.state with pc := pc } ∧ r c.bus (observe w pc c).2.bus := by
  cases attached : w.observer with
  | none =>
    have shown : observe w pc c = (true, c) := by
      simp only [observe, attached]
      rfl
    rw [shown] at refused
    cases refused
  | some obs =>
    rw [observe_attached attached] at refused ⊢
    split at refused
    next needs =>
      rw [if_pos needs]
      refine ⟨?_, polite.looks obs attached _ _ c.bus⟩
      dsimp only at refused ⊢
      rw [refused, if_neg Bool.false_ne_true]
    · cases refused

/-- A refused step has sampled the NMI line and ended a wait, and PC is back. -/
theorem step_refused [ReadClosed r] (polite : Polite6502 r w) {c : MOS6502 ω}
    (refused : Refused6502 w c) :
    ∃ c', step w c = (1, c') ∧ c'.state = c.state.sampled ∧ r c.bus c'.bus := by
  obtain ⟨executes, declined, none⟩ := refused
  obtain ⟨state, bus⟩ := intercept_declines polite declined
  set offered := (intercept6502 w c.sampled).2
  have decoded := decode_frame (r := r) offered
  obtain ⟨kept, seen⟩ := observe_refuses polite (instructed_eq_none.mp none)
  refine ⟨(observe w offered.state.pc (decode offered).core).2, ?_, ?_, ?_⟩
  · rw [step_executes w executes, if_neg (by simp [declined]), execute_refused none]
  · rw [kept, decoded.regs, state]
    rfl
  · exact IsTrans.trans _ _ _ bus (IsTrans.trans _ _ _ decoded.bus seen)

/-! Time -/

/-- A world that may have changed in any way. -/
def AnyWorld (_ _ : ω) : Prop := True

instance : Closed (AnyWorld (ω := ω)) where
  refl _ := trivial
  trans _ _ _ _ _ := trivial
  read8 _ _ := trivial
  write8 _ _ _ := trivial

/-- A computation counts the cycles it returns. -/
def Counts (x : Exec ω ℕ) : Prop :=
  ∀ c, (x c).2.state.cycles = c.state.cycles + BitVec.ofNat 64 (x c).1

theorem Counts.bind {α : Type} {x : Exec ω α} {f : α → Exec ω ℕ}
    (first : ∀ c, (x c).2.state.cycles = c.state.cycles) (next : ∀ a, Counts (f a)) :
    Counts (x >>= f) := fun c => by
  have counted := next (x c).1 (x c).2
  rwa [first c] at counted

theorem addCycles_counts (n : ℕ) : Counts (addCycles n : Exec ω ℕ) := fun _ => rfl

theorem interrupt_counts (w : Wiring ω) (vector : BitVec 16) : Counts (interrupt w vector) :=
  Counts.bind (fun c => (enter_keeps (r := AnyWorld) (fun _ _ _ => trivial) _ vector c).regs.cycles)
    fun _ => addCycles_counts 7

theorem perform_counts (w : Wiring ω) (d : Decoded ω) : Counts (perform w d) :=
  Counts.bind
    (fun c => (call_keeps (r := AnyWorld) w (fun _ _ _ => trivial) d.info.fn d.addr c).regs.cycles)
    fun _ => addCycles_counts _

theorem observe_cycles (pc : BitVec 16) (c : MOS6502 ω) :
    (observe w pc c).2.state.cycles = c.state.cycles := by
  cases attached : w.observer with
  | none =>
    simp only [observe, attached]
    rfl
  | some obs =>
    rw [observe_attached attached]
    split <;> rfl

theorem execute_counts {c : MOS6502 ω} (lets : instructed w c ≠ none) :
    (execute w c).2.state.cycles = c.state.cycles + BitVec.ofNat 64 (execute w c).1 := by
  have decoded := decode_frame (r := AnyWorld) c
  have cont : (observe w c.state.pc (decode c).core).1 = true := by
    simpa using mt instructed_eq_none.mpr lets
  rw [execute_eq, if_pos cont, perform_counts, observe_cycles, decoded.regs]

theorem step_counts (polite : Polite6502 r w) {c : MOS6502 ω} (lets : ¬ Refused6502 w c) :
    (step w c).2.state.cycles = c.state.cycles + BitVec.ofNat 64 (step w c).1 := by
  cases asleep : c.state.asleep with
  | true => exact step_asleep w asleep ▸ addCycles_counts 1 c
  | false =>
    cases edge : c.state.nmiEdge with
    | true => exact step_nmi w asleep edge ▸ interrupt_counts w 0xFFFA _
    | false =>
      cases irq : c.state.irqTaken with
      | true => exact step_irq w asleep edge irq ▸ interrupt_counts w 0xFFFE _
      | false =>
        have executes : c.state.executes = true := by
          simp [CPU6502State.executes, asleep, edge, irq]
        have cycles := intercept_cycles polite c.sampled
        rw [step_executes w executes]
        split
        · rw [addCycles_counts, cycles]
          rfl
        next declined =>
          rw [execute_counts, cycles]
          · rfl
          · intro none
            exact lets ⟨executes, by simpa using declined, none⟩

theorem sampled_eq_self {s : CPU6502State} :
    s.sampled = s ↔ s.waiting = false ∧ s.nmiPrev = s.nmiLine := by
  constructor
  · intro same
    exact ⟨(congrArg (·.waiting) same).symm, (congrArg (·.nmiPrev) same).symm⟩
  · rintro ⟨waiting, prev⟩
    cases s
    cases waiting
    cases prev
    rfl

/-- The 6502's returned cycles are those it counts but for refused steps, and these are
invisible where the core did not wait and the NMI line had been sampled. -/
theorem core6502_iff [ReadClosed r] (polite : Polite6502 r w) (c : MOS6502 ω) :
    ((core6502 r w).TimeAddsUp c ↔ ¬ Refused6502 w c) ∧
      ((core6502 r w).StopInvisible c ↔
        (Refused6502 w c → c.state.waiting = false ∧ c.state.nmiPrev = c.state.nmiLine)) := by
  constructor
  · refine Core.timeAddsUp_iff (fun lets n c' stepped => ?_) fun refused => ?_
    · have counted := step_counts polite lets
      rwa [stepped] at counted
    · obtain ⟨c', stepped, state, -⟩ := step_refused polite refused
      exact ⟨c', stepped, congrArg (·.cycles) state⟩
  · rw [Core.stopInvisible_iff CPU6502State.sampled fun refused => ⟨1, step_refused polite refused⟩]
    exact forall_congr' fun _ => sampled_eq_self

end MOS6502
/-! ## Zilog Z80 -/

section Z80
open Mmemu.Source.CpuZ80

variable {ω : Type}

/-- The registers, the lines and the counter of a Z80. -/
structure Z80Regs where
  state : Z80State
  irqLine : Bool
  nmiLine : Bool
  nmiPending : Bool
  cycles : BitVec 64
  deriving DecidableEq

def z80Regs (c : Z80 ω) : Z80Regs :=
  ⟨c.context.regs, c.irqLine, c.nmiLine, c.nmiPending, c.cycles⟩

def Z80Regs.sampled (s : Z80Regs) : Z80Regs := { s with state := s.state.sampled }

/-- What is attached to a Z80 as to a 6502. -/
structure PoliteZ80 (r : ω → ω → Prop) (w : Wiring ω) : Prop where
  looks : ∀ obs ∈ w.observer, ∀ c, r c.context.bus (obs.onStep c).2
  counts : ∀ hook ∈ w.pcHook, ∀ c, (hook.fire c).2.cycles = c.cycles
  declines : ∀ hook ∈ w.pcHook, ∀ c, (hook.fire c).1 = false →
    z80Regs (hook.fire c).2 = z80Regs c ∧ r c.context.bus (hook.fire c).2.context.bus

variable [PortBus ω]

/-- The observer refuses the instruction of the next step. -/
def RefusedZ80 (w : Wiring ω) (c : Z80 ω) : Prop :=
  (intercept w c).1 = false ∧ (intercept w c).2.executes = true ∧
    (observe w (intercept w c).2.sampled).1 = false

def coreZ80 (r : ω → ω → Prop) (w : Wiring ω) : Core (Z80 ω) Z80Regs where
  steps c n c' := ∃ rounds, step w rounds c = some (n, c')
  functional := by
    rintro c n c' m c'' ⟨_, h⟩ ⟨_, h'⟩
    exact Prod.mk.inj (step_unique h h')
  refused := RefusedZ80 w
  regs := z80Regs
  cycles := Z80.cycles
  memory c c' := r c.context.bus c'.context.bus

variable {r : ω → ω → Prop} {w : Wiring ω}

omit [PortBus ω] in
theorem interceptZ80_cycles (polite : PoliteZ80 r w) (c : Z80 ω) :
    (intercept w c).2.cycles = c.cycles := by
  unfold intercept
  split
  next hook hooked =>
    split
    · exact polite.counts hook hooked c
    · rfl
  · rfl

omit [PortBus ω] in
theorem interceptZ80_declines [IsPreorder ω r] (polite : PoliteZ80 r w) {c : Z80 ω}
    (declined : (intercept w c).1 = false) :
    z80Regs (intercept w c).2 = z80Regs c ∧ r c.context.bus (intercept w c).2.context.bus := by
  unfold intercept at declined ⊢
  split
  next hook hooked =>
    rw [hooked] at declined
    dsimp only at declined
    split at declined
    next armed => simpa only [if_pos armed] using polite.declines hook hooked c declined
    next unarmed => simpa only [if_neg unarmed] using ⟨trivial, refl c.context.bus⟩
  · exact ⟨rfl, refl c.context.bus⟩

omit [PortBus ω] in
theorem observeZ80_regs (w : Wiring ω) (c : Z80 ω) : z80Regs (observe w c).2 = z80Regs c := by
  unfold observe
  split
  · rfl
  · split <;> rfl

omit [PortBus ω] in
theorem observeZ80_refuses (polite : PoliteZ80 r w) {c : Z80 ω}
    (refused : (observe w c).1 = false) : r c.context.bus (observe w c).2.context.bus := by
  unfold observe at refused ⊢
  split
  next unobserved =>
    rw [unobserved] at refused
    cases refused
  next obs attached =>
    rw [attached] at refused
    dsimp only at refused
    split at refused
    next needs => simpa only [if_pos needs] using polite.looks obs attached c
    · cases refused

theorem stepZ80_refused [IsPreorder ω r] (polite : PoliteZ80 r w) {c : Z80 ω}
    (refused : RefusedZ80 w c) (rounds : ℕ) :
    ∃ c', step w rounds c = some (1, c') ∧ z80Regs c' = (z80Regs c).sampled ∧
      r c.context.bus c'.context.bus := by
  obtain ⟨declined, executes, stopped⟩ := refused
  obtain ⟨regs, bus⟩ := interceptZ80_declines polite declined
  refine ⟨(observe w (intercept w c).2.sampled).2, ?_, ?_, ?_⟩
  · rw [step_eq, if_neg (by simp [declined]), proceed_executes executes,
      if_neg (by simp [stopped])]
  · rw [observeZ80_regs, ← regs]
    rfl
  · exact IsTrans.trans _ _ _ bus (observeZ80_refuses polite stopped)

theorem proceed_counts {c : Z80 ω} (lets : c.executes = true → (observe w c.sampled).1 = true)
    {rounds : ℕ} {out : ℕ × Z80 ω} (h : proceed w rounds c = some out) :
    out.2.cycles = c.cycles + BitVec.ofNat 64 out.1 := by
  cases executes : c.executes with
  | true =>
    rw [proceed_executes executes, if_pos (lets executes)] at h
    obtain ⟨done, -, rfl⟩ := Option.map_eq_some_iff.mp h
    have same : (observe w c.sampled).2.cycles = c.sampled.cycles :=
      congrArg Z80Regs.cycles (observeZ80_regs w c.sampled)
    rw [after_cycles, same]
    rfl
  | false =>
    unfold proceed at h
    split at h
    · rw [← Option.some.inj h, enter_cycles]
    · split at h
      · rw [← Option.some.inj h]
        rfl
      next taken halted => simp [Z80.executes, taken, halted] at executes

/-- A refused step of the Z80 is invisible except in the instruction after EI. -/
theorem coreZ80_iff [IsPreorder ω r] (polite : PoliteZ80 r w) (c : Z80 ω) :
    ((coreZ80 r w).TimeAddsUp c ↔ ¬ RefusedZ80 w c) ∧
      ((coreZ80 r w).StopInvisible c ↔ (RefusedZ80 w c → c.context.regs.eiDelay = false)) := by
  constructor
  · refine Core.timeAddsUp_iff ?_ fun refused => ?_
    · rintro lets n c' ⟨rounds, stepped⟩
      have cycles := interceptZ80_cycles polite c
      rw [step_eq] at stepped
      split at stepped
      · obtain ⟨rfl, rfl⟩ := Prod.mk.inj (Option.some.inj stepped)
        change (intercept w c).2.cycles + BitVec.ofNat 64 4 = _
        rw [cycles]
        rfl
      next declined =>
        have counted := proceed_counts (fun executes => by
          by_contra stopped
          exact lets ⟨by simpa using declined, executes, by simpa using stopped⟩) stepped
        rwa [cycles] at counted
    · obtain ⟨c', stepped, regs, -⟩ := stepZ80_refused polite refused 0
      exact ⟨c', ⟨0, stepped⟩, congrArg Z80Regs.cycles regs⟩
  · rw [Core.stopInvisible_iff Z80Regs.sampled fun refused => by
      obtain ⟨c', stepped, left⟩ := stepZ80_refused polite refused 0
      exact ⟨1, c', ⟨0, stepped⟩, left⟩]
    refine forall_congr' fun _ => ⟨fun same => ?_, fun none => ?_⟩
    · exact (congrArg (·.state.eiDelay) same).symm
    · change { z80Regs c with state := { c.context.regs with eiDelay := false } } = z80Regs c
      rw [← none]
      rfl

end Z80
/-! ## MOS 45GS02 -/

section MOS45GS02
open Mmemu.Source.Cpu45gs02

variable {ω : Type} [MachineBus ω]

/-- What is attached to a 45GS02 as to a 6502. -/
structure Polite45GS02 (r : ω → ω → Prop) (w : Wiring ω) : Prop where
  looks : ∀ obs ∈ w.observer, ∀ s entry x, r x (obs.onStep s entry x).2
  counts : ∀ hook ∈ w.pcHook, ∀ c, (hook.fire c).2.state.cycles = c.state.cycles
  declines : ∀ hook ∈ w.pcHook, ∀ c, (hook.fire c).1 = false →
    (hook.fire c).2.state = c.state ∧ r c.bus (hook.fire c).2.bus

/-- The step executes an instruction: the bus lets the core run, and it takes no interrupt. -/
def executes45GS02 (c : MOS45GS02 ω) : Prop :=
  MachineBus.isHaltRequested c.bus = false ∧ c.state.nmiTaken = false ∧ c.state.irqTaken = false

/-- The observer refuses the instruction of the next step. -/
def Refused45GS02 (w : Wiring ω) (c : MOS45GS02 ω) : Prop :=
  executes45GS02 c ∧ (intercept w c.sampled).1 = false ∧
    (observe w (intercept w c.sampled).2).1 = false

def core45GS02 (r : ω → ω → Prop) (w : Wiring ω) : Core (MOS45GS02 ω) CPU45GS02State where
  steps c n c' := step w c = (n, c')
  functional h h' := Prod.mk.inj (h.symm.trans h')
  refused := Refused45GS02 w
  regs := MOS45GS02.state
  cycles c := c.state.cycles
  memory c c' := r c.bus c'.bus

theorem step_executes45GS02 (w : Wiring ω) {c : MOS45GS02 ω} (h : executes45GS02 c) :
    step w c = proceed w c.sampled := by
  rw [step_running w h.1, if_neg (by simp [h.2.1]), if_neg (by simp [h.2.2])]

theorem proceed_eq (w : Wiring ω) (c : MOS45GS02 ω) :
    proceed w c =
      if (intercept w c).1 then
        (6, (addCycles 6 (intercept w c).2).2)
      else if (observe w (intercept w c).2).1 then
        let ran := (execute (observe w (intercept w c).2).2).2
        ((ran.state.cycles - (intercept w c).2.state.cycles).toNat, ran)
      else (1, (observe w (intercept w c).2).2) := by
  change (if (intercept w c).1 then _ else _ : Exec ω ℕ) (intercept w c).2 = _
  split
  · rfl
  · change (if (observe w (intercept w c).2).1 then _ else _ : Exec ω ℕ)
      (observe w (intercept w c).2).2 = _
    split <;> rfl

/-! Time -/

def SameCycles (c c' : MOS45GS02 ω) : Prop := c'.state.cycles = c.state.cycles

instance : IsPreorder (MOS45GS02 ω) SameCycles where
  refl _ := rfl
  trans _ _ _ h h' := Eq.trans h' h

theorem push8_cycles (v : BitVec 8) : Keeps SameCycles (push8 v : Exec ω Unit) :=
  Keeps.get.bind fun c => Keeps.bind (fun c' => congrArg CPU45GS02State.cycles (write8_state c.state.sp v c'))
    fun _ => Keeps.modify fun _ => rfl

theorem read16_cycles (addr : BitVec 16) : Keeps SameCycles (read16 addr : Exec ω (BitVec 16)) :=
  Keeps.bind (fun c => congrArg CPU45GS02State.cycles (read8_state addr c)) fun _ =>
    Keeps.bind (fun c => congrArg CPU45GS02State.cycles (read8_state (addr + 1) c)) fun _ => Keeps.pure _

theorem enter_cycles45GS02 (status mask : BitVec 8 → BitVec 8) (vector : BitVec 16) :
    Keeps SameCycles (enter status mask vector : Exec ω Unit) :=
  Keeps.get.bind fun _ => Keeps.bind ((push8_cycles _).bind fun _ => push8_cycles _) fun _ =>
    Keeps.get.bind fun _ => (push8_cycles _).bind fun _ =>
    Keeps.bind (Keeps.modify fun _ => rfl) fun _ => (read16_cycles vector).bind fun _ =>
    Keeps.modify fun _ => rfl

theorem interrupt_cycles (vector : BitVec 16) (c : MOS45GS02 ω) :
    (interrupt vector c).2.state.cycles = c.state.cycles + BitVec.ofNat 64 (interrupt vector c).1 := by
  have entered : SameCycles c (enter interruptStatus (fun p => p ||| Cpu6502.FLAG_I) vector c).2 :=
    enter_cycles45GS02 _ _ vector c
  change (enter interruptStatus (fun p => p ||| Cpu6502.FLAG_I) vector c).2.state.cycles + 7#64 =
    c.state.cycles + 7#64
  rw [entered]

theorem intercept45GS02_cycles {r : ω → ω → Prop} {w : Wiring ω} (polite : Polite45GS02 r w)
    (c : MOS45GS02 ω) : (intercept w c).2.state.cycles = c.state.cycles := by
  unfold intercept
  split
  next hook hooked =>
    split
    · exact polite.counts hook hooked c
    · rfl
  · rfl

variable {r : ω → ω → Prop} {w : Wiring ω}

theorem intercept45GS02_declines [IsPreorder ω r] (polite : Polite45GS02 r w) {c : MOS45GS02 ω}
    (declined : (intercept w c).1 = false) :
    (intercept w c).2.state = c.state ∧ r c.bus (intercept w c).2.bus := by
  unfold intercept at declined ⊢
  split
  next hook hooked =>
    rw [hooked] at declined
    dsimp only at declined
    split at declined
    next armed => simpa only [if_pos armed] using polite.declines hook hooked c declined
    next unarmed => simpa only [if_neg unarmed] using ⟨trivial, refl c.bus⟩
  · exact ⟨rfl, refl c.bus⟩

theorem observe45GS02_refuses (polite : Polite45GS02 r w) {c : MOS45GS02 ω}
    (refused : (observe w c).1 = false) : r c.bus (observe w c).2.bus := by
  unfold observe at refused ⊢
  split
  next unobserved =>
    rw [unobserved] at refused
    cases refused
  next obs attached =>
    rw [attached] at refused
    dsimp only at refused
    split at refused
    next needs => simpa only [if_pos needs] using polite.looks obs attached _ _ c.bus
    · cases refused

theorem step_refused45GS02 [IsPreorder ω r] (polite : Polite45GS02 r w) {c : MOS45GS02 ω}
    (refused : Refused45GS02 w c) :
    ∃ c', step w c = (1, c') ∧ c'.state = c.sampled.state ∧ r c.bus c'.bus := by
  obtain ⟨executes, declined, stopped⟩ := refused
  obtain ⟨state, bus⟩ := intercept45GS02_declines polite declined
  refine ⟨(observe w (intercept w c.sampled).2).2, ?_, ?_, ?_⟩
  · rw [step_executes45GS02 w executes, proceed_eq, if_neg (by simp [declined]),
      if_neg (by simp [stopped])]
  · rw [observe_state, state]
  · exact IsTrans.trans _ _ _ bus (observe45GS02_refuses polite stopped)

/-- An instruction returns the difference of the counter. -/
theorem proceed_counts45GS02 (polite : Polite45GS02 r w) {c : MOS45GS02 ω}
    (lets : (intercept w c).1 = false → (observe w (intercept w c).2).1 = true) :
    (proceed w c).2.state.cycles = c.state.cycles + BitVec.ofNat 64 (proceed w c).1 := by
  have cycles := intercept45GS02_cycles polite c
  rw [proceed_eq]
  split
  · change (intercept w c).2.state.cycles + 6#64 = _
    rw [cycles]
  next declined =>
    rw [if_pos (lets (by simpa using declined))]
    dsimp only
    rw [BitVec.ofNat_toNat, BitVec.setWidth_eq, cycles, BitVec.add_comm, BitVec.sub_add_cancel]

theorem step_counts45GS02 (polite : Polite45GS02 r w) {c : MOS45GS02 ω}
    (running : MachineBus.isHaltRequested c.bus = false) (lets : ¬ Refused45GS02 w c) :
    (step w c).2.state.cycles = c.state.cycles + BitVec.ofNat 64 (step w c).1 := by
  cases nmi : c.state.nmiTaken with
  | true =>
    rw [step_running w running, if_pos nmi, interrupt_cycles]
  | false =>
    cases irq : c.state.irqTaken with
    | true =>
      rw [step_running w running, if_neg (by simp [nmi]), if_pos irq, interrupt_cycles]
      rfl
    | false =>
      have executes : executes45GS02 c := ⟨running, nmi, irq⟩
      rw [step_executes45GS02 w executes, proceed_counts45GS02 polite]
      · rfl
      · intro declined
        by_contra stopped
        exact lets ⟨executes, declined, by simpa using stopped⟩

/-- The 45GS02 returns a cycle that it does not count when refused or halted, and a refused step
is invisible where it was not halted before and the NMI line had been sampled. -/
theorem core45GS02_iff [IsPreorder ω r] (polite : Polite45GS02 r w) (c : MOS45GS02 ω) :
    ((core45GS02 r w).TimeAddsUp c ↔
      ¬ (MachineBus.isHaltRequested c.bus = true ∨ Refused45GS02 w c)) ∧
    ((core45GS02 r w).StopInvisible c ↔
      (Refused45GS02 w c → c.state.haltLine = false ∧ c.state.nmiPrev = c.state.nmiLine)) := by
  constructor
  · refine Core.timeAddsUp_iff (fun counts n c' stepped => ?_) fun wrong => ?_
    · have counted := step_counts45GS02 polite (by simpa using mt Or.inl counts) (mt Or.inr counts)
      rwa [stepped] at counted
    · rcases wrong with halted | refused
      · refine ⟨(step w c).2, Prod.ext ?_ rfl, congrArg (·.cycles) (step_halted w halted)⟩
        change ((if MachineBus.isHaltRequested c.bus then _ else _ : Exec ω ℕ) c).1 = 1
        rw [if_pos halted]
        rfl
      · obtain ⟨c', stepped, state, -⟩ := step_refused45GS02 polite refused
        exact ⟨c', stepped, congrArg (·.cycles) state⟩
  · rw [Core.stopInvisible_iff (fun s => { s with haltLine := false, nmiPrev := s.nmiLine })
      fun refused => ⟨1, step_refused45GS02 polite refused⟩]
    refine forall_congr' fun _ => ⟨fun same => ?_, ?_⟩
    · exact ⟨(congrArg (·.haltLine) same).symm, (congrArg (·.nmiPrev) same).symm⟩
    · rintro ⟨halt, prev⟩
      change { c.state with haltLine := false, nmiPrev := c.state.nmiLine } = c.state
      rw [← halt, ← prev]

end MOS45GS02
/-! ## The three cores -/

/-- Exactly the steps that an observer refuses, and the halted ones of the 45GS02, return another
number of cycles than they count; and exactly what is sampled before the observer is asked shows
that a refused step has been made. -/
theorem cycles_and_stops_iff
    {ω : Type} [IBus ω] {r : ω → ω → Prop} [Cpu6502.ReadClosed r] {w : Cpu6502.Wiring ω}
    {ωz : Type} [CpuZ80.PortBus ωz] {rz : ωz → ωz → Prop} [IsPreorder ωz rz] {wz : CpuZ80.Wiring ωz}
    {ωm : Type} [Cpu45gs02.MachineBus ωm] {rm : ωm → ωm → Prop} [IsPreorder ωm rm]
    {wm : Cpu45gs02.Wiring ωm}
    (polite : Polite6502 r w) (politez : PoliteZ80 rz wz) (politem : Polite45GS02 rm wm) :
    (∀ c, ((core6502 r w).TimeAddsUp c ↔ ¬ Refused6502 w c) ∧
        ((core6502 r w).StopInvisible c ↔
          (Refused6502 w c → c.state.waiting = false ∧ c.state.nmiPrev = c.state.nmiLine))) ∧
    (∀ c, ((coreZ80 rz wz).TimeAddsUp c ↔ ¬ RefusedZ80 wz c) ∧
        ((coreZ80 rz wz).StopInvisible c ↔
          (RefusedZ80 wz c → c.context.regs.eiDelay = false))) ∧
    (∀ c, ((core45GS02 rm wm).TimeAddsUp c ↔
          ¬ (Cpu45gs02.MachineBus.isHaltRequested c.bus = true ∨ Refused45GS02 wm c)) ∧
        ((core45GS02 rm wm).StopInvisible c ↔
          (Refused45GS02 wm c → c.state.haltLine = false ∧ c.state.nmiPrev = c.state.nmiLine))) :=
  ⟨core6502_iff polite, coreZ80_iff politez, core45GS02_iff politem⟩

/-! ## A stop after EI -/

/-- The bytes are as they were. -/
def SameData (b b' : FlatMemoryBus) : Prop := b'.data = b.data

instance : Cpu6502.ReadClosed SameData where
  refl _ := rfl
  trans _ _ _ h h' := Eq.trans h' h
  read8 _ _ := rfl

/-- A breakpoint at every instruction. -/
def stopping6502 : Cpu6502.Wiring FlatMemoryBus :=
  ⟨some ⟨true, fun _ _ b => (false, b), fun _ _ b => b⟩, none, none⟩

def stoppingZ80 : CpuZ80.Wiring FlatMemoryBus :=
  ⟨some ⟨true, fun c => (false, c.context.bus), fun c => c.context.bus⟩, none⟩

def stopping45GS02 : Cpu45gs02.Wiring FlatMemoryBus :=
  ⟨some ⟨true, fun _ _ b => (false, b), fun _ _ b => b⟩, none, ⟨none, none⟩⟩

theorem polite6502 : Polite6502 SameData stopping6502 where
  looks := by
    rintro obs ⟨⟩ _ _ _
    rfl
  counts := nofun
  declines := nofun

theorem politeZ80 : PoliteZ80 SameData stoppingZ80 where
  looks := by
    rintro obs ⟨⟩ _
    rfl
  counts := nofun
  declines := nofun

theorem polite45GS02 : Polite45GS02 SameData stopping45GS02 where
  looks := by
    rintro obs ⟨⟩ _ _ _
    rfl
  counts := nofun
  declines := nofun

/-- At a NOP behind EI, with an interrupt pending. -/
def afterEi : CpuZ80.Z80 FlatMemoryBus where
  context :=
    { regs := { (default : CpuZ80.Z80State) with
        sp := 0xFFFF, iff1 := true, iff2 := true, eiDelay := true }
      bus := .new 16, prefix_ := .none, dispAddr := 0, dispFetched := false }
  irqLine := true
  nmiLine := false
  nmiPending := false
  cycles := 0

theorem refused_afterEi : RefusedZ80 stoppingZ80 afterEi := ⟨rfl, rfl, rfl⟩

/-- Without the breakpoint the NOP is executed; after the stop the interrupt comes first. -/
theorem interrupted_by_stop :
    ¬ (coreZ80 SameData stoppingZ80).TimeAddsUp afterEi ∧
      ¬ (coreZ80 SameData stoppingZ80).StopInvisible afterEi ∧
      (CpuZ80.step ⟨none, none⟩ 0 afterEi).map (fun out => (out.1, out.2.context.regs.pc)) =
        some (4, 1) ∧
      ((CpuZ80.step stoppingZ80 0 afterEi).bind fun out => CpuZ80.step ⟨none, none⟩ 0 out.2).map
        (fun out => (out.1, out.2.context.regs.pc)) = some (13, 0x0038) := by
  obtain ⟨adds, invisible⟩ := coreZ80_iff politeZ80 afterEi
  refine ⟨?_, ?_, rfl, rfl⟩
  · rw [adds]
    exact fun lets => lets refused_afterEi
  · rw [invisible]
    exact fun none => absurd (none refused_afterEi) (by decide)

/-- All three cores with a breakpoint. -/
theorem cycles_and_stops_iff_stopping :
    ((core6502 SameData stopping6502).TimeAddsUp ⟨default, .new 16, false, 0, 0⟩ ↔
      ¬ Refused6502 stopping6502 ⟨default, .new 16, false, 0, 0⟩) ∧
    ((coreZ80 SameData stoppingZ80).StopInvisible afterEi ↔
      (RefusedZ80 stoppingZ80 afterEi → afterEi.context.regs.eiDelay = false)) ∧
    ((core45GS02 SameData stopping45GS02).StopInvisible
        ⟨default, default, .new 28, false, none, false⟩ ↔
      (Refused45GS02 stopping45GS02 ⟨default, default, .new 28, false, none, false⟩ →
        (default : Cpu45gs02.CPU45GS02State).haltLine = false ∧
        (default : Cpu45gs02.CPU45GS02State).nmiPrev =
          (default : Cpu45gs02.CPU45GS02State).nmiLine)) :=
  have all := cycles_and_stops_iff polite6502 politeZ80 polite45GS02
  ⟨(all.1 _).1, (all.2.1 afterEi).2, (all.2.2 _).2⟩

end Mmemu.Guarantees.StoppedSteps
