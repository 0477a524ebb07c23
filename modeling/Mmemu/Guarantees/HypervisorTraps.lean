import Mmemu.Library.WordBytes
import Mmemu.Source.Cpu45gs02Context
import Mmemu.Source.Hypervisor

/-!
# Hypervisor traps

A trap saves the registers and the mapping and changes both for the hypervisor; leaving it
restores them. The context has one offset for each half of the address space, which is all
there is to a mapping that MAP instructions made. What the hypervisor runs in between cannot
show, as long as it leaves the virtualisation registers alone.
-/
namespace Mmemu.Guarantees.HypervisorTraps
open Mmemu.Library.StateFrame Mmemu.Source Mmemu.Source.MemoryBus Mmemu.Source.Cpu45gs02
open Mmemu.Source.Cpu6502 (FLAG_I FLAG_D)
open Mmemu.Source.HypervisorRegs (CallInterceptFn MachineEvent Selects ioWrite)

/-! ## Mappings -/

/-- The MAP states that MAP instructions lead to from a reset, in either mode and in and out
of traps. -/
inductive Reached : MapState → Prop
  | reset : Reached .zero
  | map (s : CPU45GS02State) {ms : MapState} : Reached ms → Reached (s.mapped ms)
  | trap {ms : MapState} : Reached ms → Reached (hypervisorMap ms)

/-- Each half has one offset, of whole pages below a megabyte. -/
structure Halved (ms : MapState) : Prop where
  low : ∀ i, i < 4 → ms.offsets i = ms.offsets 0
  high : ∀ i, 4 ≤ i → ms.offsets i = ms.offsets 4
  lowPages : ms.offsets 0 &&& 0xFFF00 = ms.offsets 0
  highPages : ms.offsets 4 &&& 0xFFF00 = ms.offsets 4
  padding : ms.padding = 0

theorem offset_pages (bank page : BitVec 8) :
    ((bank &&& 0x0F).setWidth 32 <<< 16 ||| page.setWidth 32 <<< 8) &&& 0xFFF00 =
      ((bank &&& 0x0F).setWidth 32 <<< 16 ||| page.setWidth 32 <<< 8 : BitVec 32) := by
  have banks : ∀ bank : BitVec 8,
      (bank &&& 0x0F).setWidth 32 <<< 16 &&& 0xFFF00#32 = (bank &&& 0x0F).setWidth 32 <<< 16 := by
    decide
  have pages : ∀ page : BitVec 8,
      page.setWidth 32 <<< 8 &&& 0xFFF00#32 = page.setWidth 32 <<< 8 := by
    decide
  exact (BitVec.and_or_distrib_right).trans (congrArg₂ _ (banks bank) (pages page))

theorem Halved.zero : Halved .zero := by
  refine ⟨fun _ _ => rfl, fun _ _ => rfl, ?_, ?_, rfl⟩ <;> decide

theorem Halved.hypervisorMap {ms : MapState} (h : Halved ms) : Halved (hypervisorMap ms) := by
  have top : (Cpu45gs02.hypervisorMap ms).offsets 4 = 0xF0000 := rfl
  refine ⟨?_, ?_, h.lowPages, by rw [top]; rfl, h.padding⟩
  · intro i low
    exact (if_neg (Nat.not_le_of_lt low)).trans (h.low i low)
  · intro i high
    exact if_pos high

theorem Halved.setLow {ms : MapState} (h : Halved ms) {offset : BitVec 32}
    (pages : offset &&& 0xFFF00 = offset) (enables : BitVec 8) :
    Halved { ms with
      offsets := fun i => if i < 4 then offset else ms.offsets i, enables := enables } := by
  refine ⟨?_, ?_, pages, h.highPages, h.padding⟩
  · intro i low
    exact if_pos low
  · intro i high
    exact (if_neg (Nat.not_lt_of_le high)).trans (h.high i high)

theorem Halved.setHigh {ms : MapState} (h : Halved ms) {offset : BitVec 32}
    (pages : offset &&& 0xFFF00 = offset) (enables : BitVec 8) :
    Halved { ms with
      offsets := fun i => if 4 ≤ i then offset else ms.offsets i, enables := enables } := by
  refine ⟨?_, ?_, h.lowPages, pages, h.padding⟩
  · intro i low
    exact (if_neg (Nat.not_le_of_lt low)).trans (h.low i low)
  · intro i high
    exact if_pos high

theorem Halved.selectLow {ms : MapState} (h : Halved ms) (megabyte : BitVec 32) :
    Halved { ms with megabyteLow := megabyte } := ⟨h.low, h.high, h.lowPages, h.highPages, h.padding⟩

theorem Halved.selectHigh {ms : MapState} (h : Halved ms) (megabyte : BitVec 32) :
    Halved { ms with megabyteHigh := megabyte } := ⟨h.low, h.high, h.lowPages, h.highPages, h.padding⟩

/-- MAP gives each half an offset or a megabyte, or leaves it. -/
theorem Halved.mapped {ms : MapState} (h : Halved ms) (s : CPU45GS02State) : Halved (s.mapped ms) := by
  unfold CPU45GS02State.mapped
  extract_lets offset ms'
  have low : Halved ms' := by
    unfold ms'
    split
    · exact h.selectLow _
    · exact h.setLow (offset_pages _ _) _
  split
  · exact low.selectHigh _
  · split
    · exact low.setHigh (offset_pages _ _) _
    · exact low

theorem Reached.halved {ms : MapState} (h : Reached ms) : Halved ms := by
  induction h with
  | reset => exact .zero
  | map s _ ih => exact ih.mapped s
  | trap _ ih => exact ih.hypervisorMap

/-! ## The context -/

/-- What of the context is the core's own: not the ports, the I/O mode and the DMA state. -/
def core (h : HypervisorState) : HypervisorState :=
  { h with port00 := 0, port01 := 0, vicMode := 0, dmaSrcMB := 0, dmaDstMB := 0, dmaListAddr := 0 }

section Traps
variable {ω : Type} [MachineBus ω]

/-- What is around the core does its part: the MAP controller holds the state it is given, the
machine's hooks save and restore what the core does not see, and intercepts do not go behind
the hypervisor's back. -/
structure Attached (w : Wiring ω) : Prop where
  controller : ∀ (bus : ω) (ms : MapState),
    MachineBus.getMapState (MachineBus.setMapState bus ms) = ms
  saves : ∀ hook, w.hooks.onEnter = some hook → ∀ h bus, core (hook h bus).1 = core h
  restores : ∀ hook, w.hooks.onExit = some hook → ∀ h bus,
    MachineBus.getMapState (hook h bus) = MachineBus.getMapState bus
  intercepts : w.Intercepts

variable {w : Wiring ω} {c c' : MOS45GS02 ω}

/-- The machine's hook runs last and changes nothing of the core's own. -/
theorem onEnter_saves (attached : Attached w) (c : MOS45GS02 ω) :
    let hooked : MOS45GS02 ω := match w.hooks.onEnter with
      | some hook =>
        let (saved, bus) := hook c.hyperState c.bus
        { c with hyperState := saved, bus := bus }
      | none => c
    core hooked.hyperState = core c.hyperState ∧ hooked.mapMmu = c.mapMmu ∧
      hooked.state = c.state := by
  intro hooked
  unfold hooked
  split
  next hook wired => exact ⟨attached.saves hook wired c.hyperState c.bus, rfl, rfl⟩
  next => exact ⟨rfl, rfl, rfl⟩

theorem enter_saves (attached : Attached w) (trapAddr : BitVec 16) (c : MOS45GS02 ω) :
    core (enterHypervisor w.hooks trapAddr c).2.hyperState = core c.context ∧
      (enterHypervisor w.hooks trapAddr c).2.mapMmu = c.mapMmu := by
  let moved : MOS45GS02 ω :=
    { c with
      hyperState := c.context
      state := { c.state with
        hypervisor := true, p := (c.state.p ||| (FLAG_I ||| FLAG_E)) &&& ~~~FLAG_D, pc := trapAddr
        sp := 0xBEFF, b := 0xBF } }
  let mapped : MOS45GS02 ω :=
    if moved.mapMmu then
      { moved with
        bus := MachineBus.setMapState moved.bus (hypervisorMap (MachineBus.getMapState moved.bus)) }
    else moved
  obtain ⟨saved, mapMmu, -⟩ := onEnter_saves attached mapped
  have kept : mapped.hyperState = c.context ∧ mapped.mapMmu = c.mapMmu := by
    unfold mapped
    split <;> exact ⟨rfl, rfl⟩
  exact ⟨saved.trans (congrArg core kept.1), mapMmu.trans kept.2⟩

/-- What the user sees of a core: its registers, and the mapping where there is one. -/
structure Restored (c c' : MOS45GS02 ω) : Prop where
  a : c'.state.a = c.state.a
  x : c'.state.x = c.state.x
  y : c'.state.y = c.state.y
  z : c'.state.z = c.state.z
  b : c'.state.b = c.state.b
  sp : c'.state.sp = c.state.sp
  p : c'.state.p = c.state.p
  pc : c'.state.pc = c.state.pc
  map : c.mapMmu = true → MachineBus.getMapState c'.bus = MachineBus.getMapState c.bus
  user : c'.state.hypervisor = false

theorem context_registers (c : MOS45GS02 ω) :
    c.context.regA = c.state.a ∧ c.context.regX = c.state.x ∧ c.context.regY = c.state.y ∧
      c.context.regZ = c.state.z ∧ c.context.regB = c.state.b ∧
      c.context.sph ++ c.context.spl = c.state.sp ∧ c.context.pflags = c.state.p ∧
      c.context.pc = c.state.pc := by
  unfold MOS45GS02.context
  dsimp only
  split <;> exact ⟨rfl, rfl, rfl, rfl, rfl, Library.LittleEndian.bytes_append c.state.sp, rfl, rfl⟩

/-- The mapping in the context is the one it was taken from. -/
theorem context_map (mmu : c.mapMmu = true) (halved : Halved (MachineBus.getMapState c.bus)) :
    c.context.map = MachineBus.getMapState c.bus := by
  unfold MOS45GS02.context
  dsimp only
  rw [if_pos mmu]
  revert halved
  generalize MachineBus.getMapState c.bus = ms
  intro halved
  have offsets : (fun i => if i < 4 then ms.offsets 0 &&& 0xFFF00 else ms.offsets 4 &&& 0xFFF00) =
      ms.offsets := by
    funext i
    split
    next low => rw [halved.lowPages, halved.low i low]
    next high => rw [halved.highPages, halved.high i (Nat.le_of_not_lt high)]
  have padding := halved.padding
  obtain ⟨found, enables, pad, low, high⟩ := ms
  unfold HypervisorState.map
  dsimp only at offsets padding ⊢
  rw [offsets, padding]

/-- Leaving puts the context back, registers and mapping. -/
theorem exit_left (attached : Attached w) (c : MOS45GS02 ω) :
    (exitHypervisor w.hooks c).2.state =
        { c.state with
          a := c.hyperState.regA, x := c.hyperState.regX, y := c.hyperState.regY
          z := c.hyperState.regZ, b := c.hyperState.regB
          sp := c.hyperState.sph ++ c.hyperState.spl, p := c.hyperState.pflags
          pc := c.hyperState.pc, hypervisor := false } ∧
      (c.mapMmu = true →
        MachineBus.getMapState (exitHypervisor w.hooks c).2.bus = c.hyperState.map) := by
  let loaded : MOS45GS02 ω :=
    { c with
      state := { c.state with
        a := c.hyperState.regA, x := c.hyperState.regX, y := c.hyperState.regY
        z := c.hyperState.regZ, b := c.hyperState.regB
        sp := c.hyperState.sph ++ c.hyperState.spl, p := c.hyperState.pflags
        pc := c.hyperState.pc } }
  let mapped : MOS45GS02 ω :=
    if loaded.mapMmu then
      { loaded with bus := MachineBus.setMapState loaded.bus loaded.hyperState.map }
    else loaded
  let after (hooks : HypervisorHooks ω) : MOS45GS02 ω := hooks.onExit.elim mapped fun hook =>
    { mapped with bus := hook mapped.hyperState mapped.bus }
  have leaves : ∀ hooks, (exitHypervisor hooks c).2 =
      { after hooks with state := { (after hooks).state with hypervisor := false } } := by
    rintro ⟨enter, _ | hook⟩ <;> rfl
  let hooked := after w.hooks
  have left := leaves w.hooks
  change (exitHypervisor w.hooks c).2 = { hooked with state := { hooked.state with hypervisor := false } } at left
  have state : mapped.state = loaded.state := by
    unfold mapped
    split <;> rfl
  have kept : hooked.state = mapped.state := by
    unfold hooked after
    cases w.hooks.onExit <;> rfl
  refine ⟨by rw [left, kept, state], fun mmu => ?_⟩
  have set : MachineBus.getMapState mapped.bus = c.hyperState.map := by
    unfold mapped
    rw [if_pos mmu]
    exact attached.controller c.bus c.hyperState.map
  rw [left]
  change MachineBus.getMapState hooked.bus = _
  unfold hooked after
  cases wired : w.hooks.onExit with
  | some hook => exact (attached.restores hook wired mapped.hyperState mapped.bus).trans set
  | none => exact set

/-- Leaving with the context that was saved gives everything back. -/
theorem exit_restores (attached : Attached w) (saved : core c'.hyperState = core c.context)
    (same : c'.mapMmu = c.mapMmu)
    (halved : c.mapMmu = true → Halved (MachineBus.getMapState c.bus)) :
    Restored c (exitHypervisor w.hooks c').2 := by
  obtain ⟨a, x, y, z, b, sp, p, pc⟩ := context_registers c
  obtain ⟨state, map⟩ := exit_left attached c'
  have field {α : Type} (f : HypervisorState → α) (own : ∀ h, f (core h) = f h) :
      f c'.hyperState = f c.context :=
    (own _).symm.trans ((congrArg f saved).trans (own _))
  have stack : c'.hyperState.sph ++ c'.hyperState.spl = c.context.sph ++ c.context.spl :=
    field (fun h => h.sph ++ h.spl) fun _ => rfl
  refine ⟨?_, ?_, ?_, ?_, ?_, ?_, ?_, ?_, ?_, ?_⟩
  · rw [state, ← a]
    exact field HypervisorState.regA fun _ => rfl
  · rw [state, ← x]
    exact field HypervisorState.regX fun _ => rfl
  · rw [state, ← y]
    exact field HypervisorState.regY fun _ => rfl
  · rw [state, ← z]
    exact field HypervisorState.regZ fun _ => rfl
  · rw [state, ← b]
    exact field HypervisorState.regB fun _ => rfl
  · rw [state, ← sp]
    exact stack
  · rw [state, ← p]
    exact field HypervisorState.pflags fun _ => rfl
  · rw [state, ← pc]
    exact field HypervisorState.pc fun _ => rfl
  · intro mmu
    rw [map (same.trans mmu), ← context_map mmu (halved mmu)]
    exact field HypervisorState.map fun _ => rfl
  · rw [state]

/-! ## In the hypervisor -/

def run (w : Wiring ω) (callIntercept : Option (CallInterceptFn ω)) (c : MOS45GS02 ω)
    (events : List MachineEvent) : MOS45GS02 ω :=
  events.foldl (HypervisorRegs.apply w callIntercept) c

theorem apply_context (attached : Attached w) (callIntercept : Option (CallInterceptFn ω))
    (c : MOS45GS02 ω) {e : MachineEvent} (quiet : e.Quiet) :
    SameContext c (HypervisorRegs.apply w callIntercept c e) := by
  cases e with
  | core e =>
    cases e with
    | step => exact step_context attached.intercepts c
    | triggerIrq | triggerNmi | setIrqLine _ | setNmiLine _ | setHaltLine _ => exact ⟨rfl, rfl, rfl⟩
    | reset | enterHypervisor _ | exitHypervisor => cases quiet
  | ioWrite addr val =>
    have ignored : ioWrite w.hooks callIntercept addr val c = (false, c) := by
      unfold ioWrite
      rw [if_neg quiet]
      rfl
    have same : HypervisorRegs.apply w callIntercept c (.ioWrite addr val) = c :=
      congrArg Prod.snd ignored
    rw [same]
    exact .refl c

theorem run_context (attached : Attached w) (callIntercept : Option (CallInterceptFn ω))
    (c : MOS45GS02 ω) {events : List MachineEvent} (quiet : ∀ e ∈ events, e.Quiet) :
    SameContext c (run w callIntercept c events) := by
  induction events generalizing c with
  | nil => exact .refl c
  | cons e rest ih =>
    have first := apply_context attached callIntercept c (quiet e List.mem_cons_self)
    exact first.trans (ih _ fun e' mem => quiet e' (List.mem_cons_of_mem e mem))

/-- A trap cannot be seen: whatever runs in the hypervisor, as long as it does not write the
virtualisation registers, registers and mapping are back when it is left. -/
theorem trap_transparent (attached : Attached w) (callIntercept : Option (CallInterceptFn ω))
    (reached : c.mapMmu = true → Reached (MachineBus.getMapState c.bus)) (trapAddr : BitVec 16)
    {events : List MachineEvent} (quiet : ∀ e ∈ events, e.Quiet) :
    Restored c
      (exitHypervisor w.hooks
        (run w callIntercept (enterHypervisor w.hooks trapAddr c).2 events)).2 := by
  obtain ⟨saved, mapMmu⟩ := enter_saves attached trapAddr c
  have kept := run_context attached callIntercept (enterHypervisor w.hooks trapAddr c).2 quiet
  refine exit_restores attached ?_ (kept.mapMmu.trans mapMmu) fun mmu => (reached mmu).halved
  rw [kept.saved, saved]

end Traps

/-! ## The MEGA65's hooks -/

inductive IopersonalityMode where
  | C64 | C65 | MEGA65 | ETHERNET
  deriving DecidableEq, Repr

def kModeBits : IopersonalityMode → BitVec 8
  | .C64 => 0
  | .C65 => 1
  | .MEGA65 => 3
  | .ETHERNET => 2

def kModes (bits : BitVec 8) : IopersonalityMode :=
  match (bits &&& 3).toNat with
  | 0 => .C64
  | 1 => .C65
  | 2 => .ETHERNET
  | _ => .MEGA65

/-- The MAP controller of a MEGA65 with the CPU port, the KEY register and the DMA list
address beside it. -/
structure Mega65 where
  mmu : MapMmu
  portDdr : BitVec 8
  portValue : BitVec 8
  personality : IopersonalityMode
  listAddr : BitVec 32

instance : MachineBus Mega65 where
  read8 m addr := (m.mmu.read8 false addr, m)
  write8 m addr val := { m with mmu := m.mmu.write8 false addr val }
  peek8 m addr := m.mmu.peek8 false addr
  isHaltRequested _ := false
  getMapState m := m.mmu.mapState
  setMapState m ms := { m with mmu := m.mmu.setMapState ms }
  physRead8 m addr := (m.mmu.physBus.read8 addr, m)
  physWrite8 m addr val := { m with mmu := { m.mmu with physBus := m.mmu.physBus.write8 addr val } }
  hyperRam m off := (m.mmu.hyperRam.map fun ram => m.mmu.physBus.host (ram + off)).getD 0xFF
  setHyperRam m off val := { m with mmu := m.mmu.hyperWrite8 off val }

/-- `setHypervisorHooks` of the machine: the port, the I/O mode and the DMA list address. -/
def mega65Hooks : HypervisorHooks Mega65 where
  onEnter := some fun h m =>
    ({ h with
        port00 := m.portDdr, port01 := m.portValue, vicMode := kModeBits m.personality
        dmaListAddr := m.listAddr },
      { m with portDdr := 0x3F, portValue := 0x35, personality := .MEGA65 })
  onExit := some fun h m =>
    { m with
      portDdr := h.port00, portValue := h.port01, personality := kModes h.vicMode
      listAddr := h.dmaListAddr &&& 0x0FFFFFFF }

def mega65Wiring : Wiring Mega65 := ⟨none, none, mega65Hooks⟩

theorem mega65_attached : Attached mega65Wiring where
  controller _ _ := rfl
  saves _ wired := by
    obtain rfl := Option.some.inj wired
    exact fun _ _ => rfl
  restores _ wired := by
    obtain rfl := Option.some.inj wired
    exact fun _ _ => rfl
  intercepts _ wired := by cases wired

/-- A core in user mode that has run no MAP yet. -/
def userCore : MOS45GS02 Mega65 where
  state := { (default : CPU45GS02State) with sp := 0x01FF, p := 0x24, pc := 0x2000 }
  hyperState := default
  bus :=
    ⟨.new (.new 28 ⟨fun _ keys key => key :: keys, front_perm⟩ fun _ => 0), 0, 0, .MEGA65, 0⟩
  mapMmu := true
  hyperRom := none
  experimentalPrefixMode := false

/-- A trap and three instructions of the hypervisor. -/
theorem userCore_transparent :
    Restored userCore
      (exitHypervisor mega65Wiring.hooks
        (run mega65Wiring none (enterHypervisor mega65Wiring.hooks 0x8000 userCore).2
          [.core .step, .core .step, .ioWrite 0xD020 6, .core .step])).2 :=
  trap_transparent mega65_attached none (fun _ => .reset) 0x8000 (by
    simp [MachineEvent.Quiet, Selects])

end Mmemu.Guarantees.HypervisorTraps
