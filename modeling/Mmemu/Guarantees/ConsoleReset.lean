import Mmemu.Guarantees.LockStep

/-!
# A reset console

What a reset leaves of a console that has run is the cycle that RIOT was last brought up to. Until the bus
is there again the timer does not count, and no register but the timer's and the flags' can show it: two
consoles that differ in these alone make the same reads until they read one of them.
-/
namespace Mmemu.Guarantees.ConsoleReset
open Mmemu.Source
open Mmemu.Source.TiaCore (Standard)
open Mmemu.Source.Riot6532 (Riot)
open Mmemu.Source.Atari2600
open Mmemu.Library.AccessTrees (Tree)
open Mmemu.Guarantees.LockStep

/-! ## RIOT apart from its timer -/

/-- What RIOT has besides the timer and the edge of PA7. -/
def ports (r : Riot) : Riot :=
  { r with
    m_timer := 0
    m_divider := 0
    m_shift := 0
    m_subTimer := 0
    m_wrappedThisCycle := false
    m_lastCycle := 0
    m_flags := 0
    m_edgePositive := false
    m_pa7Sync := false
    m_pa7Stable := false }

section
variable (r : Riot)

theorem sync_ports (cycle : BitVec 64) : ports (r.sync cycle) = ports r := by
  have counted (r : Riot) (cycles : BitVec 32) : ports (r.countTimer cycles) = ports r := by
    unfold Riot.countTimer
    dsimp only
    split
    · rfl
    · split <;> rfl
  unfold Riot.sync
  split
  · rfl
  · exact counted r _

theorem read_ports (a : BitVec 16) : ports (r.read a).2 = ports r := by
  unfold Riot.read
  dsimp only
  split
  · rfl
  · split
    · dsimp only
      split <;> rfl
    · dsimp only
      split <;> rfl
    · rfl
    · rfl
    · rfl

theorem read_value (a : BitVec 16) : (r.read a).1 = r.peek a := by
  unfold Riot.read
  dsimp only
  split
  · rfl
  · split <;> rfl

theorem write_ports (a : BitVec 16) (v : Byte) : ports (r.write a v) = ports ((ports r).write a v) := by
  unfold Riot.write
  split
  · rfl
  · split
    · split <;> rfl
    · split <;> rfl

/-- RAM and the ports are read without the timer. -/
theorem peek_ports {a : BitVec 16} (apart : a &&& 0x200 = 0 ∨ a &&& 4 = 0) : r.peek a = (ports r).peek a := by
  unfold Riot.peek
  split
  · rfl
  · rename_i register
    have low : a &&& 4 = 0 := apart.resolve_left register
    have masked : a &&& 7 = a &&& 3 := by
      have split_ : (7 : BitVec 16) = 4 ||| 3 := rfl
      rw [split_, BitVec.and_or_distrib_left, low]
      exact BitVec.zero_or
    have small : (a &&& 7).toNat < 4 := by
      rw [masked, BitVec.toNat_and]
      exact Nat.lt_of_le_of_lt Nat.and_le_right (by decide)
    generalize (a &&& 7).toNat = n at small
    have which : n = 0 ∨ n = 1 ∨ n = 2 ∨ n = 3 := by omega
    rcases which with rfl | rfl | rfl | rfl
    all_goals rfl

end

/-- A relation of two RIOTs that show the same, except at `hidden` addresses, and go on to do so. -/
structure Kept (R : Riot → Riot → Prop) (hidden : BitVec 16 → Prop) : Prop where
  sync : ∀ {r r'}, R r r' → ∀ cycle, R (r.sync cycle) (r'.sync cycle)
  write : ∀ {r r'}, R r r' → ∀ a v, R (r.write a v) (r'.write a v)
  read : ∀ {r r'}, R r r' → ∀ a, R (r.read a).2 (r'.read a).2
  shown : ∀ {r r'}, R r r' → ∀ a, ¬ hidden a → r.peek a = r'.peek a
  ram : ∀ a, hidden a → a &&& 0x200 ≠ 0

theorem equal_kept : Kept Eq fun _ => False where
  sync same _ := same ▸ rfl
  write same _ _ := same ▸ rfl
  read same _ := same ▸ rfl
  shown same _ _ := same ▸ rfl
  ram _ := False.elim

/-- A register of the timer or of the flags. -/
def timerRegister (a : BitVec 16) : Prop := a &&& 0x200 ≠ 0 ∧ a &&& 4 ≠ 0

theorem apart_kept : Kept (fun r r' => ports r = ports r') timerRegister where
  sync same _ := (sync_ports _ _).trans (same.trans (sync_ports _ _).symm)
  write same a v := (write_ports _ a v).trans (by rw [same, ← write_ports])
  read same _ := (read_ports _ _).trans (same.trans (read_ports _ _).symm)
  shown same a apart := by
    have apart : a &&& 0x200 = 0 ∨ a &&& 4 = 0 := by
      rcases Decidable.em (a &&& 0x200 = 0) with ram | register
      · exact .inl ram
      · exact .inr (Decidable.not_not.mp fun timer => apart ⟨register, timer⟩)
    exact (peek_ports _ apart).trans ((congrArg (·.peek a) same).trans (peek_ports _ apart).symm)
  ram _ hidden := hidden.1

/-! ## Two buses -/

/-- Two buses that differ in their RIOTs only, and in whether a fault has occurred. -/
def Alike (R : Riot → Riot → Prop) (b b' : A2600Bus) : Prop :=
  ∃ riot fault, b' = { b with m_riot := riot, fault := fault } ∧ R b.m_riot riot

/-- The address of a CPU read that shows what is hidden. -/
def shows (hidden : BitVec 16 → Prop) (a : BitVec 16) : Prop :=
  A2600Bus.target (a &&& 0x1FFF) = .riot ∧ hidden (a &&& 0x1FFF)

theorem with_syncTo (b : A2600Bus) (riot : Riot) (fault : Bool) (cycle : ℕ) :
    { b with m_riot := riot, fault := fault }.syncTo cycle =
      { b.syncTo cycle with m_riot := riot.sync (BitVec.ofNat 64 cycle), fault := fault } := by
  unfold A2600Bus.syncTo
  dsimp only
  split <;> rfl

theorem syncTo_riot (b : A2600Bus) (cycle : ℕ) :
    (b.syncTo cycle).m_riot = b.m_riot.sync (BitVec.ofNat 64 cycle) := by
  unfold A2600Bus.syncTo
  dsimp only
  split <;> rfl

theorem target_ram {a : BitVec 16} (ram : A2600Bus.target a = .ram) : a &&& 0x200 = 0 := by
  unfold A2600Bus.target at ram
  split at ram
  · cases ram
  · split at ram
    · cases ram
    · split at ram
      · assumption
      · cases ram

section
variable {R : Riot → Riot → Prop} {hidden : BitVec 16 → Prop} {b b' : A2600Bus}

theorem Alike.syncTo (kept : Kept R hidden) (alike : Alike R b b') (cycle : ℕ) :
    Alike R (b.syncTo cycle) (b'.syncTo cycle) := by
  obtain ⟨riot, fault, rfl, related⟩ := alike
  refine ⟨_, fault, with_syncTo b riot fault cycle, ?_⟩
  rw [syncTo_riot]
  exact kept.sync related _

theorem Alike.apply (kept : Kept R hidden) (alike : Alike R b b') (w : BitVec 16 × Byte) :
    Alike R (b.apply w) (b'.apply w) := by
  obtain ⟨riot, fault, rfl, related⟩ := alike
  unfold A2600Bus.apply
  dsimp only
  split
  · exact ⟨riot, fault, rfl, related⟩
  · exact ⟨_, fault, rfl, kept.write related _ _⟩

theorem Alike.applyPending (kept : Kept R hidden) (alike : Alike R b b') (stop : ℕ)
    (ws : List (BitVec 16 × Byte)) :
    Alike R (A2600Bus.applyPending stop ws b) (A2600Bus.applyPending stop ws b') := by
  induction ws generalizing b b' with
  | nil => exact alike
  | cons w ws ih => exact ih ((alike.syncTo kept _).apply kept w)

theorem Alike.stall (kept : Kept R hidden) (alike : Alike R b b') (stop : ℕ) :
    (b.stall stop).1 = (b'.stall stop).1 ∧ Alike R (b.stall stop).2 (b'.stall stop).2 := by
  have synced := alike.syncTo kept stop
  obtain ⟨riot, fault, rfl, related⟩ := alike
  unfold A2600Bus.stall
  dsimp only
  split
  · obtain ⟨riot', fault', same, related'⟩ := synced
    rw [same]
    exact ⟨rfl, riot', fault', rfl, related'⟩
  · exact ⟨rfl, riot, fault, rfl, related⟩

theorem Alike.end_ (kept : Kept R hidden) (alike : Alike R b b') (c : ℕ) :
    Alike R (b.end_ c).2 (b'.end_ c).2 := by
  have cycles : b'.m_cycles = b.m_cycles := by
    obtain ⟨riot, fault, rfl, -⟩ := alike
    rfl
  have pending : b'.m_pending = b.m_pending := by
    obtain ⟨riot, fault, rfl, -⟩ := alike
    rfl
  rw [end_eq, end_eq, cycles, pending]
  have replayed := alike.applyPending kept (b.m_cycles + c) b.m_pending
  generalize A2600Bus.applyPending (b.m_cycles + c) b.m_pending b = b₁ at replayed
  generalize A2600Bus.applyPending (b.m_cycles + c) b.m_pending b' = b₁' at replayed
  have cleared : Alike R { b₁ with m_pending := [] } { b₁' with m_pending := [] } := by
    obtain ⟨riot, fault, rfl, related⟩ := replayed
    exact ⟨riot, fault, rfl, related⟩
  obtain ⟨same, stalled⟩ := cleared.stall kept (b.m_cycles + c)
  unfold finish
  dsimp only
  rw [← same]
  refine Alike.syncTo kept ?_ _
  obtain ⟨riot, fault, at_, related⟩ := stalled
  rw [at_]
  exact ⟨riot, fault, rfl, related⟩

theorem Alike.begin (alike : Alike R b b') : Alike R b.begin b'.begin := by
  obtain ⟨riot, fault, rfl, related⟩ := alike
  exact ⟨riot, fault, rfl, related⟩

theorem Alike.writeCart (alike : Alike R b b') (write : Cart → Option Cart) :
    Alike R (b.writeCart write) (b'.writeCart write) := by
  obtain ⟨riot, fault, rfl, related⟩ := alike
  unfold A2600Bus.writeCart
  dsimp only
  split
  · exact ⟨riot, fault, rfl, related⟩
  · split
    · exact ⟨riot, true, rfl, related⟩
    · exact ⟨riot, fault, rfl, related⟩

/-- A write is the same for both. -/
theorem Alike.write8 (kept : Kept R hidden) (alike : Alike R b b') (addr : BitVec 32) (v : Byte) :
    Alike R (b.write8 addr v) (b'.write8 addr v) := by
  have counted : Alike R { b with m_access := b.m_access + 1, m_dataBus := v }
      { b' with m_access := b'.m_access + 1, m_dataBus := v } := by
    obtain ⟨riot, fault, rfl, related⟩ := alike
    exact ⟨riot, fault, rfl, related⟩
  unfold A2600Bus.write8
  dsimp only
  split
  · exact counted.writeCart _
  all_goals
    obtain ⟨riot, fault, same, related⟩ :=
      counted.writeCart fun cart => cart.lowWrite ((addr &&& 0x1FFF).setWidth 16).toNat v
    rw [same]
  · exact ⟨_, fault, rfl, kept.write related _ _⟩
  all_goals exact ⟨riot, fault, rfl, related⟩

theorem Alike.readAt (kept : Kept R hidden) (alike : Alike R b b') (at_ : ℕ) (a : BitVec 16)
    (clean : A2600Bus.target a = .riot → ¬ hidden a) :
    (b.readAt at_ a).1 = (b'.readAt at_ a).1 ∧ Alike R (b.readAt at_ a).2 (b'.readAt at_ a).2 := by
  have synced := alike.syncTo kept at_
  unfold A2600Bus.readAt
  split
  · obtain ⟨riot, fault, rfl, related⟩ := alike
    unfold A2600Bus.readCart
    dsimp only
    split
    · exact ⟨rfl, riot, fault, rfl, related⟩
    · exact ⟨rfl, riot, _, rfl, related⟩
  · obtain ⟨riot, fault, same, related⟩ := synced
    rw [same]
    exact ⟨rfl, riot, fault, rfl, related⟩
  · rename_i ram
    obtain ⟨riot, fault, rfl, related⟩ := alike
    refine ⟨kept.shown related a fun is => kept.ram a is ?_, riot, fault, rfl, related⟩
    exact target_ram ram
  · rename_i register
    obtain ⟨riot, fault, same, related⟩ := synced
    rw [same]
    refine ⟨?_, _, fault, rfl, kept.read related a⟩
    dsimp only
    rw [read_value, read_value]
    exact kept.shown related a (clean register)

/-- A read is the same for both, unless it shows what is hidden. -/
theorem Alike.read8 (kept : Kept R hidden) (alike : Alike R b b') (addr : BitVec 32)
    (clean : ¬ shows hidden (addr.setWidth 16)) :
    (b.read8 addr).1 = (b'.read8 addr).1 ∧ Alike R (b.read8 addr).2 (b'.read8 addr).2 := by
  have masked : (addr.setWidth 16 &&& 0x1FFF : BitVec 16) = (addr &&& 0x1FFF).setWidth 16 := by
    rw [BitVec.setWidth_and]
    rfl
  rw [shows, masked, not_and] at clean
  have counted : Alike R { b with m_access := b.m_access + 1 } { b' with m_access := b'.m_access + 1 } := by
    obtain ⟨riot, fault, rfl, related⟩ := alike
    exact ⟨riot, fault, rfl, related⟩
  have now : b'.m_cycles + b'.m_access = b.m_cycles + b.m_access := by
    obtain ⟨riot, fault, rfl, -⟩ := alike
    rfl
  obtain ⟨value, after⟩ := counted.readAt kept (b.m_cycles + b.m_access) _ clean
  unfold A2600Bus.read8
  dsimp only
  rw [now, ← value]
  obtain ⟨riot, fault, same, related⟩ := after
  rw [same]
  exact ⟨rfl, riot, fault, rfl, related⟩

end

instance (a : BitVec 16) : Decidable (shows timerRegister a) :=
  inferInstanceAs (Decidable (_ = _ ∧ _ ≠ _ ∧ _ ≠ _))

/-! ## Two machines -/

/-- What the CPU has read in the step that begins at `m`. -/
def stepReads (m : Machine) : List (BitVec 16 × Byte) :=
  (cpuStep m).2.bus.done.reads.drop m.bus.done.reads.length

/-- Two machines that differ in their RIOTs only, and in what a step sets first. -/
structure Twins (R : Riot → Riot → Prop) (m m' : Machine) : Prop where
  nmos : m.cmos = false
  nmos' : m'.cmos = false
  state : m'.state = m.state
  bus : Alike R m.bus.begin m'.bus.begin

/-- Something hidden has been read, after the first `n` reads. -/
def Shown (hidden : BitVec 16 → Prop) (n : ℕ) (b : A2600Bus) : Prop :=
  ∃ r ∈ b.done.reads.drop n, shows hidden r.1

theorem read8_reads (b : A2600Bus) (addr : BitVec 32) :
    (b.read8 addr).2.done.reads = b.done.reads ++ [(addr.setWidth 16, (b.read8 addr).1)] := by
  have same (b : A2600Bus) (at_ : ℕ) (a : BitVec 16) : (b.readAt at_ a).2.done.reads = b.done.reads := by
    unfold A2600Bus.readAt
    obtain ⟨tia, riot, time, made⟩ := syncTo_frame b at_
    split
    · obtain ⟨cart, fault, made⟩ := readCart_frame b a
      rw [made]
    · rw [made]
      rfl
    · rfl
    · rw [made]
  unfold A2600Bus.read8
  dsimp only
  rw [same]

theorem write8_reads (b : A2600Bus) (addr : BitVec 32) (v : Byte) :
    (b.write8 addr v).done.reads = b.done.reads := by
  unfold A2600Bus.write8
  dsimp only
  split
  · obtain ⟨cart, fault, same⟩ := writeCart_frame { b with m_access := b.m_access + 1, m_dataBus := v }
      fun cart => cart.write (((addr &&& 0x1FFF).setWidth 16) &&& 0x0FFF).toNat v
    rw [same]
  all_goals
    obtain ⟨cart, fault, same⟩ := writeCart_frame { b with m_access := b.m_access + 1, m_dataBus := v }
      fun cart => cart.lowWrite ((addr &&& 0x1FFF).setWidth 16).toNat v
    rw [same]

section
variable {R : Riot → Riot → Prop} {hidden : BitVec 16 → Prop}

theorem Shown.read8 {n : ℕ} {b : A2600Bus} (shown : Shown hidden n b) (addr : BitVec 32) :
    Shown hidden n (b.read8 addr).2 := by
  obtain ⟨r, made, is⟩ := shown
  refine ⟨r, ?_, is⟩
  rw [read8_reads, List.drop_append]
  exact List.mem_append_left _ made

theorem Shown.write8 {n : ℕ} {b : A2600Bus} (shown : Shown hidden n b) (addr : BitVec 32) (v : Byte) :
    Shown hidden n (b.write8 addr v) := by
  unfold Shown
  rw [write8_reads]
  exact shown

/-- Two buses that are alike, after `n` reads or more. -/
def AlikeFrom (R : Riot → Riot → Prop) (n : ℕ) (b b' : A2600Bus) : Prop := Alike R b b' ∧ n ≤ b.done.reads.length

/-- Any accesses of two buses have the same results, unless one of them shows what is hidden. -/
theorem Alike.run (kept : Kept R hidden) {α : Type} (t : Tree (BitVec 32) (BitVec 8) α) {b b' : A2600Bus}
    (alike : Alike R b b') (clean : ¬ Shown hidden b.done.reads.length (t.run Cpu6502.ports b).2) :
    (t.run Cpu6502.ports b).1 = (t.run Cpu6502.ports b').1 ∧
      AlikeFrom R b.done.reads.length (t.run Cpu6502.ports b).2 (t.run Cpu6502.ports b').2 := by
  generalize from_ : b.done.reads.length = n at clean ⊢
  have read (x x' : A2600Bus) (addr : BitVec 32) (h : AlikeFrom R n x x') : Shown hidden n (x.read8 addr).2 ∨
      (x.read8 addr).1 = (x'.read8 addr).1 ∧ AlikeFrom R n (x.read8 addr).2 (x'.read8 addr).2 := by
    have reads := read8_reads x addr
    by_cases shown : shows hidden (addr.setWidth 16)
    · refine .inl ⟨(addr.setWidth 16, (x.read8 addr).1), ?_, shown⟩
      rw [reads, List.drop_append_of_le_length h.2]
      exact List.mem_append_right _ (List.mem_singleton.mpr rfl)
    · obtain ⟨value, alike⟩ := h.1.read8 kept addr shown
      refine .inr ⟨value, alike, ?_⟩
      rw [reads, List.length_append]
      exact Nat.le_add_right_of_le h.2
  have write (x x' : A2600Bus) (addr : BitVec 32) (v : BitVec 8) (h : AlikeFrom R n x x') :
      AlikeFrom R n (x.write8 addr v) (x'.write8 addr v) := by
    refine ⟨h.1.write8 kept addr v, ?_⟩
    rw [write8_reads]
    exact h.2
  exact Tree.run_alike read write (fun _ addr shown => shown.read8 addr) (fun _ addr v shown => shown.write8 addr v) t
    ⟨alike, Nat.le_of_eq from_.symm⟩ clean

/-- The step of two machines is the same one, unless it reads what is hidden. -/
theorem Twins.step (kept : Kept R hidden) {m m' : Machine} (twins : Twins R m m')
    (clean : ∀ r ∈ stepReads m, ¬ shows hidden r.1) : Twins R m.schedulerStep.2 m'.schedulerStep.2 := by
  obtain ⟨t, -, runs⟩ := cpuStep_tree m.state
  obtain ⟨cost, state, bus, nmos⟩ := runs m rfl twins.nmos
  obtain ⟨cost', state', bus', nmos'⟩ := runs m' twins.state twins.nmos'
  have unshown : ¬ Shown hidden m.bus.begin.done.reads.length (t.run Cpu6502.ports m.bus.begin).2 := by
    rintro ⟨r, made, is⟩
    rw [← bus] at made
    exact clean r made is
  obtain ⟨result, alike, -⟩ := twins.bus.run kept t unshown
  rw [← bus, ← bus'] at alike
  rw [schedulerStep_eq, schedulerStep_eq]
  refine ⟨nmos, nmos', ?_, ?_⟩
  · exact state'.trans ((congrArg Prod.snd result).symm.trans state.symm)
  · have same : (cpuStep m').1 = (cpuStep m).1 := cost'.trans ((congrArg Prod.fst result).symm.trans cost.symm)
    dsimp only
    rw [same]
    exact (alike.end_ kept (cpuStep m).1).begin

end

/-! ## Runs with inputs -/

inductive Input where
  | joystick (port : Bool) (bits : Byte)
  | key (name : String) (down : Bool)

def take (m : Machine) : Input → Machine
  | .joystick port bits => m.onJoystick port bits
  | .key name down => (m.onKey name down).2

inductive Event where
  | step
  | input (i : Input)

def does (m : Machine) : Event → Machine
  | .step => m.schedulerStep.2
  | .input i => take m i

def play (m : Machine) (events : List Event) : Machine := events.foldl does m

/-- Two RIOTs that differ in the timer and the edge of PA7 only. -/
def Apart (r r' : Riot) : Prop := ports r = ports r'

theorem Twins.reads {R : Riot → Riot → Prop} {m m' : Machine} (twins : Twins R m m') :
    m'.bus.done.reads = m.bus.done.reads := by
  obtain ⟨riot, fault, same, -⟩ := twins.bus
  exact congrArg (·.done.reads) same

/-- A change of the pins of RIOT and of the TIA. -/
theorem Twins.pins {m m' : Machine} (twins : Twins Apart m m') (onTia : TiaCore.Tia → TiaCore.Tia)
    (onRiot : Riot → Riot) (kept : ∀ r r', Apart r r' → Apart (onRiot r) (onRiot r')) :
    Twins Apart { m with bus := { m.bus with m_riot := onRiot m.bus.m_riot, m_tia := onTia m.bus.m_tia } }
      { m' with bus := { m'.bus with m_riot := onRiot m'.bus.m_riot, m_tia := onTia m'.bus.m_tia } } := by
  refine ⟨twins.nmos, twins.nmos', twins.state, ?_⟩
  have changed (b b' : A2600Bus) (alike : Alike Apart b b') :
      Alike Apart { b with m_riot := onRiot b.m_riot, m_tia := onTia b.m_tia }
        { b' with m_riot := onRiot b'.m_riot, m_tia := onTia b'.m_tia } := by
    obtain ⟨riot, fault, rfl, related⟩ := alike
    exact ⟨onRiot riot, fault, rfl, kept _ _ related⟩
  exact changed _ _ twins.bus

theorem Apart.portA {r r' : Riot} (apart : Apart r r') (f : Byte → Byte) :
    Apart { r with portA := f r.portA } { r' with portA := f r'.portA } := by
  have moved := congrArg (fun p : Riot => { p with portA := f p.portA }) apart
  exact moved

theorem Apart.portB {r r' : Riot} (apart : Apart r r') (f : Byte → Byte) :
    Apart { r with portB := f r.portB } { r' with portB := f r'.portB } := by
  have moved := congrArg (fun p : Riot => { p with portB := f p.portB }) apart
  exact moved

theorem Twins.joystick {m m' : Machine} (twins : Twins Apart m m') (port : Bool) (bits : Byte) :
    Twins Apart (m.onJoystick port bits) (m'.onJoystick port bits) :=
  twins.pins (fun tia => tia.setButton port.toNat (!bits.getLsbD 4)) _ fun _ _ apart => apart.portA fun portA =>
    if port then portA.extractLsb' 4 4 ++ bits.setWidth 4 else bits.setWidth 4 ++ portA.setWidth 4

theorem Twins.setSwitch {m m' : Machine} (twins : Twins Apart m m') (mask : Byte) (set : Bool) :
    Twins Apart (m.setSwitch mask set) (m'.setSwitch mask set) :=
  twins.pins id _ fun _ _ apart => apart.portB fun portB => if set then portB ||| mask else portB &&& ~~~mask

theorem Twins.key {m m' : Machine} (twins : Twins Apart m m') (name : String) (down : Bool) :
    Twins Apart (m.onKey name down).2 (m'.onKey name down).2 := by
  unfold Machine.onKey
  dsimp only
  repeat' split
  all_goals first | exact twins | exact twins.setSwitch _ _

/-- Each step of a run that reads a register of RIOT's timer or flags begins with the RIOTs equal. -/
def Clean : Machine → Machine → List Event → Prop
  | _, _, [] => True
  | m, m', e :: events =>
    (e = .step → (∃ r ∈ stepReads m, shows timerRegister r.1) → m'.bus.m_riot = m.bus.m_riot) ∧
      Clean (does m e) (does m' e) events

theorem Twins.does {m m' : Machine} (twins : Twins Apart m m') (e : Event)
    (clean : e = .step → (∃ r ∈ stepReads m, shows timerRegister r.1) → m'.bus.m_riot = m.bus.m_riot) :
    Twins Apart (does m e) (does m' e) := by
  cases e with
  | step =>
    by_cases shown : ∃ r ∈ stepReads m, shows timerRegister r.1
    · obtain ⟨riot, fault, same, -⟩ := twins.bus
      have equal : riot = m.bus.m_riot := (congrArg (·.m_riot) same).symm.trans (clean rfl shown)
      have whole : Twins Eq m m' := ⟨twins.nmos, twins.nmos', twins.state, riot, fault, same, equal.symm⟩
      have after := whole.step equal_kept fun r _ is => is.2.elim
      obtain ⟨riot', fault', same', equal'⟩ := after.bus
      exact ⟨after.nmos, after.nmos', after.state, riot', fault', same', congrArg ports equal'⟩
    · exact twins.step apart_kept fun r made is => shown ⟨r, made, is⟩
  | input i =>
    cases i with
    | joystick port bits => exact twins.joystick port bits
    | key name down => exact twins.key name down

theorem Twins.play {m m' : Machine} (twins : Twins Apart m m') {events : List Event} (clean : Clean m m' events) :
    Twins Apart (play m events) (play m' events) := by
  induction events generalizing m m' with
  | nil => exact twins
  | cons e events ih => exact ih (twins.does e clean.1) clean.2

/-! ## What a run keeps -/

section
variable (c : Cart)

theorem hotspot_reset (a : ℕ) : (c.hotspot a).reset = c.reset := by
  unfold Cart.hotspot
  repeat' split
  all_goals dsimp only [Cart.reset, Cart.banks]

theorem write_reset {c c' : Cart} {a : ℕ} {v : Byte} (written : c.write a v = some c') : c'.reset = c.reset := by
  unfold Cart.write at written
  dsimp only at written
  split at written
  · rename_i inside
    rw [Mmemu.Library.CheckedBuffer.Buffer.set_of_lt inside.2] at written
    obtain rfl := Option.some.inj written
    exact hotspot_reset c a
  · obtain rfl := Option.some.inj written
    exact hotspot_reset c a

theorem lowWrite_reset {c c' : Cart} {a : ℕ} {v : Byte} (written : c.lowWrite a v = some c') : c'.reset = c.reset := by
  unfold Cart.lowWrite at written
  split at written
  · split at written
    · cases written
    · obtain rfl := Option.some.inj written
      rfl
  · obtain rfl := Option.some.inj written
    rfl

end

/-- What is set from outside of the TIA, and the cartridge as a reset leaves it. -/
def stock (b : A2600Bus) : TiaCore.Pins × Option Cart := (b.m_tia.pins, b.m_cart.map Cart.reset)

section
variable (b : A2600Bus)

theorem syncTo_stock (cycle : ℕ) : stock (b.syncTo cycle) = stock b := by
  unfold A2600Bus.syncTo
  dsimp only
  split <;> rfl

theorem apply_stock (w : BitVec 16 × Byte) : stock (b.apply w) = stock b := by
  unfold A2600Bus.apply
  dsimp only
  split <;> rfl

theorem applyPending_stock (stop : ℕ) (ws : List (BitVec 16 × Byte)) :
    stock (A2600Bus.applyPending stop ws b) = stock b := by
  induction ws generalizing b with
  | nil => rfl
  | cons w ws ih => exact (ih _).trans ((apply_stock _ w).trans (syncTo_stock b _))

theorem end_stock (c : ℕ) : stock (b.end_ c).2 = stock b := by
  have stalled (b : A2600Bus) (stop : ℕ) : stock (b.stall stop).2 = stock b := by
    unfold A2600Bus.stall
    split
    · exact syncTo_stock b stop
    · rfl
  rw [end_eq]
  have applied := applyPending_stock b (b.m_cycles + c) b.m_pending
  generalize A2600Bus.applyPending (b.m_cycles + c) b.m_pending b = b₁ at applied
  have after := stalled { b₁ with m_pending := [] } (b.m_cycles + c)
  unfold finish
  dsimp only
  rw [syncTo_stock]
  exact after.trans applied

theorem read8_stock (addr : BitVec 32) : stock (b.read8 addr).2 = stock b := by
  have readAt (b : A2600Bus) (at_ : ℕ) (a : BitVec 16) : stock (b.readAt at_ a).2 = stock b := by
    unfold A2600Bus.readAt
    split
    · unfold A2600Bus.readCart
      split
      · rfl
      · rename_i cart here
        have kept : some ((cart.hotspot (a &&& 0x0FFF).toNat).reset) = b.m_cart.map Cart.reset := by
          rw [here, hotspot_reset]
          rfl
        exact congrArg (Prod.mk b.m_tia.pins) kept
    · exact syncTo_stock b at_
    · rfl
    · exact syncTo_stock b at_
  unfold A2600Bus.read8
  dsimp only
  exact readAt _ _ _

theorem write8_stock (addr : BitVec 32) (v : Byte) : stock (b.write8 addr v) = stock b := by
  have writeCart (b : A2600Bus) (w : Cart → Option Cart) (kept : ∀ c c', w c = some c' → c'.reset = c.reset) :
      stock (b.writeCart w) = stock b := by
    unfold A2600Bus.writeCart
    split
    · rfl
    · rename_i cart here
      split
      · rfl
      · rename_i cart' written
        have same : some cart'.reset = b.m_cart.map Cart.reset := by
          rw [here, kept cart cart' written]
          rfl
        exact congrArg (Prod.mk b.m_tia.pins) same
  unfold A2600Bus.write8
  dsimp only
  split
  · exact writeCart _ _ fun _ _ written => write_reset written
  all_goals
    exact writeCart { b with m_access := b.m_access + 1, m_dataBus := v } _ fun _ _ written => lowWrite_reset written

end

/-- The cartridge of an image. -/
def cartOf (image : List Byte) : Option Cart := (detectType image).bind (Cart.new image)

/-- The machines that a new one becomes in any run, with resets and changes of the cartridge, and the image
of the cartridge that they have. -/
inductive Lived (std : Standard) : Option (List Byte) → Machine → Prop where
  | created : Lived std none (Machine.create std)
  | inserted {i : Option (List Byte)} {m : Machine} (lived : Lived std i m) {image : List Byte} {cart : Cart}
    (takes : cartOf image = some cart) : Lived std (some image) (m.insertCartridge image).2
  | removed {i : Option (List Byte)} {m : Machine} (lived : Lived std i m) : Lived std none m.removeCartridge
  | reset {i : Option (List Byte)} {m : Machine} (lived : Lived std i m) : Lived std i m.onReset
  | event {i : Option (List Byte)} {m : Machine} (lived : Lived std i m) (e : Event) : Lived std i (does m e)

/-- An NMOS machine of a standard, whose cartridge has been made of an image. -/
structure Stocked (std : Standard) (image : Option (List Byte)) (m : Machine) : Prop where
  nmos : m.cmos = false
  standard : m.bus.m_tia.pins.m_std = std
  paddles : m.bus.m_tia.pins.m_analogConnections = fun _ => {}
  cart : m.bus.m_cart.map Cart.reset = image.bind cartOf

theorem cartOf_reset {image : List Byte} {cart : Cart} (made : cartOf image = some cart) : cart.reset = cart := by
  obtain ⟨type, -, made⟩ := Option.bind_eq_some_iff.mp made
  unfold Cart.new at made
  dsimp only at made
  split at made
  · split at made
    · cases made
    · obtain rfl := Option.some.inj made
      rfl
  · obtain rfl := Option.some.inj made
    rfl

section
variable {std : Standard} {image : Option (List Byte)} {m : Machine}

theorem Stocked.of_stock (stocked : Stocked std image m) {m' : Machine} (nmos : m'.cmos = false)
    (same : stock m'.bus = stock m.bus) : Stocked std image m' where
  nmos := nmos
  standard := (congrArg (·.1.m_std) same).trans stocked.standard
  paddles := (congrArg (·.1.m_analogConnections) same).trans stocked.paddles
  cart := (congrArg (·.2) same).trans stocked.cart

theorem Stocked.step (stocked : Stocked std image m) : Stocked std image m.schedulerStep.2 := by
  obtain ⟨t, -, runs⟩ := cpuStep_tree m.state
  obtain ⟨-, -, bus, nmos⟩ := runs m rfl stocked.nmos
  rw [schedulerStep_eq]
  refine stocked.of_stock nmos ((end_stock _ _).trans ?_)
  rw [bus]
  have begun : stock m.bus.begin = stock m.bus := rfl
  exact Tree.run_keeps (fun b addr h => (read8_stock b addr).trans h)
    (fun b addr v h => (write8_stock b addr v).trans h) t begun

theorem Stocked.event (stocked : Stocked std image m) (e : Event) : Stocked std image (does m e) := by
  cases e with
  | step => exact stocked.step
  | input i =>
    cases i with
    | joystick port bits => exact ⟨stocked.nmos, stocked.standard, stocked.paddles, stocked.cart⟩
    | key name down =>
      change Stocked std image (m.onKey name down).2
      unfold Machine.onKey
      dsimp only
      repeat' split
      all_goals exact ⟨stocked.nmos, stocked.standard, stocked.paddles, stocked.cart⟩

/-- The bus when everything but the CPU has been reset. -/
def resetBus (m : Machine) : A2600Bus :=
  { m.bus with
    m_tia := m.bus.m_tia.reset
    m_riot := m.bus.m_riot.reset
    m_cart := m.bus.m_cart.map Cart.reset }.resetClock

/-- The CPU then reads its reset vector. -/
theorem onReset_bus (m : Machine) : m.onReset.bus = (((resetBus m).read8 0xFFFC).2.read8 0xFFFD).2 := rfl

theorem Stocked.reset (stocked : Stocked std image m) : Stocked std image m.onReset := by
  refine stocked.of_stock stocked.nmos ?_
  rw [onReset_bus, read8_stock, read8_stock]
  have again : (m.bus.m_cart.map Cart.reset).map Cart.reset = m.bus.m_cart.map Cart.reset := by
    rw [Option.map_map]
    rfl
  exact congrArg (Prod.mk m.bus.m_tia.pins) again

theorem insertCartridge_eq {image : List Byte} {cart : Cart} (takes : cartOf image = some cart) (m : Machine) :
    (m.insertCartridge image).2 = Machine.onReset { m with bus := { m.bus with m_cart := some cart } } := by
  obtain ⟨type, detected, made⟩ := Option.bind_eq_some_iff.mp takes
  unfold Machine.insertCartridge
  rw [detected]
  dsimp only
  rw [made]

theorem Stocked.insert (stocked : Stocked std image m) {image' : List Byte} {cart : Cart}
    (takes : cartOf image' = some cart) :
    Stocked std (some image') { m with bus := { m.bus with m_cart := some cart } } where
  nmos := stocked.nmos
  standard := stocked.standard
  paddles := stocked.paddles
  cart := by
    change some cart.reset = cartOf image'
    rw [takes, cartOf_reset takes]

theorem Stocked.remove (stocked : Stocked std image m) :
    Stocked std none { m with bus := { m.bus with m_cart := none } } :=
  ⟨stocked.nmos, stocked.standard, stocked.paddles, rfl⟩

theorem Lived.stocked (lived : Lived std image m) : Stocked std image m := by
  induction lived with
  | created => exact ⟨rfl, rfl, rfl, rfl⟩
  | inserted _ takes ih =>
    rw [insertCartridge_eq takes]
    exact (ih.insert takes).reset
  | removed _ ih => exact ih.remove.reset
  | reset _ ih => exact ih.reset
  | event _ e ih => exact ih.event e

end

/-! ## After a reset -/

/-- Two buses that differ also in what an access of the cartridge sets. -/
def Loose (b b' : A2600Bus) : Prop :=
  ∃ riot fault access bus, b' = { b with m_riot := riot, fault := fault, m_access := access, m_dataBus := bus } ∧
    Apart b.m_riot riot

/-- A read of the cartridge, by both. -/
theorem Loose.read_cart {b b' : A2600Bus} (loose : Loose b b') (addr : BitVec 32)
    (cart : A2600Bus.target ((addr &&& 0x1FFF).setWidth 16) = .cart) :
    (b'.read8 addr).1 = (b.read8 addr).1 ∧ Loose (b.read8 addr).2 (b'.read8 addr).2 ∧
      (b'.read8 addr).2.m_dataBus = (b.read8 addr).2.m_dataBus ∧
      (b.read8 addr).2.m_tia = b.m_tia ∧ (b.read8 addr).2.m_riot = b.m_riot := by
  obtain ⟨riot, fault, access, bus, rfl, apart⟩ := loose
  unfold A2600Bus.read8
  dsimp only
  unfold A2600Bus.readAt
  rw [cart]
  dsimp only
  unfold A2600Bus.readCart
  dsimp only
  split
  · exact ⟨rfl, ⟨riot, fault, access + 1, _, rfl, apart⟩, rfl, rfl, rfl⟩
  · exact ⟨rfl, ⟨riot, _, access + 1, _, rfl, apart⟩, rfl, rfl, rfl⟩

theorem Loose.begin {b b' : A2600Bus} (loose : Loose b b') (bus : b'.m_dataBus = b.m_dataBus) :
    Alike Apart b.begin b'.begin := by
  obtain ⟨riot, fault, access, value, rfl, apart⟩ := loose
  have same : value = b.m_dataBus := bus
  rw [same]
  exact ⟨riot, fault, rfl, apart⟩

section
variable {std : Standard} {image : Option (List Byte)} {m m' : Machine}

end

/-- A new machine whose inputs may have been used. -/
inductive Unused (std : Standard) : Machine → Prop where
  | created : Unused std (Machine.create std)
  | input {m : Machine} (unused : Unused std m) (i : Input) : Unused std (take m i)

theorem Unused.lived {std : Standard} {m : Machine} (unused : Unused std m) : Lived std none m := by
  induction unused with
  | created => exact .created
  | input _ i ih => exact ih.event (.input i)

def setRegisters (m : Machine) (a x y : Byte) : Machine := { m with state := { m.state with a := a, x := x, y := y } }

/-- `LDA #$10`, `STA $0294` (the timer, at one cycle a tick), `LDA $0284`, and NOPs. -/
def timing : List Byte :=
  [0xA9, 0x10, 0x8D, 0x94, 0x02, 0xAD, 0x84, 0x02, 0xEA, 0xEA, 0xEA, 0xEA, 0x00, 0x10, 0x00, 0x10]

def timed : Machine := ((Machine.create .NTSC).insertCartridge timing).2

end Mmemu.Guarantees.ConsoleReset
