import Mathlib.Logic.Function.Iterate
import Mmemu.Source.Atari2600
import Mmemu.Source.Cpu6502Accesses

/-!
# Lock step

TIA, RIOT and CPU of an Atari 2600 are at the same cycle after each step. Within a step the chips are brought
up to the cycle of a read, and to the last cycles of the instruction for its writes, which it makes at most
one of in each cycle: so no clock has to run backwards.
-/
namespace Mmemu.Guarantees.LockStep
open Mmemu.Source.TiaCore (Chip Tia H_CLOCKS H_BLANK_CLOCKS WSYNC RSYNC)
open Mmemu.Source.Riot6532 (Riot)
open Mmemu.Source.Atari2600
open Mmemu.Source
open Mmemu.Library.AccessTrees (Tree)

/-! ## The beam -/

/-- Where the TIA is in the picture, how long it has run, and whether it halts the CPU. -/
structure Beam where
  hctr : ℕ
  timestamp : ℕ
  halt : Bool
  lines : ℕ

def beam (t : Chip) : Beam := ⟨t.m_hctr, t.m_timestamp, t.m_halt, t.lines⟩

/-- A colour clock later. -/
def Beam.next (b : Beam) : Beam :=
  if b.hctr + 1 ≥ H_CLOCKS then ⟨0, b.timestamp + 1, false, b.lines + 1⟩
  else ⟨b.hctr + 1, b.timestamp + 1, b.halt, b.lines⟩

theorem beam_ite {p : Prop} [Decidable p] {t t' : Chip} {b : Beam} (yes : beam t = b) (no : beam t' = b) :
    beam (if p then t else t') = b := by
  split
  · exact yes
  · exact no

section
variable (t : Chip)

theorem delayedWrite_beam (e : Mmemu.Source.TiaCore.Entry) : beam (t.delayedWrite e) = beam t := by
  unfold Chip.delayedWrite
  repeat refine beam_ite rfl ?_
  rfl

theorem executeDelayed_beam : beam t.executeDelayed = beam t := by
  have writes (due : List Mmemu.Source.TiaCore.Entry) (t : Chip) : beam (due.foldl Chip.delayedWrite t) = beam t := by
    induction due generalizing t with
    | nil => rfl
    | cons e due ih => exact (ih _).trans (delayedWrite_beam t e)
  exact writes _ _

theorem tickMovement_beam : beam t.tickMovement = beam t := by
  unfold Chip.tickMovement
  split <;> rfl

theorem tickHblank_beam : beam t.tickHblank = beam t := by
  have edges (t : Chip) : beam (
      if t.m_hctr = 0 then { t with m_extendedHblank := false }
      else if t.m_hctr = H_BLANK_CLOCKS - 1 then
        if t.m_extendedHblank then t else { t with m_hblank := false }
      else if t.m_hctr = H_BLANK_CLOCKS + 7 then
        if t.m_extendedHblank then { t with m_hblank := false } else t
      else t) = beam t :=
    beam_ite rfl (beam_ite (beam_ite rfl rfl) (beam_ite (beam_ite rfl rfl) rfl))
  unfold Chip.tickHblank
  exact beam_ite (edges _) (edges _)

theorem collide_beam : beam t.collide = beam t := by
  unfold Chip.collide
  split <;> rfl

theorem cycleOne_beam : beam t.cycleOne = (beam t).next := by
  have ticked (t : Chip) : beam (if t.m_hblank then t.tickHblank else t.tickHframe) = beam t := by
    split
    · exact tickHblank_beam t
    · rfl
  have ends (t : Chip) (t' : Chip) (ran : t' = if t.m_hctr + 1 ≥ H_CLOCKS then t.nextLine
      else { t with m_hctr := t.m_hctr + 1 }) :
      beam { t' with m_timestamp := t'.m_timestamp + 1 } = (beam t).next := by
    rw [ran]
    unfold Beam.next beam
    dsimp only
    split <;> rfl
  unfold Chip.cycleOne
  dsimp only
  rw [ends _ _ rfl, collide_beam, ticked, tickMovement_beam, executeDelayed_beam]

theorem clock_beam (n : ℕ) : beam (t.clock n) = Beam.next^[n] (beam t) := by
  induction n generalizing t with
  | zero => rfl
  | succ n ih => rw [Chip.clock, ih, cycleOne_beam, Function.iterate_succ_apply]

end

/-- So many colour clocks later. -/
def Beam.later (b : Beam) (n : ℕ) : Beam where
  hctr := (b.hctr + n) % H_CLOCKS
  timestamp := b.timestamp + n
  halt := b.halt && b.hctr + n < H_CLOCKS
  lines := b.lines + (b.hctr + n) / H_CLOCKS

theorem Beam.next_later {b : Beam} (inLine : b.hctr < H_CLOCKS) (n : ℕ) : Beam.next^[n] b = b.later n := by
  induction n with
  | zero =>
    have here : b.hctr % H_CLOCKS = b.hctr := Nat.mod_eq_of_lt inLine
    have line : b.hctr / H_CLOCKS = 0 := Nat.div_eq_of_lt inLine
    simp [later, here, line, inLine]
  | succ n ih =>
    rw [Function.iterate_succ_apply', ih]
    unfold next later H_CLOCKS
    unfold H_CLOCKS at inLine
    dsimp only
    split
    · rename_i ends
      have hctr : (b.hctr + (n + 1)) % 228 = 0 := by omega
      have lines : (b.hctr + (n + 1)) / 228 = (b.hctr + n) / 228 + 1 := by omega
      have past : ¬ b.hctr + (n + 1) < 228 := by omega
      rw [hctr, lines, decide_eq_false past, Bool.and_false]
      rfl
    · rename_i within
      have hctr : (b.hctr + (n + 1)) % 228 = (b.hctr + n) % 228 + 1 := by omega
      have lines : (b.hctr + (n + 1)) / 228 = (b.hctr + n) / 228 := by omega
      have same : b.hctr + (n + 1) < 228 ↔ b.hctr + n < 228 := by omega
      rw [hctr, lines, decide_eq_decide.mpr same]
      rfl

theorem clock_later {t : Chip} (inLine : t.m_hctr < H_CLOCKS) (n : ℕ) : beam (t.clock n) = (beam t).later n := by
  rw [clock_beam]
  exact Beam.next_later inLine n

/-- The beam after a register write. -/
def Beam.written (b : Beam) (address : ℕ) : Beam :=
  if address = WSYNC then { b with halt := true }
  else if address = RSYNC then { b with hctr := H_CLOCKS - 3 }
  else b

theorem write_beam (t : Chip) (address : ℕ) (value : BitVec 8) :
    beam (t.write address value) = (beam t).written address := by
  unfold Chip.write Beam.written
  rw [apply_ite beam, apply_ite beam]
  refine if_congr Iff.rfl rfl (if_congr Iff.rfl rfl ?_)
  repeat refine beam_ite rfl ?_
  rfl

theorem readRegister_beam (t : Chip) (pins : Mmemu.Source.TiaCore.Pins) (reg : ℕ) :
    beam (t.readRegister pins reg).2 = beam t := by
  unfold Chip.readRegister
  repeat' split
  all_goals rfl

/-! ## The chips -/

/-- TIA and RIOT are at one cycle. RIOT's count of cycles is one of 64 bits. -/
structure Synced (b : A2600Bus) : Prop where
  time : b.m_tia.chip.m_timestamp = 3 * b.m_tiaCycle
  third : 3 ∣ b.m_tia.chip.m_hctr
  inLine : b.m_tia.chip.m_hctr < H_CLOCKS
  riot : b.m_tiaCycle < 2 ^ 64 → b.m_riot.m_lastCycle = BitVec.ofNat 64 b.m_tiaCycle

theorem sync_lastCycle (r : Riot) (cycle : BitVec 64) :
    (r.sync cycle).m_lastCycle = if cycle ≤ r.m_lastCycle then r.m_lastCycle else cycle := by
  unfold Riot.sync
  split <;> rfl

theorem syncTo_tiaCycle (b : A2600Bus) (cycle : ℕ) : (b.syncTo cycle).m_tiaCycle = max b.m_tiaCycle cycle := by
  unfold A2600Bus.syncTo
  dsimp only
  split
  · rename_i ahead
    exact (Nat.max_eq_right (Nat.le_of_lt ahead)).symm
  · rename_i past
    exact (Nat.max_eq_left (Nat.not_lt.mp past)).symm

/-- The colour clocks that the TIA is behind. -/
theorem syncTo_beam {b : A2600Bus} (inLine : b.m_tia.chip.m_hctr < H_CLOCKS) (cycle : ℕ) :
    beam (b.syncTo cycle).m_tia.chip = (beam b.m_tia.chip).later (3 * (cycle - b.m_tiaCycle)) := by
  unfold A2600Bus.syncTo
  dsimp only
  split
  · rw [Nat.mul_comm]
    exact clock_later inLine _
  · rename_i past
    have none_ : cycle - b.m_tiaCycle = 0 := by omega
    rw [none_]
    exact (clock_later inLine 0)

theorem Synced.syncTo {b : A2600Bus} (synced : Synced b) (cycle : ℕ) : Synced (b.syncTo cycle) := by
  have at_ := syncTo_beam synced.inLine cycle
  have time := congrArg Beam.timestamp at_
  have hctr := congrArg Beam.hctr at_
  have third := synced.third
  unfold beam Beam.later H_CLOCKS at time hctr
  dsimp only at time hctr
  refine ⟨?_, ?_, ?_, ?_⟩
  · rw [syncTo_tiaCycle, time, synced.time]
    omega
  · rw [hctr]
    omega
  · rw [hctr]
    exact Nat.mod_lt _ (by decide)
  · rw [syncTo_tiaCycle]
    intro small
    have last := synced.riot (by omega)
    have sync : (b.syncTo cycle).m_riot.m_lastCycle = (b.m_riot.sync (BitVec.ofNat 64 cycle)).m_lastCycle := by
      unfold A2600Bus.syncTo
      dsimp only
      split <;> rfl
    have order : BitVec.ofNat 64 cycle ≤ BitVec.ofNat 64 b.m_tiaCycle ↔ cycle ≤ b.m_tiaCycle := by
      rw [BitVec.le_def, BitVec.toNat_ofNat, BitVec.toNat_ofNat]
      omega
    rw [sync, sync_lastCycle, last]
    split
    · rename_i past
      rw [Nat.max_eq_left (order.mp past)]
    · rename_i ahead
      have later : b.m_tiaCycle ≤ cycle := by
        have not_ := mt order.mpr ahead
        omega
      rw [Nat.max_eq_right later]

theorem syncTo_frame (b : A2600Bus) (cycle : ℕ) : ∃ tia riot time,
    b.syncTo cycle = { b with m_tia := tia, m_riot := riot, m_tiaCycle := time } := by
  unfold A2600Bus.syncTo
  dsimp only
  split
  · exact ⟨_, _, _, rfl⟩
  · exact ⟨_, _, _, rfl⟩

theorem riot_read_lastCycle (r : Riot) (a : BitVec 16) : (r.read a).2.m_lastCycle = r.m_lastCycle := by
  unfold Riot.read
  dsimp only
  split
  · rfl
  · split
    · dsimp only
      split <;> rfl
    · dsimp only
      split <;> rfl
    · rfl
    · rfl
    · rfl

theorem riot_write_lastCycle (r : Riot) (a : BitVec 16) (v : Byte) : (r.write a v).m_lastCycle = r.m_lastCycle := by
  unfold Riot.write
  split
  · rfl
  · split
    · split <;> rfl
    · split <;> rfl

/-- A cartridge is read and written beside the chips. -/
theorem readCart_frame (b : A2600Bus) (a : BitVec 16) : ∃ cart fault,
    (b.readCart a).2 = { b with m_cart := cart, fault := fault } := by
  unfold A2600Bus.readCart
  split
  · exact ⟨b.m_cart, b.fault, rfl⟩
  · exact ⟨_, _, rfl⟩

theorem writeCart_frame (b : A2600Bus) (write : Cart → Option Cart) : ∃ cart fault,
    b.writeCart write = { b with m_cart := cart, fault := fault } := by
  unfold A2600Bus.writeCart
  split
  · exact ⟨b.m_cart, b.fault, rfl⟩
  · split
    · exact ⟨b.m_cart, true, rfl⟩
    · exact ⟨_, b.fault, rfl⟩

theorem Synced.beam_eq {b : A2600Bus} (synced : Synced b) {tia : Tia} {riot : Riot}
    (same : beam tia.chip = beam b.m_tia.chip) (last : riot.m_lastCycle = b.m_riot.m_lastCycle) :
    Synced { b with m_tia := tia, m_riot := riot } := by
  have hctr : tia.chip.m_hctr = b.m_tia.chip.m_hctr := congrArg Beam.hctr same
  have timestamp : tia.chip.m_timestamp = b.m_tia.chip.m_timestamp := congrArg Beam.timestamp same
  refine ⟨timestamp.trans synced.time, ?_, ?_, fun small => last.trans (synced.riot small)⟩
  · exact hctr.symm ▸ synced.third
  · exact hctr.symm ▸ synced.inLine

/-! ## The accesses of an instruction -/

/-- An instruction that began at cycle `base` has made `n` accesses. -/
structure Flight (base : ℕ) (old : List ℕ) (n : ℕ) (b : A2600Bus) : Prop extends Synced b where
  cycles : b.m_cycles = base
  access : b.m_access = n
  ahead : b.m_tiaCycle = base ∨ b.m_tiaCycle < base + n
  held : b.m_pending.length ≤ n
  applied : b.done.applied ++ b.m_pending = b.done.writes
  halt : b.m_tia.chip.m_halt = false
  times : ∃ new, b.done.tiaTimes = old ++ new ∧ ∀ t ∈ new, t + 3 ≤ 3 * (base + n)

section
variable {base n : ℕ} {old : List ℕ} {b : A2600Bus}

/-- An access that leaves the chips alone. -/
theorem Flight.next (f : Flight base old n b) (cart : Option Cart) (fault : Bool) (bus : Byte)
    (reads : List (BitVec 16 × Byte)) :
    Flight base old (n + 1) { b with
      m_cart := cart, fault := fault, m_dataBus := bus, m_access := b.m_access + 1
      done := { b.done with reads := reads } } where
  toSynced := ⟨f.time, f.third, f.inLine, f.riot⟩
  cycles := f.cycles
  access := congrArg (· + 1) f.access
  ahead := f.ahead.imp_right Nat.lt_succ_of_lt
  held := Nat.le_succ_of_le f.held
  applied := f.applied
  halt := f.halt
  times := by
    obtain ⟨new, times, early⟩ := f.times
    exact ⟨new, times, fun t made => Nat.le_trans (early t made) (by omega)⟩

/-- An access for which the chips are brought up to its cycle. -/
theorem Flight.synced (f : Flight base old n b) : Synced (b.syncTo (base + n)) ∧
    (b.syncTo (base + n)).m_tiaCycle = base + n ∧ (b.syncTo (base + n)).m_tia.chip.m_halt = false := by
  have halt := congrArg Beam.halt (syncTo_beam f.inLine (base + n))
  refine ⟨f.toSynced.syncTo (base + n), ?_, ?_⟩
  · rw [syncTo_tiaCycle]
    have ahead := f.ahead
    omega
  · exact halt.trans (by simp only [beam, Beam.later, f.halt, Bool.false_and])

/-- What is left of an instruction whose access found the chips at its cycle. -/
theorem Flight.accessed (f : Flight base old n b) {tia tia' : Tia} {riot riot' : Riot} {time : ℕ} {times : List ℕ}
    (at_ : b.syncTo (base + n) = { b with m_tia := tia, m_riot := riot, m_tiaCycle := time })
    (same : beam tia'.chip = beam tia.chip) (last : riot'.m_lastCycle = riot.m_lastCycle)
    (recorded : times = b.done.tiaTimes ∨ times = b.done.tiaTimes ++ [tia.chip.m_timestamp])
    (bus : Byte) (reads : List (BitVec 16 × Byte)) :
    Flight base old (n + 1) { b with
      m_tia := tia', m_riot := riot', m_tiaCycle := time, m_dataBus := bus, m_access := b.m_access + 1
      done := { b.done with reads := reads, tiaTimes := times } } := by
  obtain ⟨synced, level, halt⟩ := f.synced
  rw [at_] at synced level halt
  have after := synced.beam_eq same last
  have reached : time = base + n := level
  have clocks : tia.chip.m_timestamp = 3 * time := synced.time
  refine ⟨⟨after.time, after.third, after.inLine, after.riot⟩, f.cycles, congrArg (· + 1) f.access, ?_,
    Nat.le_succ_of_le f.held, f.applied, ?_, ?_⟩
  · exact .inr (by rw [reached]; exact Nat.lt_succ_self _)
  · exact (congrArg Beam.halt same).trans halt
  · obtain ⟨new, before, early⟩ := f.times
    have early' : ∀ t ∈ new, t + 3 ≤ 3 * (base + (n + 1)) := fun t made =>
      Nat.le_trans (early t made) (by omega)
    rcases recorded with unchanged | one
    · exact ⟨new, unchanged.trans before, early'⟩
    · refine ⟨new ++ [tia.chip.m_timestamp], ?_, fun t made => ?_⟩
      · rw [← List.append_assoc, ← before]
        exact one
      · rcases List.mem_append.mp made with made | now
        · exact early' t made
        · rw [List.mem_singleton.mp now, clocks, reached]
          omega

/-- The chips do not depend on how many accesses there were. -/
theorem syncTo_access (b : A2600Bus) (cycle k : ℕ) :
    { b with m_access := k }.syncTo cycle = { b.syncTo cycle with m_access := k } := by
  unfold A2600Bus.syncTo
  dsimp only
  split <;> rfl

theorem Flight.read (f : Flight base old n b) (addr : BitVec 32) : Flight base old (n + 1) (b.read8 addr).2 := by
  unfold A2600Bus.read8
  dsimp only
  unfold A2600Bus.readAt
  have begun : b.m_cycles + b.m_access = base + n := by rw [f.cycles, f.access]
  rw [begun]
  split
  · obtain ⟨cart, fault, same⟩ := readCart_frame { b with m_access := b.m_access + 1 } ((addr &&& 0x1FFF).setWidth 16)
    rw [same]
    exact f.next cart fault _ _
  · obtain ⟨tia, riot, time, at_⟩ := syncTo_frame b (base + n)
    rw [syncTo_access, at_]
    exact f.accessed at_ (readRegister_beam tia.chip tia.pins _) rfl (.inr rfl) _ _
  · exact f.next b.m_cart b.fault _ _
  · obtain ⟨tia, riot, time, at_⟩ := syncTo_frame b (base + n)
    rw [syncTo_access, at_]
    exact f.accessed at_ rfl (riot_read_lastCycle riot _) (.inl rfl) _ _

/-- RAM is written at once. A register's write is held. -/
theorem Flight.write (f : Flight base old n b) (addr : BitVec 32) (v : Byte) :
    Flight base old (n + 1) (b.write8 addr v) := by
  have held (cart : Option Cart) (fault : Bool) (w : BitVec 16 × Byte) : Flight base old (n + 1) { b with
      m_cart := cart, fault := fault, m_dataBus := v, m_access := b.m_access + 1
      m_pending := b.m_pending ++ [w], done := { b.done with writes := b.done.writes ++ [w] } } := by
    have next := f.next cart fault v b.done.reads
    have synced := next.toSynced
    refine ⟨⟨synced.time, synced.third, synced.inLine, synced.riot⟩, next.cycles, next.access, next.ahead, ?_, ?_,
      next.halt, next.times⟩
    · rw [List.length_append]
      exact Nat.succ_le_succ f.held
    · rw [← List.append_assoc]
      exact congrArg (· ++ [w]) f.applied
  unfold A2600Bus.write8
  dsimp only
  split
  · obtain ⟨cart, fault, same⟩ := writeCart_frame { b with m_access := b.m_access + 1, m_dataBus := v }
      fun cart => cart.write (((addr &&& 0x1FFF).setWidth 16) &&& 0x0FFF).toNat v
    rw [same]
    exact f.next cart fault v b.done.reads
  all_goals
    obtain ⟨cart, fault, same⟩ := writeCart_frame { b with m_access := b.m_access + 1, m_dataBus := v }
      fun cart => cart.lowWrite ((addr &&& 0x1FFF).setWidth 16).toNat v
    rw [same]
  · have next := f.next cart fault v b.done.reads
    have kept := next.toSynced.beam_eq rfl (riot_write_lastCycle b.m_riot ((addr &&& 0x1FFF).setWidth 16) v)
    exact ⟨kept, next.cycles, next.access, next.ahead, next.held, next.applied, next.halt, next.times⟩
  · exact held cart fault _
  · exact held cart fault _

end

/-- The machine when the CPU has made its step, and the cycles that it took. -/
def cpuStep (m : Machine) : ℕ × Machine := Cpu6502.step wiring { m with bus := m.bus.begin }

instance : Nonempty A2600Bus := ⟨(Machine.create .NTSC).bus⟩

/-- The step is one of an NMOS core: a tree of accesses to the bus, for all that is in the registers. -/
theorem cpuStep_tree (s : Cpu6502.CPU6502State) :
    ∃ t : Tree (BitVec 32) (BitVec 8) (ℕ × Cpu6502.CPU6502State), t.Paced (fun r => r.1) 0 ∧
      ∀ m : Machine, m.state = s → m.cmos = false →
        (cpuStep m).1 = (t.run Cpu6502.ports m.bus.begin).1.1 ∧
        (cpuStep m).2.state = (t.run Cpu6502.ports m.bus.begin).1.2 ∧
        (cpuStep m).2.bus = (t.run Cpu6502.ports m.bus.begin).2 ∧ (cpuStep m).2.cmos = false := by
  obtain ⟨t, paced, runs⟩ := Cpu6502.step_makes (w := wiring) rfl rfl rfl s
  refine ⟨t, paced, fun m state nmos => ?_⟩
  obtain ⟨kept, ran⟩ := runs m.bus.begin (m.curOp, m.branchTarget)
  have same : { m with bus := m.bus.begin } = s.on m.bus.begin (m.curOp, m.branchTarget) := by
    rw [Cpu6502.CPU6502State.on, ← nmos, ← state]
  rw [cpuStep, same, ran]
  exact ⟨rfl, rfl, rfl, rfl⟩

/-- The bus between two steps. -/
structure Settled (b : A2600Bus) : Prop extends Synced b where
  level : b.m_tiaCycle = b.m_cycles
  pending : b.m_pending = []
  applied : b.done.applied = b.done.writes
  halt : b.m_tia.chip.m_halt = false

theorem Settled.begin {b : A2600Bus} (settled : Settled b) : Flight b.m_cycles b.done.tiaTimes 0 b.begin where
  toSynced := ⟨settled.time, settled.third, settled.inLine, settled.riot⟩
  cycles := rfl
  access := rfl
  ahead := .inl settled.level
  held := Nat.le_of_eq (congrArg List.length settled.pending)
  applied := by
    change b.done.applied ++ b.m_pending = b.done.writes
    rw [settled.pending, List.append_nil, settled.applied]
  halt := settled.halt
  times := ⟨[], (List.append_nil _).symm, fun _ none_ => absurd none_ (List.not_mem_nil)⟩

/-- The CPU makes no more accesses than it takes cycles. -/
theorem Settled.cpuStep {m : Machine} (settled : Settled m.bus) (nmos : m.cmos = false) :
    ∃ n, n ≤ (cpuStep m).1 ∧ Flight m.bus.m_cycles m.bus.done.tiaTimes n (cpuStep m).2.bus := by
  obtain ⟨t, paced, runs⟩ := cpuStep_tree m.state
  obtain ⟨cost, -, bus, -⟩ := runs m rfl nmos
  rw [cost, bus]
  exact Tree.run_counted (fun n b addr f => f.read addr) (fun n b addr v f => f.write addr v) paced settled.begin

/-! ## The end of an instruction -/

def Beam.applied (b : Beam) (w : BitVec 16 × Byte) : Beam :=
  if w.1 &&& 0x80 = 0 then b.written (w.1 &&& 0x3F).toNat else b

section
variable (b : Beam) (w : BitVec 16 × Byte)

/-- A write takes no time, and does not begin a line. -/
theorem Beam.applied_same : (b.applied w).timestamp = b.timestamp ∧ (b.applied w).lines = b.lines ∧
    ((b.applied w).hctr = b.hctr ∨ (b.applied w).hctr = H_CLOCKS - 3) ∧ (b.halt → (b.applied w).halt) := by
  unfold applied written
  split
  · split
    · exact ⟨rfl, rfl, .inl rfl, fun _ => rfl⟩
    · split
      · exact ⟨rfl, rfl, .inr rfl, id⟩
      · exact ⟨rfl, rfl, .inl rfl, id⟩
  · exact ⟨rfl, rfl, .inl rfl, id⟩

end

theorem apply_frame (b : A2600Bus) (w : BitVec 16 × Byte) : ∃ tia riot times,
    b.apply w = { b with
      m_tia := tia, m_riot := riot
      done := { b.done with applied := b.done.applied ++ [w], tiaTimes := times } } ∧
    beam tia.chip = (beam b.m_tia.chip).applied w ∧ riot.m_lastCycle = b.m_riot.m_lastCycle ∧
    (times = b.done.tiaTimes ∨ times = b.done.tiaTimes ++ [b.m_tia.chip.m_timestamp]) := by
  unfold A2600Bus.apply Beam.applied
  dsimp only
  split
  · exact ⟨_, _, _, rfl, write_beam _ _ _, rfl, .inr rfl⟩
  · exact ⟨_, _, _, rfl, rfl, riot_write_lastCycle _ _ _, .inl rfl⟩

theorem Synced.apply {b : A2600Bus} (synced : Synced b) (w : BitVec 16 × Byte) : Synced (b.apply w) := by
  obtain ⟨tia, riot, times, made, at_, last, -⟩ := apply_frame b w
  obtain ⟨timestamp, -, hctr, -⟩ := (beam b.m_tia.chip).applied_same w
  rw [← at_] at timestamp hctr
  have hctr : tia.chip.m_hctr = b.m_tia.chip.m_hctr ∨ tia.chip.m_hctr = H_CLOCKS - 3 := hctr
  rw [made]
  refine ⟨timestamp.trans synced.time, ?_, ?_, fun small => last.trans (synced.riot small)⟩
  · rcases hctr with same | late
    · exact same.symm ▸ synced.third
    · exact late.symm ▸ by decide
  · rcases hctr with same | late
    · exact same.symm ▸ synced.inLine
    · exact late.symm ▸ by decide

/-- The held writes `ws` have been applied by cycle `stop`. -/
structure Replayed (stop : ℕ) (ws : List (BitVec 16 × Byte)) (b b' : A2600Bus) : Prop extends Synced b' where
  cycles : b'.m_cycles = b.m_cycles
  tiaCycle : b'.m_tiaCycle = if ws = [] then b.m_tiaCycle else stop - 1
  applied : b'.done.applied = b.done.applied ++ ws
  writes : b'.done.writes = b.done.writes
  times : ∃ new, b'.done.tiaTimes = b.done.tiaTimes ++ new ∧ ∀ t ∈ new, t + 3 ≤ 3 * stop

/-- One write, so many cycles before the end. -/
theorem Synced.replay {b : A2600Bus} (synced : Synced b) {stop cycle : ℕ} (before : b.m_tiaCycle < stop)
    (within : cycle < stop) (w : BitVec 16 × Byte) :
    Synced ((b.syncTo cycle).apply w) ∧ ((b.syncTo cycle).apply w).m_cycles = b.m_cycles ∧
      ((b.syncTo cycle).apply w).m_tiaCycle = max b.m_tiaCycle cycle ∧
      ((b.syncTo cycle).apply w).done.applied = b.done.applied ++ [w] ∧
      ((b.syncTo cycle).apply w).done.writes = b.done.writes ∧
      ∃ new, ((b.syncTo cycle).apply w).done.tiaTimes = b.done.tiaTimes ++ new ∧ ∀ t ∈ new, t + 3 ≤ 3 * stop := by
  have level := syncTo_tiaCycle b cycle
  have synced' := synced.syncTo cycle
  have clocks := synced'.time
  refine ⟨synced'.apply w, ?_⟩
  obtain ⟨tia, riot, times, made, -, -, recorded⟩ := apply_frame (b.syncTo cycle) w
  rw [made]
  obtain ⟨tia', riot', time, at_⟩ := syncTo_frame b cycle
  rw [at_] at level clocks recorded ⊢
  have level : time = max b.m_tiaCycle cycle := level
  have clocks : tia'.chip.m_timestamp = 3 * time := clocks
  refine ⟨rfl, level, rfl, rfl, ?_⟩
  rcases recorded with same | one
  · exact ⟨[], same.trans (List.append_nil _).symm, fun t none_ => absurd none_ List.not_mem_nil⟩
  · refine ⟨[tia'.chip.m_timestamp], one, fun t made => ?_⟩
    rw [List.mem_singleton.mp made, clocks]
    omega

theorem Synced.replayed {b : A2600Bus} (synced : Synced b) (stop : ℕ) (ws : List (BitVec 16 × Byte))
    (before : ws ≠ [] → b.m_tiaCycle < stop) : Replayed stop ws b (A2600Bus.applyPending stop ws b) := by
  induction ws generalizing b with
  | nil =>
    refine ⟨synced, rfl, rfl, (List.append_nil _).symm, rfl, [], (List.append_nil _).symm, fun t none_ => ?_⟩
    exact absurd none_ List.not_mem_nil
  | cons w ws ih =>
    have early := before (List.cons_ne_nil w ws)
    have within : stop - (ws.length + 1) < stop := by omega
    obtain ⟨synced', cycles, level, applied, writes, new, times, soon⟩ := synced.replay early within w
    have rest := ih synced' fun _ => by omega
    refine ⟨rest.toSynced, rest.cycles.trans cycles, ?_, ?_, rest.writes.trans writes, ?_⟩
    · have last := rest.tiaCycle
      rw [A2600Bus.applyPending, last, if_neg (List.cons_ne_nil w ws), level]
      split
      · rename_i none_
        rw [none_, List.length_nil]
        omega
      · rfl
    · rw [A2600Bus.applyPending, rest.applied, applied, List.append_assoc]
      rfl
    · obtain ⟨new', times', soon'⟩ := rest.times
      refine ⟨new ++ new', ?_, fun t made => ?_⟩
      · rw [A2600Bus.applyPending, times', times, List.append_assoc]
      · exact (List.mem_append.mp made).elim (soon t) (soon' t)

/-- The bus at cycle `stop`, when its CPU may be halted. -/
theorem Synced.stall {b : A2600Bus} (synced : Synced b) {stop : ℕ} (le : b.m_tiaCycle ≤ stop) :
    Synced (b.stall stop).2 ∧ (b.stall stop).1 < 76 ∧ (b.stall stop).2.m_tia.chip.m_halt = false ∧
      (b.stall stop).2.m_tiaCycle ≤ stop ∧ (b.stall stop).2.m_pending = b.m_pending ∧
      (b.stall stop).2.done = b.done := by
  unfold A2600Bus.stall
  split
  · have level := syncTo_tiaCycle b stop
    have synced' := synced.syncTo stop
    obtain ⟨tia, riot, time, at_⟩ := syncTo_frame b stop
    dsimp only
    rw [at_] at level synced' ⊢
    have third : 3 ∣ tia.chip.m_hctr := synced'.third
    refine ⟨⟨synced'.time, third, synced'.inLine, synced'.riot⟩, ?_, rfl, ?_, rfl, rfl⟩
    · unfold Mmemu.Source.TiaCore.Chip.clocksToLineEnd H_CLOCKS
      dsimp only
      omega
    · exact Nat.le_of_eq (level.trans (Nat.max_eq_right le))
  · rename_i running
    exact ⟨synced, Nat.zero_lt_succ 75, Bool.eq_false_iff.mpr running, le, rfl, rfl⟩

/-- A halted CPU goes on where the next line begins. -/
theorem Synced.stall_beam {b : A2600Bus} (synced : Synced b) {stop : ℕ} (last : stop = b.m_tiaCycle + 1)
    (halted : b.m_tia.chip.m_halt = true) :
    ((b.stall stop).2.syncTo (stop + (b.stall stop).1)).m_tia.chip.m_hctr = 0 ∧
      ((b.stall stop).2.syncTo (stop + (b.stall stop).1)).m_tia.chip.lines = b.m_tia.chip.lines + 1 := by
  have reached : b.m_tiaCycle ≤ stop := by omega
  have after := synced.stall reached
  have inLine := after.1.inLine
  have final := syncTo_beam inLine (stop + (b.stall stop).1)
  have hctr := congrArg Beam.hctr final
  have lines := congrArg Beam.lines final
  have at_ := syncTo_beam synced.inLine stop
  have hctr' := congrArg Beam.hctr at_
  have lines' := congrArg Beam.lines at_
  have level := syncTo_tiaCycle b stop
  have third := synced.third
  have within := synced.inLine
  revert hctr lines inLine
  unfold A2600Bus.stall
  rw [if_pos halted]
  unfold Mmemu.Source.TiaCore.Chip.clocksToLineEnd
  dsimp only
  unfold beam Beam.later H_CLOCKS at *
  dsimp only at *
  intro inLine hctr lines
  refine ⟨hctr.trans ?_, lines.trans ?_⟩
  · omega
  · omega

/-- What is left to do when the held writes have been applied. -/
def finish (stop : ℕ) (b : A2600Bus) : ℕ × A2600Bus :=
  let stalled := { b with m_pending := [] }.stall stop
  (stalled.1, { stalled.2 with m_cycles := stop + stalled.1 }.syncTo (stop + stalled.1))

theorem end_eq (b : A2600Bus) (c : ℕ) :
    b.end_ c = finish (b.m_cycles + c) (A2600Bus.applyPending (b.m_cycles + c) b.m_pending b) := rfl

theorem Synced.finished {b : A2600Bus} (synced : Synced b) {stop : ℕ} (le : b.m_tiaCycle ≤ stop)
    (applied : b.done.applied = b.done.writes) :
    Settled (finish stop b).2 ∧ (finish stop b).1 < 76 ∧ (finish stop b).2.done = b.done ∧
      (finish stop b).2.m_cycles = stop + (finish stop b).1 := by
  have cleared : Synced { b with m_pending := [] } := ⟨synced.time, synced.third, synced.inLine, synced.riot⟩
  obtain ⟨synced₂, short, running, before, pending, done⟩ := cleared.stall le
  unfold finish
  dsimp only
  generalize A2600Bus.stall { b with m_pending := [] } stop = stalled at *
  have synced₃ : Synced { stalled.2 with m_cycles := stop + stalled.1 } :=
    ⟨synced₂.time, synced₂.third, synced₂.inLine, synced₂.riot⟩
  have synced₄ := synced₃.syncTo (stop + stalled.1)
  have level := syncTo_tiaCycle { stalled.2 with m_cycles := stop + stalled.1 } (stop + stalled.1)
  have halt := congrArg Beam.halt (syncTo_beam synced₃.inLine (stop + stalled.1))
  obtain ⟨tia, riot, time, at_⟩ := syncTo_frame { stalled.2 with m_cycles := stop + stalled.1 } (stop + stalled.1)
  rw [at_] at synced₄ level halt ⊢
  refine ⟨⟨synced₄, ?_, pending, ?_, ?_⟩, short, done, rfl⟩
  · exact level.trans (Nat.max_eq_right (Nat.le_trans before (Nat.le_add_right _ _)))
  · change stalled.2.done.applied = stalled.2.done.writes
    rw [done]
    exact applied
  · refine halt.trans ?_
    change (stalled.2.m_tia.chip.m_halt && _) = false
    rw [running, Bool.false_and]

/-- The held writes when the instruction is over. -/
theorem Flight.replayed {base n c : ℕ} {old : List ℕ} {b : A2600Bus} (f : Flight base old n b) (enough : n ≤ c) :
    Replayed (base + c) b.m_pending b (A2600Bus.applyPending (base + c) b.m_pending b) ∧
      (A2600Bus.applyPending (base + c) b.m_pending b).m_tiaCycle ≤ base + c := by
  have ahead := f.ahead
  have held := f.held
  have replayed := f.toSynced.replayed (base + c) b.m_pending fun some_ => by
    have nonempty := List.length_pos_iff.mpr some_
    omega
  refine ⟨replayed, ?_⟩
  rw [replayed.tiaCycle]
  split
  · omega
  · omega

/-- The end of an instruction of `c` cycles. -/
theorem Flight.end_ {base n c : ℕ} {old : List ℕ} {b : A2600Bus} (f : Flight base old n b) (enough : n ≤ c) :
    Settled (b.end_ c).2 ∧ (b.end_ c).1 < 76 ∧ (b.end_ c).2.done.writes = b.done.writes ∧
      (b.end_ c).2.m_cycles = base + c + (b.end_ c).1 ∧
      ∃ new, (b.end_ c).2.done.tiaTimes = old ++ new ∧ ∀ t ∈ new, t + 3 ≤ 3 * (base + c) := by
  obtain ⟨replayed, before⟩ := f.replayed enough
  have applied := replayed.applied.trans (f.applied.trans replayed.writes.symm)
  obtain ⟨settled, short, done, cycles⟩ := replayed.toSynced.finished before applied
  rw [end_eq, f.cycles]
  refine ⟨settled, short, ?_, cycles, ?_⟩
  · rw [done]
    exact replayed.writes
  · rw [done]
    obtain ⟨new, times, soon⟩ := f.times
    obtain ⟨new', times', soon'⟩ := replayed.times
    refine ⟨new ++ new', ?_, fun t made => ?_⟩
    · rw [times', times, List.append_assoc]
    · rcases List.mem_append.mp made with made | made
      · exact Nat.le_trans (soon t made) (by omega)
      · exact soon' t made

/-! ## WSYNC -/

theorem applyPending_append (stop : ℕ) (xs ys : List (BitVec 16 × Byte)) (b : A2600Bus) :
    A2600Bus.applyPending stop (xs ++ ys) b =
      A2600Bus.applyPending stop ys (A2600Bus.applyPending (stop - ys.length) xs b) := by
  induction xs generalizing b with
  | nil => rfl
  | cons w xs ih =>
    have same : stop - ((xs ++ ys).length + 1) = stop - ys.length - (xs.length + 1) := by
      rw [List.length_append]
      omega
    rw [List.cons_append, A2600Bus.applyPending, A2600Bus.applyPending, ih, same]

/-- The CPU is still halted in line `line`, or a later one has begun. -/
def Halted (line : ℕ) (b : Beam) : Prop := b.halt = true ∧ b.lines = line ∨ line < b.lines

theorem Halted.later {line : ℕ} {b : Beam} (halted : Halted line b) (n : ℕ) : Halted line (b.later n) := by
  rcases halted with ⟨halt, here⟩ | past
  · by_cases within : b.hctr + n < H_CLOCKS
    · have none_ : (b.hctr + n) / H_CLOCKS = 0 := Nat.div_eq_of_lt within
      refine .inl ⟨?_, ?_⟩
      · simp only [Beam.later, halt, within, decide_true, Bool.and_self]
      · simp only [Beam.later, none_, here, Nat.add_zero]
    · have one : 1 ≤ (b.hctr + n) / H_CLOCKS := (Nat.le_div_iff_mul_le (by decide)).mpr (by omega)
      refine .inr ?_
      change line < b.lines + (b.hctr + n) / H_CLOCKS
      omega
  · exact .inr (Nat.lt_of_lt_of_le past (Nat.le_add_right _ _))

theorem Halted.applied {line : ℕ} {b : Beam} (halted : Halted line b) (w : BitVec 16 × Byte) :
    Halted line (b.applied w) := by
  obtain ⟨-, lines, -, halt⟩ := b.applied_same w
  rcases halted with ⟨halt', here⟩ | past
  · exact .inl ⟨halt halt', lines.trans here⟩
  · exact .inr (lines ▸ past)

/-- A register write of WSYNC. -/
def isWsync (w : BitVec 16 × Byte) : Prop := w.1 &&& 0x80 = 0 ∧ w.1 &&& 0x3F = 2

theorem Beam.applied_wsync (b : Beam) {w : BitVec 16 × Byte} (wsync : isWsync w) :
    b.applied w = { b with halt := true } := by
  unfold applied
  rw [if_pos wsync.1, wsync.2]
  rfl

/-- One of the held writes. -/
theorem replay_beam {b : A2600Bus} (synced : Synced b) (cycle : ℕ) (w : BitVec 16 × Byte) :
    beam ((b.syncTo cycle).apply w).m_tia.chip =
      ((beam b.m_tia.chip).later (3 * (cycle - b.m_tiaCycle))).applied w := by
  obtain ⟨tia, riot, times, made, at_, -, -⟩ := apply_frame (b.syncTo cycle) w
  rw [made, ← syncTo_beam synced.inLine]
  exact at_

theorem Synced.replay_all {b : A2600Bus} (synced : Synced b) (stop : ℕ) (ws : List (BitVec 16 × Byte)) :
    Synced (A2600Bus.applyPending stop ws b) := by
  induction ws generalizing b with
  | nil => exact synced
  | cons w ws ih => exact ih ((synced.syncTo _).apply w)

theorem Halted.replayed {line stop : ℕ} {ws : List (BitVec 16 × Byte)} {b : A2600Bus} (synced : Synced b)
    (halted : Halted line (beam b.m_tia.chip)) :
    Halted line (beam (A2600Bus.applyPending stop ws b).m_tia.chip) := by
  induction ws generalizing b with
  | nil => exact halted
  | cons w ws ih =>
    refine ih ((synced.syncTo _).apply w) ?_
    rw [replay_beam synced]
    exact (halted.later _).applied w

/-- The bus when the held writes up to one have been applied, before those after it. -/
def appliedUpTo (stop : ℕ) (before : List (BitVec 16 × Byte)) (w : BitVec 16 × Byte)
    (after : List (BitVec 16 × Byte)) (b : A2600Bus) : A2600Bus :=
  A2600Bus.applyPending (stop - after.length) (before ++ [w]) b

theorem Synced.halted {b : A2600Bus} (synced : Synced b) (stop : ℕ) (before after : List (BitVec 16 × Byte))
    {w : BitVec 16 × Byte} (wsync : isWsync w) :
    Halted (appliedUpTo stop before w after b).m_tia.chip.lines
      (beam (A2600Bus.applyPending stop (before ++ w :: after) b).m_tia.chip) := by
  have split_ : before ++ w :: after = (before ++ [w]) ++ after := by
    rw [List.append_assoc, List.singleton_append]
  rw [split_, applyPending_append]
  refine Halted.replayed (synced.replay_all _ _) (.inl ⟨?_, rfl⟩)
  rw [applyPending_append]
  have here := replay_beam (synced.replay_all (stop - after.length - [w].length) before)
    (stop - after.length - 1) w
  rw [Beam.applied_wsync _ wsync] at here
  exact congrArg Beam.halt here

/-! ## Clocks run forward -/

/-- No clock is further back than it was. -/
structure Forward (b b' : A2600Bus) : Prop where
  tia : b.m_tia.chip.m_timestamp ≤ b'.m_tia.chip.m_timestamp
  lines : b.m_tia.chip.lines ≤ b'.m_tia.chip.lines
  riot : b.m_riot.m_lastCycle ≤ b'.m_riot.m_lastCycle

theorem Forward.refl (b : A2600Bus) : Forward b b := ⟨Nat.le_refl _, Nat.le_refl _, BitVec.le_refl _⟩

theorem Forward.trans {b b' b'' : A2600Bus} (h : Forward b b') (h' : Forward b' b'') : Forward b b'' where
  tia := Nat.le_trans h.tia h'.tia
  lines := Nat.le_trans h.lines h'.lines
  riot := BitVec.le_trans h.riot h'.riot

theorem Beam.next_forward (b : Beam) (n : ℕ) :
    b.timestamp ≤ (Beam.next^[n] b).timestamp ∧ b.lines ≤ (Beam.next^[n] b).lines := by
  induction n generalizing b with
  | zero => exact ⟨Nat.le_refl _, Nat.le_refl _⟩
  | succ n ih =>
    have one : b.timestamp ≤ b.next.timestamp ∧ b.lines ≤ b.next.lines := by
      unfold next
      split
      · exact ⟨Nat.le_succ _, Nat.le_succ _⟩
      · exact ⟨Nat.le_succ _, Nat.le_refl _⟩
    have rest := ih b.next
    exact ⟨Nat.le_trans one.1 rest.1, Nat.le_trans one.2 rest.2⟩

section
variable (b : A2600Bus)

theorem syncTo_forward (cycle : ℕ) : Forward b (b.syncTo cycle) := by
  have riot (r : Riot) (at_ : BitVec 64) : r.m_lastCycle ≤ (r.sync at_).m_lastCycle := by
    rw [sync_lastCycle]
    split
    · exact BitVec.le_refl _
    · rename_i later
      exact BitVec.le_of_lt (BitVec.not_le.mp later)
  unfold A2600Bus.syncTo
  dsimp only
  split
  · have ran := clock_beam b.m_tia.chip ((cycle - b.m_tiaCycle) * 3)
    have forward := (beam b.m_tia.chip).next_forward ((cycle - b.m_tiaCycle) * 3)
    rw [← ran] at forward
    exact ⟨forward.1, forward.2, riot _ _⟩
  · exact ⟨Nat.le_refl _, Nat.le_refl _, riot _ _⟩

theorem apply_forward (w : BitVec 16 × Byte) : Forward b (b.apply w) := by
  obtain ⟨tia, riot, times, made, at_, last, -⟩ := apply_frame b w
  obtain ⟨timestamp, lines, -, -⟩ := (beam b.m_tia.chip).applied_same w
  rw [← at_] at timestamp lines
  rw [made]
  exact ⟨Nat.le_of_eq timestamp.symm, Nat.le_of_eq lines.symm, BitVec.le_of_eq last.symm⟩

theorem read8_forward (addr : BitVec 32) : Forward b (b.read8 addr).2 := by
  unfold A2600Bus.read8
  dsimp only
  unfold A2600Bus.readAt
  split
  · obtain ⟨cart, fault, same⟩ := readCart_frame { b with m_access := b.m_access + 1 } ((addr &&& 0x1FFF).setWidth 16)
    rw [same]
    exact ⟨Nat.le_refl _, Nat.le_refl _, BitVec.le_refl _⟩
  · have forward := syncTo_forward b (b.m_cycles + b.m_access)
    rw [syncTo_access]
    have same := readRegister_beam (b.syncTo (b.m_cycles + b.m_access)).m_tia.chip
      (b.syncTo (b.m_cycles + b.m_access)).m_tia.pins (((addr &&& 0x1FFF).setWidth 16) &&& 0x0F : BitVec 16).toNat
    have timestamp := congrArg Beam.timestamp same
    have lines := congrArg Beam.lines same
    exact ⟨Nat.le_trans forward.tia (Nat.le_of_eq timestamp.symm),
      Nat.le_trans forward.lines (Nat.le_of_eq lines.symm), forward.riot⟩
  · exact ⟨Nat.le_refl _, Nat.le_refl _, BitVec.le_refl _⟩
  · have forward := syncTo_forward b (b.m_cycles + b.m_access)
    rw [syncTo_access]
    exact ⟨forward.tia, forward.lines,
      BitVec.le_trans forward.riot (BitVec.le_of_eq (riot_read_lastCycle _ _).symm)⟩

theorem write8_forward (addr : BitVec 32) (v : Byte) : Forward b (b.write8 addr v) := by
  unfold A2600Bus.write8
  dsimp only
  split
  · obtain ⟨cart, fault, same⟩ := writeCart_frame { b with m_access := b.m_access + 1, m_dataBus := v }
      fun cart => cart.write (((addr &&& 0x1FFF).setWidth 16) &&& 0x0FFF).toNat v
    rw [same]
    exact ⟨Nat.le_refl _, Nat.le_refl _, BitVec.le_refl _⟩
  all_goals
    obtain ⟨cart, fault, same⟩ := writeCart_frame { b with m_access := b.m_access + 1, m_dataBus := v }
      fun cart => cart.lowWrite ((addr &&& 0x1FFF).setWidth 16).toNat v
    rw [same]
  · exact ⟨Nat.le_refl _, Nat.le_refl _, BitVec.le_of_eq (riot_write_lastCycle _ _ _).symm⟩
  all_goals exact ⟨Nat.le_refl _, Nat.le_refl _, BitVec.le_refl _⟩

theorem applyPending_forward (stop : ℕ) (ws : List (BitVec 16 × Byte)) :
    Forward b (A2600Bus.applyPending stop ws b) := by
  induction ws generalizing b with
  | nil => exact .refl b
  | cons w ws ih => exact ((syncTo_forward b _).trans (apply_forward _ w)).trans (ih _)

theorem finish_forward (stop : ℕ) : Forward b (finish stop b).2 := by
  have stalled (b : A2600Bus) : Forward b (b.stall stop).2 := by
    unfold A2600Bus.stall
    split
    · have forward := syncTo_forward b stop
      exact ⟨forward.tia, forward.lines, forward.riot⟩
    · exact .refl b
  have first := stalled { b with m_pending := [] }
  unfold finish
  dsimp only
  generalize A2600Bus.stall { b with m_pending := [] } stop = r at first
  have second := syncTo_forward { r.2 with m_cycles := stop + r.1 } (stop + r.1)
  exact ⟨Nat.le_trans first.tia second.tia, Nat.le_trans first.lines second.lines,
    BitVec.le_trans first.riot second.riot⟩

theorem end_forward (c : ℕ) : Forward b (b.end_ c).2 := by
  rw [end_eq]
  exact (applyPending_forward b _ _).trans (finish_forward _ _)

end

/-! ## Every run -/

/-- The machines that a new one becomes, with or without a cartridge, in any run. -/
inductive Reached : Machine → Prop where
  | created (std : Mmemu.Source.TiaCore.Standard) : Reached (Machine.create std)
  | inserted (std : Mmemu.Source.TiaCore.Standard) (image : List Byte) :
    Reached ((Machine.create std).insertCartridge image).2
  | step {m : Machine} (reached : Reached m) : Reached m.schedulerStep.2
  | joystick {m : Machine} (reached : Reached m) (port : Bool) (bits : Byte) : Reached (m.onJoystick port bits)
  | key {m : Machine} (reached : Reached m) (name : String) (down : Bool) : Reached (m.onKey name down).2

theorem schedulerStep_eq (m : Machine) : m.schedulerStep =
    ((cpuStep m).1 + ((cpuStep m).2.bus.end_ (cpuStep m).1).1,
      { (cpuStep m).2 with bus := ((cpuStep m).2.bus.end_ (cpuStep m).1).2 }) := rfl

/-- A read of the cartridge leaves the chips alone. -/
theorem Settled.read_cart {b : A2600Bus} (settled : Settled b) (addr : BitVec 32)
    (cart : A2600Bus.target ((addr &&& 0x1FFF).setWidth 16) = .cart) : Settled (b.read8 addr).2 := by
  unfold A2600Bus.read8
  dsimp only
  unfold A2600Bus.readAt
  rw [cart]
  dsimp only
  obtain ⟨cart, fault, same⟩ := readCart_frame { b with m_access := b.m_access + 1 } ((addr &&& 0x1FFF).setWidth 16)
  rw [same]
  exact ⟨⟨settled.time, settled.third, settled.inLine, settled.riot⟩, settled.level, settled.pending, settled.applied,
    settled.halt⟩

/-- A reset puts the clocks to 0, but for RIOT's: a RIOT that has run is not settled by it. -/
theorem onReset_settled {m : Machine} (fresh : m.bus.m_riot.m_lastCycle = 0) : Settled m.onReset.bus := by
  unfold Machine.onReset
  dsimp only
  refine (Settled.read_cart ?_ 0xFFFC rfl).read_cart 0xFFFD rfl
  exact ⟨⟨rfl, Nat.dvd_zero 3, Nat.zero_lt_succ 227, fun _ => fresh⟩, rfl, rfl, rfl, rfl⟩

/-- The CPU is an NMOS 6502, and between its steps the chips are settled. -/
structure Ready (m : Machine) : Prop where
  nmos : m.cmos = false
  settled : Settled m.bus

theorem create_ready (std : Mmemu.Source.TiaCore.Standard) : Ready (Machine.create std) :=
  ⟨rfl, ⟨rfl, Nat.dvd_zero 3, Nat.zero_lt_succ 227, fun _ => rfl⟩, rfl, rfl, rfl, rfl⟩

theorem insertCartridge_ready (std : Mmemu.Source.TiaCore.Standard) (image : List Byte) :
    Ready ((Machine.create std).insertCartridge image).2 := by
  have created := create_ready std
  unfold Machine.insertCartridge
  split
  · exact created
  · split
    · have settled := created.settled
      exact ⟨rfl, ⟨settled.time, settled.third, settled.inLine, settled.riot⟩, settled.level, settled.pending,
        settled.applied, settled.halt⟩
    · exact ⟨rfl, onReset_settled rfl⟩

theorem Ready.step {m : Machine} (ready : Ready m) : Ready m.schedulerStep.2 := by
  obtain ⟨n, enough, flight⟩ := ready.settled.cpuStep ready.nmos
  obtain ⟨t, -, runs⟩ := cpuStep_tree m.state
  obtain ⟨-, -, -, nmos⟩ := runs m rfl ready.nmos
  rw [schedulerStep_eq]
  exact ⟨nmos, (flight.end_ enough).1⟩

/-- What is set from outside is apart from the clocks. -/
theorem Settled.pins {b : A2600Bus} (settled : Settled b) {tia : Tia} {riot : Riot} (same : tia.chip = b.m_tia.chip)
    (last : riot.m_lastCycle = b.m_riot.m_lastCycle) : Settled { b with m_tia := tia, m_riot := riot } :=
  ⟨settled.toSynced.beam_eq (congrArg beam same) last, settled.level, settled.pending, settled.applied,
    (congrArg (·.m_halt) same).trans settled.halt⟩

theorem Ready.setSwitch {m : Machine} (ready : Ready m) (mask : Byte) (set : Bool) : Ready (m.setSwitch mask set) :=
  ⟨ready.nmos, ready.settled.pins rfl rfl⟩

theorem Ready.onKey {m : Machine} (ready : Ready m) (name : String) (down : Bool) : Ready (m.onKey name down).2 := by
  unfold Machine.onKey
  dsimp only
  repeat' split
  all_goals first | exact ready | exact ready.setSwitch _ _

theorem Reached.ready {m : Machine} (reached : Reached m) : Ready m := by
  induction reached with
  | created std => exact create_ready std
  | inserted std image => exact insertCartridge_ready std image
  | step _ ih => exact ih.step
  | joystick _ port bits ih => exact ⟨ih.nmos, ih.settled.pins rfl rfl⟩
  | key _ name down ih => exact ih.onKey name down

/-- The cycle at which the instruction of a step is over, a stall apart. -/
def stop (m : Machine) : ℕ := m.bus.m_cycles + (cpuStep m).1

/-- What a step that begins at `m` has done by its end. -/
structure InLockStep (m : Machine) : Prop where
  cycles : m.schedulerStep.2.bus.m_cycles = m.bus.m_cycles + m.schedulerStep.1
  tia : m.schedulerStep.2.bus.m_tia.chip.m_timestamp = 3 * m.schedulerStep.2.bus.m_cycles
  riot : m.schedulerStep.2.bus.m_cycles < 2 ^ 64 →
    m.schedulerStep.2.bus.m_riot.m_lastCycle = BitVec.ofNat 64 m.schedulerStep.2.bus.m_cycles
  held : (cpuStep m).2.bus.done.applied ++ (cpuStep m).2.bus.m_pending = (cpuStep m).2.bus.done.writes
  writes : m.schedulerStep.2.bus.done.writes = (cpuStep m).2.bus.done.writes
  applied : m.schedulerStep.2.bus.done.applied = m.schedulerStep.2.bus.done.writes
  nothingHeld : m.schedulerStep.2.bus.m_pending = []
  forward : Forward m.bus (cpuStep m).2.bus ∧ Forward (cpuStep m).2.bus m.schedulerStep.2.bus
  stall : m.schedulerStep.1 < (cpuStep m).1 + 76
  /-- A WSYNC ends its line. If that line has not ended by the last write, the CPU waits for its end. -/
  wsync : ∀ before w after, (cpuStep m).2.bus.m_pending = before ++ w :: after → isWsync w →
    (appliedUpTo (stop m) before w after (cpuStep m).2.bus).m_tia.chip.lines < m.schedulerStep.2.bus.m_tia.chip.lines ∧
    ((A2600Bus.applyPending (stop m) (cpuStep m).2.bus.m_pending (cpuStep m).2.bus).m_tia.chip.lines =
        (appliedUpTo (stop m) before w after (cpuStep m).2.bus).m_tia.chip.lines →
      m.schedulerStep.2.bus.m_tia.chip.m_hctr = 0 ∧ m.schedulerStep.2.bus.m_tia.chip.lines =
        (appliedUpTo (stop m) before w after (cpuStep m).2.bus).m_tia.chip.lines + 1)

theorem cpuStep_forward {m : Machine} (nmos : m.cmos = false) : Forward m.bus (cpuStep m).2.bus := by
  obtain ⟨t, -, runs⟩ := cpuStep_tree m.state
  obtain ⟨-, -, bus, -⟩ := runs m rfl nmos
  rw [bus]
  have begun : Forward m.bus m.bus.begin := ⟨Nat.le_refl _, Nat.le_refl _, BitVec.le_refl _⟩
  exact Tree.run_keeps (fun b addr h => h.trans (read8_forward b addr))
    (fun b addr v h => h.trans (write8_forward b addr v)) t begun

/-- A halted CPU at the end of its instruction. -/
theorem finish_halted {b : A2600Bus} (synced : Synced b) {stop : ℕ} (last : stop = b.m_tiaCycle + 1)
    (halted : b.m_tia.chip.m_halt = true) :
    (finish stop b).2.m_tia.chip.m_hctr = 0 ∧ (finish stop b).2.m_tia.chip.lines = b.m_tia.chip.lines + 1 := by
  have cleared : Synced { b with m_pending := [] } := ⟨synced.time, synced.third, synced.inLine, synced.riot⟩
  have there := cleared.stall_beam last halted
  have apart (b : A2600Bus) (cycle k : ℕ) : ({ b with m_cycles := k }.syncTo cycle).m_tia = (b.syncTo cycle).m_tia := by
    unfold A2600Bus.syncTo
    dsimp only
    split <;> rfl
  unfold finish
  dsimp only
  rw [apart]
  exact there

theorem Flight.wsync {base n c : ℕ} {old : List ℕ} {b : A2600Bus} (f : Flight base old n b) (enough : n ≤ c)
    {before after : List (BitVec 16 × Byte)} {w : BitVec 16 × Byte} (pending : b.m_pending = before ++ w :: after)
    (wsync : isWsync w) :
    (appliedUpTo (base + c) before w after b).m_tia.chip.lines < (b.end_ c).2.m_tia.chip.lines ∧
    ((A2600Bus.applyPending (base + c) b.m_pending b).m_tia.chip.lines =
        (appliedUpTo (base + c) before w after b).m_tia.chip.lines →
      (b.end_ c).2.m_tia.chip.m_hctr = 0 ∧ (b.end_ c).2.m_tia.chip.lines =
        (appliedUpTo (base + c) before w after b).m_tia.chip.lines + 1) := by
  obtain ⟨replayed, -⟩ := f.replayed enough
  have some_ : b.m_pending ≠ [] := by
    rw [pending]
    exact List.append_ne_nil_of_right_ne_nil before (List.cons_ne_nil w after)
  have level := replayed.tiaCycle
  rw [if_neg some_] at level
  have within := List.length_pos_iff.mpr some_
  have held := f.held
  have last : base + c = (A2600Bus.applyPending (base + c) b.m_pending b).m_tiaCycle + 1 := by omega
  have forward := finish_forward (A2600Bus.applyPending (base + c) b.m_pending b) (base + c)
  have halted := f.toSynced.halted (base + c) before after wsync
  rw [← pending] at halted
  rw [end_eq, f.cycles]
  rcases halted with ⟨halt, here⟩ | past
  · obtain ⟨hctr, lines⟩ := finish_halted replayed.toSynced last halt
    have here : (A2600Bus.applyPending (base + c) b.m_pending b).m_tia.chip.lines = _ := here
    rw [here] at lines
    exact ⟨Nat.lt_of_succ_le (Nat.le_of_eq lines.symm), fun _ => ⟨hctr, lines⟩⟩
  · exact ⟨Nat.lt_of_lt_of_le past forward.lines, fun same => absurd same (Nat.ne_of_gt past)⟩

theorem Ready.inLockStep {m : Machine} (ready : Ready m) : InLockStep m := by
  obtain ⟨n, enough, flight⟩ := ready.settled.cpuStep ready.nmos
  obtain ⟨settled, short, writes, cycles, -⟩ := flight.end_ enough
  have wsync (before : List (BitVec 16 × Byte)) (w : BitVec 16 × Byte) (after : List (BitVec 16 × Byte))
      (pending : (cpuStep m).2.bus.m_pending = before ++ w :: after) (is : isWsync w) :=
    flight.wsync enough pending is
  refine ⟨?_, ?_, ?_, flight.applied, writes, settled.applied, settled.pending,
    ⟨cpuStep_forward ready.nmos, end_forward _ _⟩, Nat.add_lt_add_left short _, wsync⟩
  · exact cycles.trans (Nat.add_assoc _ _ _)
  · exact settled.time.trans (congrArg (3 * ·) settled.level)
  · intro small
    have last := settled.riot (settled.level ▸ small)
    rw [settled.level] at last
    exact last

/-- TIA, RIOT and CPU are in lock step after every step of every run, and no access turns a clock back. -/
theorem lock_step {m : Machine} (reached : Reached m) : InLockStep m ∧
    ∀ (b : A2600Bus) (addr : BitVec 32) (v : Byte),
      Forward b (b.read8 addr).2 ∧ Forward b (b.write8 addr v) :=
  ⟨reached.ready.inLockStep, fun b addr v => ⟨read8_forward b addr, write8_forward b addr v⟩⟩

/-- The image that the example below runs: X is 2, and the stack there, when a JSR begins 6 cycles before
the end of a line. It pushes its return address to WSYNC, and to VBLANK. -/
def image : List Byte :=
  [0xA2, 0x02, 0x9A] ++ (List.replicate 9 [0xFE, 0x00, 0x10]).flatten ++ [0xEA, 0xEA, 0x20, 0x00, 0x10] ++
    List.replicate 25 0 ++ [0x00, 0x10, 0x00, 0x00]

theorem lock_step_image : InLockStep ((Machine.create .NTSC).insertCartridge image).2 ∧
    ∀ (b : A2600Bus) (addr : BitVec 32) (v : Byte),
      Forward b (b.read8 addr).2 ∧ Forward b (b.write8 addr v) :=
  lock_step (.inserted .NTSC image)

def run : ℕ → Machine → Machine
  | 0, m => m
  | n + 1, m => (run n m).schedulerStep.2

theorem run_reached (n : ℕ) {m : Machine} (reached : Reached m) : Reached (run n m) := by
  induction n with
  | zero => exact reached
  | succ n ih => exact ih.step

set_option maxRecDepth 100000 in
/-- The line ends between the two pushes, and the CPU is released for the second one: the step ends at
colour clock 3. -/
theorem wsync_passed : ∃ m, Reached m ∧ ∃ before w after,
    (cpuStep m).2.bus.m_pending = before ++ w :: after ∧ isWsync w ∧
      m.schedulerStep.2.bus.m_tia.chip.m_hctr = 3 := by
  refine ⟨run 13 ((Machine.create .NTSC).insertCartridge image).2, run_reached 13 (.inserted .NTSC image),
    [], (0x0102, 0x10), [(0x0101, 0x22)], ?_, ?_, ?_⟩
  · decide
  · exact ⟨rfl, rfl⟩
  · decide

/-! ## When the TIA is accessed -/

/-- The colour clocks that the TIA had run at each access of a step. -/
def accessTimes (m : Machine) : List ℕ :=
  m.schedulerStep.2.bus.done.tiaTimes.drop m.bus.done.tiaTimes.length

/-- The TIA has been clocked up to and including the instruction's last cycle. -/
def OnTime (m : Machine) (t : ℕ) : Prop := t = 3 * stop m

theorem Ready.early {m : Machine} (ready : Ready m) :
    m.schedulerStep.2.bus.done.tiaTimes = m.bus.done.tiaTimes ++ accessTimes m ∧
      ∀ t ∈ accessTimes m, t + 3 ≤ 3 * stop m := by
  obtain ⟨n, enough, flight⟩ := ready.settled.cpuStep ready.nmos
  obtain ⟨-, -, -, -, new, times, early⟩ := flight.end_ enough
  have times : m.schedulerStep.2.bus.done.tiaTimes = m.bus.done.tiaTimes ++ new := times
  have same : accessTimes m = new := by
    rw [accessTimes, times, List.drop_left]
  rw [same]
  exact ⟨times, early⟩

/-- No access of any instruction, by its last cycle or an earlier one, finds the TIA where its interface asks
for: each is at least one CPU cycle early. -/
theorem never_on_time {m : Machine} (reached : Reached m) :
    m.schedulerStep.2.bus.done.tiaTimes = m.bus.done.tiaTimes ++ accessTimes m ∧
      ∀ t ∈ accessTimes m, ¬ OnTime m t ∧ t + 3 ≤ 3 * stop m := by
  obtain ⟨times, early⟩ := reached.ready.early
  refine ⟨times, fun t made => ⟨fun onTime => ?_, early t made⟩⟩
  have before := early t made
  rw [OnTime] at onTime
  omega

/-- A new machine with a cartridge whose first instruction has two bytes. -/
def starting (op operand : Byte) : Machine :=
  ((Machine.create .NTSC).insertCartridge [op, operand, 0xEA, 0xEA, 0x00, 0x10, 0x00, 0x10]).2

theorem never_on_time_load :
    (starting 0xA5 0x02).schedulerStep.2.bus.done.tiaTimes =
      (starting 0xA5 0x02).bus.done.tiaTimes ++ accessTimes (starting 0xA5 0x02) ∧
    ∀ t ∈ accessTimes (starting 0xA5 0x02),
      ¬ OnTime (starting 0xA5 0x02) t ∧ t + 3 ≤ 3 * stop (starting 0xA5 0x02) :=
  never_on_time (.inserted .NTSC [0xA5, 0x02, 0xEA, 0xEA, 0x00, 0x10, 0x00, 0x10])

/-- `LDA $02` and `STA $06` have 3 cycles each. They read and write the TIA after 6 colour clocks, not 9. -/
theorem load_and_store_early :
    accessTimes (starting 0xA5 0x02) = [6] ∧ 3 * stop (starting 0xA5 0x02) = 9 ∧ ¬ OnTime (starting 0xA5 0x02) 6 ∧
    accessTimes (starting 0x85 0x06) = [6] ∧ 3 * stop (starting 0x85 0x06) = 9 ∧ ¬ OnTime (starting 0x85 0x06) 6 := by
  unfold OnTime
  refine ⟨?_, ?_, ?_, ?_, ?_, ?_⟩
  all_goals decide

end Mmemu.Guarantees.LockStep
