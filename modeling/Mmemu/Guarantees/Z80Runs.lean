import Mmemu.Library.Runs
import Mmemu.Source.CpuZ80Blocks
import Mmemu.Source.DisasmZ80

/-!
# Runs of index prefixes

The core and the disassembler both skip $DD and $FD until another byte comes. As addresses wrap
they come round to every byte there is, and go on for good only where all of them are prefixes.
-/
namespace Mmemu.Guarantees.PrefixRuns
open Mmemu.Source.MemoryBus Mmemu.Source.CpuZ80 Mmemu.Source.DisasmZ80

/-- Some byte is no prefix. -/
def Decodable (mem : BitVec 16 → BitVec 8) : Prop := ∃ a, isPrefix (mem a) = false

/-- Within so many bytes from an address. -/
def Within (mem : BitVec 16 → BitVec 8) (pc : BitVec 16) (n : ℕ) : Prop :=
  ∃ k < n, isPrefix (mem (pc + BitVec.ofNat 16 k)) = false

section Runs
variable {mem : BitVec 16 → BitVec 8} {pc : BitVec 16}

theorem add_succ (pc : BitVec 16) (k : ℕ) :
    pc + BitVec.ofNat 16 (k + 1) = pc + BitVec.ofNat 16 k + 1 := by
  rw [BitVec.ofNat_add, BitVec.add_assoc]
  rfl

theorem within_succ (n : ℕ) :
    Within mem pc (n + 1) ↔ isPrefix (mem pc) = false ∨ Within mem (pc + 1) n := by
  have next : ∀ k, pc + 1 + BitVec.ofNat 16 k = pc + BitVec.ofNat 16 (k + 1) := by
    intro k
    rw [add_succ, BitVec.add_assoc, BitVec.add_comm 1, BitVec.add_assoc]
  constructor
  · rintro ⟨k, few, plain⟩
    cases k with
    | zero => exact .inl (by simpa using plain)
    | succ k => exact .inr ⟨k, by omega, by rwa [next]⟩
  · rintro (here | ⟨k, few, plain⟩)
    · exact ⟨0, by omega, by simpa using here⟩
    · exact ⟨k + 1, by omega, by rwa [← next]⟩

/-- The whole memory is passed in 65536 bytes. -/
theorem within_iff_decodable : Within mem pc (2 ^ 16) ↔ Decodable mem := by
  constructor
  · rintro ⟨k, -, plain⟩
    exact ⟨_, plain⟩
  · rintro ⟨a, plain⟩
    refine ⟨(a - pc).toNat, (a - pc).isLt, ?_⟩
    rwa [BitVec.ofNat_toNat, BitVec.setWidth_eq, BitVec.add_comm, BitVec.sub_add_cancel]

theorem Within.decodable {n : ℕ} (within : Within mem pc n) : Decodable mem :=
  within.elim fun _ h => ⟨_, h.2⟩

/-! ## The disassembler -/

theorem prefixes_isSome (rounds : ℕ) (op : BitVec 8) (d : Dis) :
    (prefixes rounds op d).isSome = true ↔
      isPrefix op = false ∨ Within d.mem (d.pc + BitVec.ofNat 16 d.len) rounds := by
  induction rounds generalizing op d with
  | zero =>
    unfold prefixes
    cases isPrefix op <;> simp [Within]
  | succ rounds ih =>
    unfold prefixes
    cases isPrefix op with
    | false => simp
    | true =>
      rw [within_succ]
      simp only [if_true, Bool.true_eq_false, false_or]
      refine (ih _ _).trans (or_congr Iff.rfl ?_)
      rw [← add_succ]

theorem disassembleOne_isSome (rounds : ℕ) (mem : BitVec 16 → BitVec 8) (addr : BitVec 16)
    (bufsz : ℕ) : (disassembleOne rounds mem addr bufsz).isSome = true ↔ Within mem addr (rounds + 1) := by
  unfold disassembleOne byte
  dsimp only
  rw [Option.isSome_map, prefixes_isSome, within_succ]
  simp

/-! ## The core -/

variable {bus : FlatMemoryBus}

theorem fetchM1_eq (c : Context FlatMemoryBus) : fetchM1 c =
    (shownMemory c.bus c.regs.pc,
      { c with regs := { c.regs with pc := c.regs.pc + 1 }.incR }) := rfl

theorem prefixLoop_isSome (rounds : ℕ) (op : BitVec 8) (t : ℕ) (c : Context FlatMemoryBus) :
    (prefixLoop rounds op t c).isSome = true ↔
      isPrefix op = false ∨ Within (shownMemory c.bus) c.regs.pc rounds := by
  induction rounds generalizing op t c with
  | zero =>
    unfold prefixLoop
    cases isPrefix op <;> simp [Within]
  | succ rounds ih =>
    unfold prefixLoop
    cases isPrefix op with
    | false => simp
    | true =>
      rw [within_succ, fetchM1_eq]
      simp only [if_true, Bool.true_eq_false, false_or]
      exact ih _ _ _

theorem execute_isSome (rounds : ℕ) (c : Context FlatMemoryBus) :
    (execute rounds c).isSome = true ↔ Within (shownMemory c.bus) c.regs.pc (rounds + 1) := by
  unfold execute
  rw [fetchM1_eq]
  dsimp only
  rw [Option.isSome_map, prefixLoop_isSome, within_succ]
  exact Iff.rfl

end Runs

/-! ## Steps -/

/-- The observer is given the disassembly. -/
def Shows (w : Wiring FlatMemoryBus) : Bool := w.observer.any (·.needsDisasm)

/-- The step takes no instruction, or finds one: where it is shown, and where it is fetched. -/
def Finds (w : Wiring FlatMemoryBus) (c : Z80 FlatMemoryBus) : Prop :=
  let c' := (intercept w c).2
  (intercept w c).1 = true ∨ c'.interrupted = true ∨ c'.context.regs.halted = true ∨
    ((Shows w = true → Decodable (shownMemory c'.sampled.context.bus)) ∧
      ((observe w c'.sampled).1 = true →
        Decodable (shownMemory (observe w c'.sampled).2.context.bus)))

section Steps
variable {w : Wiring FlatMemoryBus}

theorem observeEntry_isSome (rounds : ℕ) (c : Z80 FlatMemoryBus) :
    (observeEntry w rounds c).isSome = true ↔
      (Shows w = true → Within (shownMemory c.context.bus) c.context.regs.pc (rounds + 1)) := by
  unfold observeEntry Shows
  cases w.observer with
  | none => simp
  | some obs =>
    cases needs : obs.needsDisasm with
    | false => simp [needs]
    | true => simp [needs, disassembleOne_isSome]

theorem observeEntry_eq {rounds : ℕ} {c : Z80 FlatMemoryBus} {out : Bool × Z80 FlatMemoryBus}
    (done : observeEntry w rounds c = some out) : out = observe w c := by
  unfold observeEntry at done
  split at done
  · exact (Option.some.inj done).symm
  · split at done
    · obtain ⟨_, -, rfl⟩ := Option.map_eq_some_iff.mp done
      rfl
    · exact (Option.some.inj done).symm

/-- A step that is to show and fetch an instruction. -/
theorem instruction_isSome (rounds : ℕ) (c : Z80 FlatMemoryBus) :
    ((observeEntry w rounds c).bind fun (cont, c) =>
      if cont then (execute rounds c.context).map c.after else some (1, c)).isSome = true ↔
      (Shows w = true → Within (shownMemory c.context.bus) c.context.regs.pc (rounds + 1)) ∧
        ((observe w c).1 = true → Within (shownMemory (observe w c).2.context.bus)
          (observe w c).2.context.regs.pc (rounds + 1)) := by
  rw [← observeEntry_isSome]
  cases shown : observeEntry w rounds c with
  | none => simp
  | some out =>
    obtain rfl := observeEntry_eq shown
    simp only [Option.bind_some, Option.isSome_some, true_and]
    cases (observe w c).1 with
    | false => simp
    | true => simp [execute_isSome]

theorem stepEntry_isSome (c : Z80 FlatMemoryBus) :
    (∃ rounds, (stepEntry w rounds c).isSome = true) ↔ Finds w c := by
  unfold stepEntry Finds
  dsimp only
  cases (intercept w c).1 with
  | true => simp
  | false =>
    cases (intercept w c).2.interrupted with
    | true => simp
    | false =>
      cases (intercept w c).2.context.regs.halted with
      | true => simp
      | false =>
        simp only [Bool.false_eq_true, if_false, false_or, instruction_isSome]
        constructor
        · rintro ⟨rounds, shows_, fetches⟩
          exact ⟨fun on => (shows_ on).decodable, fun cont => (fetches cont).decodable⟩
        · rintro ⟨shows_, fetches⟩
          exact ⟨2 ^ 16 - 1, fun on => within_iff_decodable.mpr (shows_ on),
            fun cont => within_iff_decodable.mpr (fetches cont)⟩

end Steps

/-- A step finishes exactly if it takes no instruction or finds one behind the prefixes, and the
disassembler exactly if some byte of the 64 KB is no prefix. -/
theorem disassembly_finishes_iff (w : Wiring FlatMemoryBus) (c : Z80 FlatMemoryBus) (mem : BitVec 16 → BitVec 8)
    (addr : BitVec 16) (bufsz : ℕ) :
    ((∃ rounds, (stepEntry w rounds c).isSome = true) ↔ Finds w c) ∧
      ((∃ rounds, (disassembleOne rounds mem addr bufsz).isSome = true) ↔ Decodable mem) := by
  refine ⟨stepEntry_isSome c, ?_⟩
  simp only [disassembleOne_isSome]
  constructor
  · rintro ⟨rounds, within⟩
    exact within.decodable
  · intro decodable
    exact ⟨2 ^ 16 - 1, within_iff_decodable.mpr decodable⟩

/-- A core that runs, on memory that is $DD throughout. -/
def prefixed : Z80 FlatMemoryBus where
  context :=
    { regs := default
      bus := { FlatMemoryBus.new 16 with data := fun _ => 0xDD }
      prefix_ := .none
      dispAddr := 0
      dispFetched := false }
  irqLine := false
  nmiLine := false
  nmiPending := false
  cycles := 0

theorem not_finishes_prefixed :
    (¬∃ rounds, (stepEntry ⟨none, none⟩ rounds prefixed).isSome = true) ∧
      ¬∃ rounds, (disassembleOne rounds (fun _ => 0xDD) 0 64).isSome = true := by
  have none_ : ¬Decodable fun _ => 0xDD := by
    rintro ⟨a, plain⟩
    cases plain
  constructor
  · rw [stepEntry_isSome]
    rintro (served | taken | halted | ⟨-, fetches⟩)
    · cases served
    · cases taken
    · cases halted
    · exact none_ (fetches rfl)
  · rintro ⟨rounds, done⟩
    exact none_ ((disassembleOne_isSome rounds _ 0 64).mp done).decodable

end Mmemu.Guarantees.PrefixRuns

/-!
# Block instructions

LDIR, LDDR, CPIR and CPDR run round by round through PC, and interrupts are taken in between.
A handler may leave other bytes than it found where the instruction does not look, such as those
below the stack pointer.
-/
namespace Mmemu.Guarantees.BlockInstructions
open Mmemu.Source.MemoryBus Mmemu.Source.CpuZ80
open Mmemu.Library.Copying Mmemu.Library.InterruptedLoop
open Mmemu.Source.DisasmZ80 (shownMemory)

/-- BC as a count. -/
def count (s : Z80State) : ℕ := if s.bc = 0 then 2 ^ 16 else s.bc.toNat

/-- A pointer after so many rounds. -/
def moved (dec : Bool) (a : BitVec 16) (k : ℕ) : BitVec 16 :=
  if dec then a - BitVec.ofNat 16 k else a + BitVec.ofNat 16 k

/-! ## Pointers and the count -/

theorem iterate_direction (dec : Bool) (a : BitVec 16) (k : ℕ) :
    (· + direction dec)^[k] a = moved dec a k := by
  induction k with
  | zero => cases dec <;> simp [moved]
  | succ k ih =>
    rw [Function.iterate_succ_apply', ih]
    unfold moved
    cases dec with
    | false => simp [direction, BitVec.ofNat_add, BitVec.add_assoc]
    | true =>
      simp only [direction, if_true]
      bv_omega

theorem count_pos (s : Z80State) : 0 < count s := by
  unfold count
  split
  · omega
  next some_ =>
    have := BitVec.toNat_ne_iff_ne.mpr some_
    simp at this
    omega

theorem bc_eq_count (s : Z80State) : s.bc = BitVec.ofNat 16 (count s) := by
  unfold count
  split
  next none_ => rw [none_]; rfl
  next => simp

/-- BC comes to zero in the last round. -/
theorem left_ne_zero {s : Z80State} {k : ℕ} (few : k < count s) :
    (s.bc - BitVec.ofNat 16 k - 1 != 0) = decide (k + 1 < count s) := by
  have bound : count s ≤ 2 ^ 16 := by
    unfold count
    split
    · exact Nat.le_refl _
    · exact s.bc.isLt.le
  rw [bc_eq_count, Bool.eq_iff_iff, bne_iff_ne, decide_eq_true_iff]
  generalize count s = n at few bound
  rw [← BitVec.toNat_ne_iff_ne]
  bv_omega

/-! ## Between rounds -/

/-- Devices drive the lines. -/
inductive Drives (c : Z80 FlatMemoryBus) : Z80 FlatMemoryBus → Prop
  | irqLine (asserted : Bool) : Drives c (c.setIrqLine asserted)
  | nmiLine (asserted : Bool) : Drives c (c.setNmiLine asserted)
  | nmi : Drives c c.triggerNmi

/-- Steps, and lines that change between them. -/
inductive Reaches (c : Z80 FlatMemoryBus) : Z80 FlatMemoryBus → Prop
  | here : Reaches c c
  | drives {d e : Z80 FlatMemoryBus} (run : Reaches c d) (driven : Drives d e) : Reaches c e
  | step {d e : Z80 FlatMemoryBus} {rounds t : ℕ} (run : Reaches c d)
      (stepped : step bare rounds d = some (t, e)) : Reaches c e

/-- Registers and memory are as before, but for some bytes. -/
structure Preserved (scratch : Set (BitVec 16)) (c e : Z80 FlatMemoryBus) : Prop where
  pc : e.context.regs.pc = c.context.regs.pc
  hl : e.context.regs.hl = c.context.regs.hl
  de : e.context.regs.de = c.context.regs.de
  bc : e.context.regs.bc = c.context.regs.bc
  a : e.context.regs.a = c.context.regs.a
  halted : e.context.regs.halted = c.context.regs.halted
  mask : e.context.bus.addrMask = c.context.bus.addrMask
  overlays : e.context.bus.overlays = c.context.bus.overlays
  memory : ∀ x ∉ scratch, shownMemory e.context.bus x = shownMemory c.context.bus x

/-- A line changes, or an interrupt is taken and its handler comes back. -/
inductive Between (scratch : Set (BitVec 16)) (c : Z80 FlatMemoryBus) : Z80 FlatMemoryBus → Prop
  | drives {e : Z80 FlatMemoryBus} (driven : Drives c e) : Between scratch c e
  | handled {d e : Z80 FlatMemoryBus} {rounds t : ℕ} (taken : c.interrupted = true)
      (entered : step bare rounds c = some (t, d)) (handler : Reaches d e)
      (preserved : Preserved scratch c e) : Between scratch c e

theorem Between.preserved {scratch : Set (BitVec 16)} {c e : Z80 FlatMemoryBus}
    (between : Between scratch c e) : Preserved scratch c e := by
  cases between with
  | drives driven => cases driven <;> exact ⟨rfl, rfl, rfl, rfl, rfl, rfl, rfl, rfl, fun _ _ => rfl⟩
  | handled _ _ _ preserved => exact preserved

/-- The instruction at an address, a step at a time. -/
def blockLoop (pc : BitVec 16) (scratch : Set (BitVec 16)) : Loop (Z80 FlatMemoryBus) where
  waits c := c.context.regs.pc = pc
  round c t e := c.interrupted = false ∧ ∃ rounds, step bare rounds c = some (t, e)
  between := Between scratch

/-! ## Invariants -/

/-- The core is at the instruction, in 64 KB, and the handlers spare what it reads. -/
structure Started (op : BitVec 8) (dec : Bool) (pc : BitVec 16) (scratch : Set (BitVec 16))
    (c : Z80 FlatMemoryBus) : Prop where
  at_ : c.context.regs.pc = pc
  awake : c.context.regs.halted = false
  wide : c.context.bus.addrMask = 0xFFFF
  first : shownMemory c.context.bus pc = 0xED
  second : shownMemory c.context.bus (pc + 1) = op
  kept : pc ∉ scratch ∧ pc + 1 ∉ scratch
  read : ∀ k < count c.context.regs, moved dec c.context.regs.hl k ∉ scratch

/-- The core after some rounds. -/
structure Tracked (dec : Bool) (going : ℕ → Prop) (pc : BitVec 16) (c : Z80 FlatMemoryBus) (k : ℕ)
    (d : Z80 FlatMemoryBus) : Prop where
  awake : d.context.regs.halted = false
  mask : d.context.bus.addrMask = c.context.bus.addrMask
  overlays : d.context.bus.overlays = c.context.bus.overlays
  hl : d.context.regs.hl = moved dec c.context.regs.hl k
  bc : d.context.regs.bc = c.context.regs.bc - BitVec.ofNat 16 k
  a : d.context.regs.a = c.context.regs.a
  on : going k → d.context.regs.pc = pc
  ended : ¬going k → d.context.regs.pc = pc + 2 ∧
    flag d.context.regs.f FP = decide (k < count c.context.regs)

section Invariants
variable {dec : Bool} {going : ℕ → Prop} {pc : BitVec 16} {scratch : Set (BitVec 16)}
  {c d e : Z80 FlatMemoryBus} {k : ℕ}

theorem moved_succ (a : BitVec 16) : moved dec a k + direction dec = moved dec a (k + 1) := by
  rw [← iterate_direction, ← iterate_direction, Function.iterate_succ_apply']

theorem Tracked.waits_iff (tracked : Tracked dec going pc c k d) :
    (blockLoop pc scratch).waits d ↔ going k := by
  constructor
  · intro here
    by_contra off
    have past_ := (tracked.ended off).1
    change d.context.regs.pc = pc at here
    rw [here] at past_
    bv_omega
  · exact tracked.on

theorem Tracked.preserved (tracked : Tracked dec going pc c k d) (on : going k)
    (preserved : Preserved scratch d e) : Tracked dec going pc c k e where
  awake := preserved.halted.trans tracked.awake
  mask := preserved.mask.trans tracked.mask
  overlays := preserved.overlays.trans tracked.overlays
  hl := preserved.hl.trans tracked.hl
  bc := preserved.bc.trans tracked.bc
  a := preserved.a.trans tracked.a
  on _ := preserved.pc.trans (tracked.on on)
  ended off := absurd on off

theorem Tracked.advance {t : ℕ} {more : Bool} (tracked : Tracked dec going pc c k d)
    (on : going k) (few : k < count c.context.regs) (counted : Counted dec more d t e)
    (mask : e.context.bus.addrMask = d.context.bus.addrMask)
    (overlays : e.context.bus.overlays = d.context.bus.overlays)
    (decides : more = true ↔ going (k + 1)) : Tracked dec going pc c (k + 1) e where
  awake := counted.awake.trans tracked.awake
  mask := mask.trans tracked.mask
  overlays := overlays.trans tracked.overlays
  hl := by rw [counted.hl, tracked.hl, moved_succ]
  bc := by
    rw [counted.bc, tracked.bc, BitVec.ofNat_add, BitVec.sub_sub]
    rfl
  a := counted.a.trans tracked.a
  on again_ := by rw [counted.pc, if_pos (decides.mpr again_), tracked.on on]
  ended off := by
    refine ⟨?_, ?_⟩
    · rw [counted.pc, if_neg (fun h => off (decides.mp h)), tracked.on on]
    · rw [counted.parity, tracked.bc, left_ne_zero few]

/-- Without an interrupt the next step is a round. -/
theorem Tracked.executes (tracked : Tracked dec going pc c k d) (quiet : d.interrupted = false) :
    d.executes = true := by
  unfold Z80.executes
  rw [quiet, tracked.awake]
  rfl

end Invariants

/-! ## LDIR and LDDR -/

section Load
variable {dec : Bool} {pc : BitVec 16} {scratch : Set (BitVec 16)} {c : Z80 FlatMemoryBus}

/-- No byte is written over the instruction, unless it is in ROM. -/
def Spared (dec : Bool) (c : Z80 FlatMemoryBus) : Prop :=
  ∀ k < count c.context.regs, (moved dec c.context.regs.de k = c.context.regs.pc ∨
    moved dec c.context.regs.de k = c.context.regs.pc + 1) →
      overlaid c.context.bus (moved dec c.context.regs.de k) = true

/-- The bytes from HL on copied to DE one by one, so many of them. -/
def copy (dec : Bool) (c : Z80 FlatMemoryBus) (k : ℕ) : BitVec 16 → BitVec 8 :=
  copied (overlaid c.context.bus) (· + direction dec) k c.context.regs.hl c.context.regs.de
    (shownMemory c.context.bus)

theorem copy_succ (k : ℕ) :
    copy dec c (k + 1) = store (overlaid c.context.bus) (copy dec c k)
      (moved dec c.context.regs.de k) (copy dec c k (moved dec c.context.regs.hl k)) := by
  unfold copy
  rw [copied_succ, iterate_direction, iterate_direction]

structure Copying (dec : Bool) (pc : BitVec 16) (scratch : Set (BitVec 16))
    (c : Z80 FlatMemoryBus) (k : ℕ) (d : Z80 FlatMemoryBus) : Prop where
  tracked : Tracked dec (· < count c.context.regs) pc c k d
  de : d.context.regs.de = moved dec c.context.regs.de k
  memory : ∀ x ∉ scratch, shownMemory d.context.bus x = copy dec c k x

variable (started : Started (loadOp dec) dec pc scratch c) (spared : Spared dec c)
include started spared

theorem Copying.instruction {k : ℕ} {d : Z80 FlatMemoryBus} (copying : Copying dec pc scratch c k d)
    (few : k < count c.context.regs) : shownMemory d.context.bus pc = 0xED ∧
      shownMemory d.context.bus (pc + 1) = loadOp dec := by
  have here : copy dec c k pc = shownMemory c.context.bus pc := by
    refine copied_of_ne k _ fun j fewer same => ?_
    rw [iterate_direction] at same ⊢
    exact spared j (by omega) (.inl (same.symm.trans started.at_.symm))
  have next : copy dec c k (pc + 1) = shownMemory c.context.bus (pc + 1) := by
    refine copied_of_ne k _ fun j fewer same => ?_
    rw [iterate_direction] at same ⊢
    exact spared j (by omega) (.inr (by rw [← same, started.at_]))
  exact ⟨by rw [copying.memory pc started.kept.1, here, started.first],
    by rw [copying.memory _ started.kept.2, next, started.second]⟩

/-- One round of the loop. -/
theorem Copying.round {k : ℕ} {d : Z80 FlatMemoryBus} (copying : Copying dec pc scratch c k d)
    (few : k < count c.context.regs) (quiet : d.interrupted = false) (rounds : ℕ) :
    ∃ u e, step bare rounds d = some (u, e) ∧ Copying dec pc scratch c (k + 1) e ∧
      Counted dec (decide (k + 1 < count c.context.regs)) d u e := by
  have at_ : d.context.regs.pc = pc := copying.tracked.on few
  obtain ⟨first, second⟩ := copying.instruction started spared few
  obtain ⟨u, e, stepped, counted, de, bus⟩ := step_load (copying.tracked.executes quiet) rounds
    (by rw [at_, first]) (by rw [at_, second])
  rw [copying.tracked.bc, left_ne_zero few] at counted
  have wide : d.context.bus.addrMask = 0xFFFF := copying.tracked.mask.trans started.wide
  have covered : overlaid d.context.bus = overlaid c.context.bus := by
    unfold overlaid FlatMemoryBus.findOverlay
    rw [copying.tracked.overlays]
  refine ⟨u, e, stepped, ⟨?_, ?_, ?_⟩, counted⟩
  · refine copying.tracked.advance few few counted ?_ ?_ (by simp)
    · rw [bus, FlatMemoryBus.addrMask_write8]
    · rw [bus, FlatMemoryBus.overlays_write8]
  · rw [de, copying.de, moved_succ]
  · have agree : Set.EqOn (shownMemory d.context.bus) (copy dec c k) scratchᶜ := copying.memory
    have value : shownMemory d.context.bus d.context.regs.hl =
        copy dec c k (moved dec c.context.regs.hl k) := by
      rw [copying.tracked.hl]
      exact copying.memory _ (started.read k few)
    rw [bus, shown_write8 wide, copy_succ, covered, copying.de, value]
    exact eqOn_store agree _ _

theorem copying_rule : Rule (blockLoop pc scratch) c (Copying dec pc scratch c)
    (· < count c.context.regs) 21 16 where
  start :=
    { tracked :=
        { awake := started.awake
          mask := rfl
          overlays := rfl
          hl := by simp [moved]
          bc := by simp
          a := rfl
          on _ := started.at_
          ended off := absurd (count_pos _) off }
      de := by simp [moved]
      memory _ _ := rfl }
  first := count_pos _
  waits_iff copying := copying.tracked.waits_iff
  between copying few turn :=
    { tracked := copying.tracked.preserved few turn.preserved
      de := turn.preserved.de.trans copying.de
      memory x kept := (turn.preserved.memory x kept).trans (copying.memory x kept) }
  round copying few := by
    rintro ⟨quiet, rounds, stepped⟩
    obtain ⟨u, e, stepped', next, counted⟩ := copying.round started spared few quiet rounds
    obtain ⟨rfl, rfl⟩ := Prod.mk.inj (Option.some.inj (stepped.symm.trans stepped'))
    refine ⟨next, ?_, ?_⟩
    · intro more
      rw [counted.time, if_pos (decide_eq_true more)]
    · intro last
      rw [counted.time, if_neg (by simpa using last)]

end Load

/-! ## CPIR and CPDR -/

section Compare
variable {dec : Bool} {pc : BitVec 16} {scratch : Set (BitVec 16)} {c : Z80 FlatMemoryBus}

/-- The bytes from HL on. -/
def byteAt (dec : Bool) (c : Z80 FlatMemoryBus) (k : ℕ) : BitVec 8 :=
  shownMemory c.context.bus (moved dec c.context.regs.hl k)

/-- BC is not used up, and no byte was A. -/
def Unmatched (dec : Bool) (c : Z80 FlatMemoryBus) (k : ℕ) : Prop :=
  k < count c.context.regs ∧ ∀ i < k, byteAt dec c i ≠ c.context.regs.a

theorem unmatched_succ {k : ℕ} (on : Unmatched dec c k) : Unmatched dec c (k + 1) ↔
    k + 1 < count c.context.regs ∧ byteAt dec c k ≠ c.context.regs.a := by
  constructor
  · rintro ⟨few, none_⟩
    exact ⟨few, none_ k (by omega)⟩
  · rintro ⟨few, other⟩
    refine ⟨few, fun i below => ?_⟩
    rcases Nat.lt_succ_iff_lt_or_eq.mp below with before | rfl
    · exact on.2 i before
    · exact other

structure Searching (dec : Bool) (pc : BitVec 16) (scratch : Set (BitVec 16))
    (c : Z80 FlatMemoryBus) (k : ℕ) (d : Z80 FlatMemoryBus) : Prop where
  tracked : Tracked dec (Unmatched dec c) pc c k d
  memory : ∀ x ∉ scratch, shownMemory d.context.bus x = shownMemory c.context.bus x
  zero : ¬Unmatched dec c k → ∀ j, k = j + 1 →
    (flag d.context.regs.f FZ = true ↔ byteAt dec c j = c.context.regs.a)

variable (started : Started (compareOp dec) dec pc scratch c)
include started

/-- One round of the loop. -/
theorem Searching.round {k : ℕ} {d : Z80 FlatMemoryBus} (searching : Searching dec pc scratch c k d)
    (on : Unmatched dec c k) (quiet : d.interrupted = false) (rounds : ℕ) :
    ∃ u e more, step bare rounds d = some (u, e) ∧ Searching dec pc scratch c (k + 1) e ∧
      Counted dec more d u e ∧ (more = true ↔ Unmatched dec c (k + 1)) := by
  have at_ : d.context.regs.pc = pc := searching.tracked.on on
  obtain ⟨u, e, stepped, counted, zero, bus⟩ := step_compare (searching.tracked.executes quiet) rounds
    (by rw [at_, searching.memory _ started.kept.1, started.first])
    (by rw [at_, searching.memory _ started.kept.2, started.second])
  have value : shownMemory d.context.bus d.context.regs.hl = byteAt dec c k := by
    rw [searching.tracked.hl]
    exact searching.memory _ (started.read k on.1)
  have same : (c.context.regs.a - byteAt dec c k == 0) = true ↔
      byteAt dec c k = c.context.regs.a := by
    rw [beq_iff_eq, sub_eq_zero]
    exact eq_comm
  rw [searching.tracked.bc, left_ne_zero on.1, value, searching.tracked.a] at counted
  rw [value, searching.tracked.a] at zero
  have decides : (decide (k + 1 < count c.context.regs) &&
      (c.context.regs.a - byteAt dec c k != 0)) = true ↔ Unmatched dec c (k + 1) := by
    rw [unmatched_succ on, Bool.and_eq_true, decide_eq_true_iff, bne, Bool.not_eq_true',
      ← Bool.not_eq_true, same]
  refine ⟨u, e, _, stepped, ⟨?_, ?_, ?_⟩, counted, decides⟩
  · exact searching.tracked.advance on on.1 counted (by rw [bus]) (by rw [bus]) decides
  · intro x kept
    rw [bus, searching.memory x kept]
  · rintro - j next
    obtain rfl : k = j := by omega
    rw [zero, same]

theorem searching_rule : Rule (blockLoop pc scratch) c (Searching dec pc scratch c)
    (Unmatched dec c) 21 16 where
  start :=
    { tracked :=
        { awake := started.awake
          mask := rfl
          overlays := rfl
          hl := by simp [moved]
          bc := by simp
          a := rfl
          on _ := started.at_
          ended off := absurd ⟨count_pos _, by simp⟩ off }
      memory _ _ := rfl
      zero _ j none_ := by omega }
  first := ⟨count_pos _, by simp⟩
  waits_iff searching := searching.tracked.waits_iff
  between searching on turn :=
    { tracked := searching.tracked.preserved on turn.preserved
      memory x kept := (turn.preserved.memory x kept).trans (searching.memory x kept)
      zero off := absurd on off }
  round searching on := by
    rintro ⟨quiet, rounds, stepped⟩
    obtain ⟨u, e, more, stepped', next, counted, decides⟩ :=
      searching.round started on quiet rounds
    obtain ⟨rfl, rfl⟩ := Prod.mk.inj (Option.some.inj (stepped.symm.trans stepped'))
    refine ⟨next, ?_, ?_⟩
    · intro again_
      rw [counted.time, if_pos (decides.mpr again_)]
    · intro last
      rw [counted.time, if_neg (fun h => last (decides.mp h))]

end Compare

/-! ## Whole runs -/

/-- The loop can be brought to its end. -/
def Ends (pc : BitVec 16) (scratch : Set (BitVec 16)) (d : Z80 FlatMemoryBus) : Prop :=
  ∃ k t e, (blockLoop pc scratch).Run d k t e ∧ e.context.regs.pc ≠ pc

/-- The block is copied byte by byte, in its time. -/
structure Copied (dec : Bool) (scratch : Set (BitVec 16)) (c : Z80 FlatMemoryBus) (t : ℕ)
    (e : Z80 FlatMemoryBus) : Prop where
  memory : ∀ x ∉ scratch,
    shownMemory e.context.bus x = copy dec c (count c.context.regs) x
  hl : e.context.regs.hl = moved dec c.context.regs.hl (count c.context.regs)
  de : e.context.regs.de = moved dec c.context.regs.de (count c.context.regs)
  bc : e.context.regs.bc = 0
  parity : flag e.context.regs.f FP = false
  time : t = 21 * (count c.context.regs - 1) + 16

/-- The search has stopped after `k` bytes, and the registers say why. -/
structure Searched (dec : Bool) (scratch : Set (BitVec 16)) (c : Z80 FlatMemoryBus) (k t : ℕ)
    (e : Z80 FlatMemoryBus) : Prop where
  some_ : 0 < k ∧ k ≤ count c.context.regs
  before : ∀ i < k - 1, byteAt dec c i ≠ c.context.regs.a
  stopped : byteAt dec c (k - 1) = c.context.regs.a ∨ k = count c.context.regs
  zero : flag e.context.regs.f FZ = true ↔ byteAt dec c (k - 1) = c.context.regs.a
  parity : flag e.context.regs.f FP = true ↔ k < count c.context.regs
  hl : e.context.regs.hl = moved dec c.context.regs.hl k
  bc : e.context.regs.bc = c.context.regs.bc - BitVec.ofNat 16 k
  memory : ∀ x ∉ scratch, shownMemory e.context.bus x = shownMemory c.context.bus x
  time : t = 21 * (k - 1) + 16

section Runs
variable {dec : Bool} {pc : BitVec 16} {scratch : Set (BitVec 16)} {c d : Z80 FlatMemoryBus}
  {k t : ℕ}

/-- No interrupt is to come. -/
def Quiet (d : Z80 FlatMemoryBus) : Prop := d.irqLine = false ∧ d.nmiPending = false

theorem Quiet.interrupted (quiet : Quiet d) : d.interrupted = false := by
  unfold Z80.interrupted Z80.irqTaken
  rw [quiet.1, quiet.2]
  rfl

theorem Quiet.counted {more : Bool} {u : ℕ} {e : Z80 FlatMemoryBus} (quiet : Quiet d)
    (counted : Counted dec more d u e) : Quiet e :=
  ⟨counted.irqLine.trans quiet.1, counted.nmiPending.trans quiet.2⟩

/-- A device that drops its line lets the loop come to its end. -/
theorem ends_of_rule {inv : ℕ → Z80 FlatMemoryBus → Prop} {going : ℕ → Prop}
    (rule : Rule (blockLoop pc scratch) c inv going 21 16) {n : ℕ} (bound : ∀ k, going k → k < n)
    (steps : ∀ {k d}, inv k d → going k → Quiet d →
      ∃ u e, step bare 0 d = some (u, e) ∧ Quiet e)
    (run : (blockLoop pc scratch).Run c k t d) (noNmi : d.nmiPending = false) :
    Ends pc scratch d := by
  by_cases waits : (blockLoop pc scratch).waits d
  · have dropped : (blockLoop pc scratch).Run d 0 0 (d.setIrqLine false) :=
      .between .start waits (.drives (.irqLine false))
    have quiet : Quiet (d.setIrqLine false) := ⟨rfl, noNmi⟩
    have rounds {k : ℕ} {d : Z80 FlatMemoryBus} (holds : inv k d) (on : going k) (quiet : Quiet d) :
        ∃ u e, (blockLoop pc scratch).round d u e ∧ Quiet e := by
      obtain ⟨u, e, stepped, still⟩ := steps holds on quiet
      exact ⟨u, e, ⟨quiet.interrupted, 0, stepped⟩, still⟩
    obtain ⟨k', t', e, rest, ended⟩ := rule.completes bound rounds (run.trans dropped) quiet
    exact ⟨_, _, e, dropped.trans rest, ended⟩
  · exact ⟨0, 0, d, .start, waits⟩

theorem copied_of_run (started : Started (loadOp dec) dec pc scratch c) (spared : Spared dec c)
    (run : (blockLoop pc scratch).Run c k t d) (past_ : d.context.regs.pc ≠ pc) :
    Copied dec scratch c t d := by
  obtain ⟨copying, timed⟩ := (copying_rule started spared).run run
  have off : ¬k < count c.context.regs := fun few => past_ (copying.tracked.on few)
  obtain ⟨on, -⟩ | ⟨-, j, rfl, few, rfl⟩ := timed
  · exact absurd on off
  · have all : j + 1 = count c.context.regs := by omega
    exact
      { memory := all ▸ copying.memory
        hl := all ▸ copying.tracked.hl
        de := all ▸ copying.de
        bc := by rw [copying.tracked.bc, all, ← bc_eq_count, sub_self]
        parity := by rw [(copying.tracked.ended off).2, decide_eq_false off]
        time := by rw [← all, Nat.add_sub_cancel] }

theorem searched_of_run (started : Started (compareOp dec) dec pc scratch c)
    (run : (blockLoop pc scratch).Run c k t d) (past_ : d.context.regs.pc ≠ pc) :
    Searched dec scratch c k t d := by
  obtain ⟨searching, timed⟩ := (searching_rule started).run run
  have off : ¬Unmatched dec c k := fun on => past_ (searching.tracked.on on)
  obtain ⟨on, -⟩ | ⟨-, j, rfl, on, rfl⟩ := timed
  · exact absurd on off
  · have few := on.1
    exact
      { some_ := ⟨by omega, few⟩
        before := on.2
        stopped := by
          by_contra neither
          rw [not_or] at neither
          exact off ((unmatched_succ on).mpr ⟨by omega, neither.1⟩)
        zero := searching.zero off j rfl
        parity := by rw [(searching.tracked.ended off).2, decide_eq_true_iff]
        hl := searching.tracked.hl
        bc := searching.tracked.bc
        memory := searching.memory
        time := rfl }

end Runs

/-- LDIR and LDDR copy byte by byte and CPIR and CPDR search byte by byte, whatever interrupts are
taken between the rounds. -/
theorem blocks_sequential (dec : Bool) (pc : BitVec 16) (scratch : Set (BitVec 16))
    (c : Z80 FlatMemoryBus) :
    (Started (loadOp dec) dec pc scratch c → Spared dec c →
      ∀ k t d, (blockLoop pc scratch).Run c k t d →
        (d.context.regs.pc = pc → k < count c.context.regs) ∧
        (d.nmiPending = false → Ends pc scratch d) ∧
        (d.context.regs.pc ≠ pc → Copied dec scratch c t d)) ∧
    (Started (compareOp dec) dec pc scratch c →
      ∀ k t d, (blockLoop pc scratch).Run c k t d →
        (d.context.regs.pc = pc → k < count c.context.regs) ∧
        (d.nmiPending = false → Ends pc scratch d) ∧
        (d.context.regs.pc ≠ pc → Searched dec scratch c k t d)) := by
  constructor
  · intro started spared k t d run
    have rule := copying_rule started spared
    refine ⟨(rule.waits_iff (rule.run run).1).mp, ?_, copied_of_run started spared run⟩
    refine ends_of_rule rule (fun _ few => few) ?_ run
    intro k d copying few quiet
    obtain ⟨u, e, stepped, -, counted⟩ := copying.round started spared few quiet.interrupted 0
    exact ⟨u, e, stepped, quiet.counted counted⟩
  · intro started k t d run
    have rule := searching_rule started
    refine ⟨fun here => ((rule.waits_iff (rule.run run).1).mp here).1, ?_,
      searched_of_run started run⟩
    refine ends_of_rule rule (fun _ on => on.1) ?_ run
    intro k d searching on quiet
    obtain ⟨u, e, more, stepped, -, counted, -⟩ := searching.round started on quiet.interrupted 0
    exact ⟨u, e, stepped, quiet.counted counted⟩

/-- $ED and an opcode at 0, with three bytes to go from $10 to $11. -/
def three (op : BitVec 8) : Z80 FlatMemoryBus where
  context :=
    { regs := { (default : Z80State) with
        pc := 0, a := 0x55, b := 0, c := 3, d := 0, e := 0x11, h := 0, l := 0x10 }
      bus := { FlatMemoryBus.new 16 with
        data := fun a => if a = 0 then 0xED else if a = 1 then op else if a = 0x12 then 0x55 else 7 }
      prefix_ := .none
      dispAddr := 0
      dispFetched := false }
  irqLine := false
  nmiLine := false
  nmiPending := false
  cycles := 0

theorem three_shown (op : BitVec 8) (a : BitVec 16) : shownMemory (three op).context.bus a =
    (three op).context.bus.data (a.setWidth 32) := shown_eq rfl a

theorem three_started (op : BitVec 8) (dec : Bool) : Started op dec 0 ∅ (three op) where
  at_ := rfl
  awake := rfl
  wide := rfl
  first := by
    rw [three_shown]
    simp [three]
  second := by
    rw [three_shown]
    simp [three]
  kept := by simp
  read := by simp

theorem three_spared (op : BitVec 8) : Spared false (three op) := by
  have all : count (three op).context.regs = 3 := by simp [count, three, Z80State.bc]
  have apart : ∀ k < 3, ¬(moved false 0x11 k = 0 ∨ moved false 0x11 k = 1) := by decide
  have at_ : (three op).context.regs.de = 0x11 := by simp [three, Z80State.de]
  have home : (three op).context.regs.pc = 0 := rfl
  intro k few on
  rw [all] at few
  rw [at_, home] at on
  exact absurd on (apart k few)

theorem blocks_sequential_three :
    (∃ k t e, (blockLoop 0 ∅).Run (three 0xB0) k t e ∧ Copied false ∅ (three 0xB0) t e) ∧
      ∃ k t e, (blockLoop 0 ∅).Run (three 0xB1) k t e ∧ Searched false ∅ (three 0xB1) k t e := by
  have load := (blocks_sequential false 0 ∅ (three 0xB0)).1 (three_started 0xB0 false)
    (three_spared 0xB0)
  have compare_ := (blocks_sequential false 0 ∅ (three 0xB1)).2 (three_started 0xB1 false)
  constructor
  · obtain ⟨k, t, e, run, past_⟩ := (load 0 0 _ .start).2.1 rfl
    exact ⟨k, t, e, run, (load k t e run).2.2 past_⟩
  · obtain ⟨k, t, e, run, past_⟩ := (compare_ 0 0 _ .start).2.1 rfl
    exact ⟨k, t, e, run, (compare_ k t e run).2.2 past_⟩

end Mmemu.Guarantees.BlockInstructions
