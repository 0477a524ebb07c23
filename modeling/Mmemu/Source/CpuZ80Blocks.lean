import Mmemu.Library.MemoryWrites
import Mmemu.Library.WordBytes
import Mmemu.Source.CpuZ80Step
import Mmemu.Source.DisasmZ80

/-!
# Zilog Z80: a round of a block instruction

LDIR, LDDR, CPIR and CPDR in 64 KB of memory, with no debugger attached: each step moves or looks
at one byte, and goes back to the instruction unless it was the last.
-/
namespace Mmemu.Source.CpuZ80
open Mmemu.Source.MemoryBus Mmemu.Library.LittleEndian Mmemu.Library.Copying
open Mmemu.Source.DisasmZ80 (shownMemory)

/-- A core that no debugger watches. -/
def bare : Wiring FlatMemoryBus := ⟨none, none⟩

/-- An overlay covers the address. -/
def overlaid (bus : FlatMemoryBus) (a : BitVec 16) : Bool :=
  (bus.findOverlay (a.setWidth 32)).isSome

/-- The opcodes behind $ED. -/
def loadOp (dec : Bool) : BitVec 8 := if dec then 0xB8 else 0xB0
def compareOp (dec : Bool) : BitVec 8 := if dec then 0xB9 else 0xB1

/-! ## Memory -/

section Memory
variable {bus : FlatMemoryBus}

theorem masked (wide : bus.addrMask = 0xFFFF) (a : BitVec 16) :
    a.setWidth 32 &&& bus.addrMask = a.setWidth 32 := by
  rw [wide]
  ext i bound
  by_cases low : i < 16
  · have all : ∀ i < 16, (0xFFFF#32).getLsbD i = true := by decide
    simp [all i low]
  · simp [BitVec.getLsbD_of_ge a i (by omega)]

theorem setWidth_inj {a b : BitVec 16} : a.setWidth 32 = b.setWidth 32 ↔ a = b := by
  constructor
  · intro same
    simpa using congrArg (BitVec.setWidth 16) same
  · rintro rfl
    rfl

theorem shown_eq (wide : bus.addrMask = 0xFFFF) (a : BitVec 16) :
    shownMemory bus a = match bus.findOverlay (a.setWidth 32) with
      | some o => o.data (a.setWidth 32 - o.base)
      | none => bus.data (a.setWidth 32) := by
  change bus.peek8 _ = _
  unfold FlatMemoryBus.peek8
  exact congrArg (fun m => match bus.findOverlay m with
    | some o => o.data (m - o.base)
    | none => bus.data m) (masked wide a)

theorem data_write8 (wide : bus.addrMask = 0xFFFF) {a x : BitVec 16} (v : BitVec 8)
    (ram : overlaid bus x = false) : (bus.write8 (a.setWidth 32) v).data (x.setWidth 32) =
      if x = a then v else bus.data (x.setWidth 32) := by
  unfold FlatMemoryBus.write8
  rw [masked wide]
  dsimp only
  by_cases same : x = a
  · subst same
    simp only [overlaid, Option.isSome_eq_false_iff, Option.isNone_iff_eq_none] at ram
    simp [ram]
  · have apart : x.setWidth 32 ≠ a.setWidth 32 := fun h => same (setWidth_inj.mp h)
    cases bus.findOverlay (a.setWidth 32) with
    | none => simp [same, apart]
    | some o => cases writable : o.writable <;> simp [writable, same, apart]

theorem shown_write8 (wide : bus.addrMask = 0xFFFF) (a : BitVec 16) (v : BitVec 8) :
    shownMemory (bus.write8 (a.setWidth 32) v) = store (overlaid bus) (shownMemory bus) a v := by
  funext x
  have found : (bus.write8 (a.setWidth 32) v).findOverlay (x.setWidth 32) =
      bus.findOverlay (x.setWidth 32) := by
    unfold FlatMemoryBus.findOverlay
    rw [FlatMemoryBus.overlays_write8]
  have wide' : (bus.write8 (a.setWidth 32) v).addrMask = 0xFFFF := by simp [wide]
  rw [shown_eq wide', found]
  cases covered : overlaid bus x with
  | true =>
    obtain ⟨o, found⟩ := Option.isSome_iff_exists.mp covered
    rw [store_of_ne v fun same => same ▸ covered, shown_eq wide, found]
  | false =>
    rw [data_write8 wide v covered]
    have none_ : bus.findOverlay (x.setWidth 32) = none := by
      simpa [overlaid] using covered
    unfold store
    by_cases same : x = a
    · subst same
      simp [none_, covered]
    · cases overlaid bus a <;> simp [none_, same, shown_eq wide]

end Memory

/-! ## A round -/

section Round

variable {c : Context FlatMemoryBus}

/-- The registers behind an opcode byte. -/
def past (s : Z80State) : Z80State := { s with pc := s.pc + 1 }.incR

theorem fetch_eq {op : BitVec 8} (shows_ : shownMemory c.bus c.regs.pc = op) :
    fetch c = (op, { c with regs := { c.regs with pc := c.regs.pc + 1 } }) := by
  rw [← shows_]
  rfl

theorem execED_load {dec : Bool} (second : shownMemory c.bus c.regs.pc = loadOp dec) :
    execED c = blockLoad dec true { c with regs := past c.regs } := by
  unfold execED
  change StateT.bind fetch _ c = _
  unfold StateT.bind
  rw [fetch_eq second]
  cases dec <;> rfl

theorem execED_compare {dec : Bool} (second : shownMemory c.bus c.regs.pc = compareOp dec) :
    execED c = blockCompare dec true { c with regs := past c.regs } := by
  unfold execED
  change StateT.bind fetch _ c = _
  unfold StateT.bind
  rw [fetch_eq second]
  cases dec <;> rfl

theorem execute_ED (rounds : ℕ) (first : shownMemory c.bus c.regs.pc = 0xED) :
    execute rounds c = some (finish 0xED 0 { c.started with regs := past c.started.regs }) := by
  have fetched : fetchM1 c.started = (0xED, { c.started with regs := past c.started.regs }) := by
    rw [← first]
    rfl
  have plain (c : Context FlatMemoryBus) : prefixLoop rounds 0xED 0 c = some (0xED, 0, c) := by
    unfold prefixLoop
    cases rounds <;> rfl
  unfold execute
  rw [fetched]
  dsimp only
  rw [plain, Option.map_some]

/-- The registers after LDI or LDD has moved a byte. -/
def loaded (dec : Bool) (s : Z80State) (v : BitVec 8) : Z80State :=
  (((s.setHl (s.hl + direction dec)).setDe (s.de + direction dec)).setBc (s.bc - 1)).setF
    (s.f &&& (FS ||| FZ ||| FC) ||| bitIf FP (s.bc - 1 != 0) ||| xyOf (v + s.a))

/-- The registers after CPI or CPD has looked at a byte. -/
def compared (dec : Bool) (s : Z80State) (v : BitVec 8) : Z80State :=
  let r := s.a - v
  let hf := (s.a ^^^ v ^^^ r) &&& FH
  { (s.setHl (s.hl + direction dec)).setBc (s.bc - 1) with wz := s.wz + direction dec }.setF
    (s.f &&& FC ||| r &&& FS ||| bitIf FZ (r == 0) ||| hf ||| FN ||| bitIf FP (s.bc - 1 != 0) |||
      xyOf (r - if hf = 0 then 0 else 1))

theorem blockLoad_eq (dec : Bool) (c : Context FlatMemoryBus) :
    blockLoad dec true c = again (c.regs.bc - 1 != 0) true { c with
      bus := c.bus.write8 (c.regs.de.setWidth 32) (shownMemory c.bus c.regs.hl)
      regs := loaded dec c.regs (shownMemory c.bus c.regs.hl) } := rfl

theorem blockCompare_eq (dec : Bool) (c : Context FlatMemoryBus) :
    blockCompare dec true c =
      again (c.regs.bc - 1 != 0 && c.regs.a - shownMemory c.bus c.regs.hl != 0) true { c with
        regs := compared dec c.regs (shownMemory c.bus c.regs.hl) } := rfl

theorem again_eq (more : Bool) (c : Context FlatMemoryBus) :
    again more true c = (if more then 21 else 16, { c with
      regs := if more then { c.regs with pc := c.regs.pc - 2, wz := c.regs.pc - 1 } else c.regs }) := by
  cases more <;> rfl

/-! ## Flags -/

theorem flag_P (f : BitVec 8) : flag f FP = f.getLsbD 2 := by
  revert f
  decide

theorem flag_Z (f : BitVec 8) : flag f FZ = f.getLsbD 6 := by
  revert f
  decide

theorem loaded_P (dec : Bool) (s : Z80State) (v : BitVec 8) :
    flag (loaded dec s v).f FP = (s.bc - 1 != 0) := by
  rw [flag_P]
  change (s.f &&& (FS ||| FZ ||| FC) ||| bitIf FP (s.bc - 1 != 0) ||| xyOf (v + s.a)).getLsbD 2 = _
  generalize (s.bc - 1 != 0) = more
  cases more <;> simp [xyOf, bitIf, FS, FZ, FC, FP, FX, FY]

theorem compared_P (dec : Bool) (s : Z80State) (v : BitVec 8) :
    flag (compared dec s v).f FP = (s.bc - 1 != 0) := by
  rw [flag_P]
  unfold compared Z80State.setF
  dsimp only
  generalize (s.bc - 1 != 0) = more
  generalize (s.a - v == 0) = zero
  cases more <;> cases zero <;> simp [xyOf, bitIf, FS, FZ, FC, FP, FX, FY, FH, FN]

theorem compared_Z (dec : Bool) (s : Z80State) (v : BitVec 8) :
    flag (compared dec s v).f FZ = (s.a - v == 0) := by
  rw [flag_Z]
  unfold compared Z80State.setF
  dsimp only
  generalize (s.bc - 1 != 0) = more
  generalize (s.a - v == 0) = zero
  cases more <;> cases zero <;> simp [xyOf, bitIf, FS, FZ, FC, FP, FX, FY, FH, FN]

/-! ## A step -/

/-- The registers behind both bytes of the instruction. -/
def opened (s : Z80State) : Z80State :=
  past (past { s with eiDelay := false, q := s.qNext, qNext := 0 })

/-- What the operation does to the registers that count its rounds. -/
structure Advanced (dec : Bool) (s s' : Z80State) : Prop where
  pc : s'.pc = s.pc + 2
  hl : s'.hl = s.hl + direction dec
  bc : s'.bc = s.bc - 1
  a : s'.a = s.a
  awake : s'.halted = s.halted
  parity : flag s'.f FP = (s.bc - 1 != 0)

theorem opened_pc (s : Z80State) : (opened s).pc = s.pc + 2 := by
  change s.pc + 1 + 1 = _
  rw [BitVec.add_assoc]
  rfl

theorem opened_hl (s : Z80State) : (opened s).hl = s.hl := rfl
theorem opened_bc (s : Z80State) : (opened s).bc = s.bc := rfl
theorem opened_a (s : Z80State) : (opened s).a = s.a := rfl
theorem opened_halted (s : Z80State) : (opened s).halted = s.halted := rfl

theorem loaded_hl (dec : Bool) (s : Z80State) (v : BitVec 8) :
    (loaded dec s v).hl = s.hl + direction dec := bytes_append _

theorem loaded_de (dec : Bool) (s : Z80State) (v : BitVec 8) :
    (loaded dec s v).de = s.de + direction dec := bytes_append _

theorem loaded_bc (dec : Bool) (s : Z80State) (v : BitVec 8) : (loaded dec s v).bc = s.bc - 1 :=
  bytes_append _

theorem loaded_pc (dec : Bool) (s : Z80State) (v : BitVec 8) : (loaded dec s v).pc = s.pc := rfl
theorem loaded_a (dec : Bool) (s : Z80State) (v : BitVec 8) : (loaded dec s v).a = s.a := rfl
theorem loaded_halted (dec : Bool) (s : Z80State) (v : BitVec 8) :
    (loaded dec s v).halted = s.halted := rfl

theorem compared_pc (dec : Bool) (s : Z80State) (v : BitVec 8) :
    (compared dec s v).pc = s.pc := rfl
theorem compared_a (dec : Bool) (s : Z80State) (v : BitVec 8) : (compared dec s v).a = s.a := rfl
theorem compared_halted (dec : Bool) (s : Z80State) (v : BitVec 8) :
    (compared dec s v).halted = s.halted := rfl

theorem compared_hl (dec : Bool) (s : Z80State) (v : BitVec 8) :
    (compared dec s v).hl = s.hl + direction dec := bytes_append _

theorem compared_bc (dec : Bool) (s : Z80State) (v : BitVec 8) :
    (compared dec s v).bc = s.bc - 1 := bytes_append _

theorem loaded_advanced (dec : Bool) (s : Z80State) (v : BitVec 8) :
    Advanced dec s (loaded dec (opened s) v) where
  pc := by rw [loaded_pc, opened_pc]
  hl := by rw [loaded_hl, opened_hl]
  bc := by rw [loaded_bc, opened_bc]
  a := by rw [loaded_a, opened_a]
  awake := by rw [loaded_halted, opened_halted]
  parity := by rw [loaded_P, opened_bc]

theorem compared_advanced (dec : Bool) (s : Z80State) (v : BitVec 8) :
    Advanced dec s (compared dec (opened s) v) where
  pc := by rw [compared_pc, opened_pc]
  hl := by rw [compared_hl, opened_hl]
  bc := by rw [compared_bc, opened_bc]
  a := by rw [compared_a, opened_a]
  awake := by rw [compared_halted, opened_halted]
  parity := by rw [compared_P, opened_bc]

/-- What a round does beside memory; `more` is that another one follows. -/
structure Counted (dec more : Bool) (c : Z80 FlatMemoryBus) (t : ℕ) (e : Z80 FlatMemoryBus) :
    Prop where
  time : t = if more then 21 else 16
  pc : e.context.regs.pc = if more then c.context.regs.pc else c.context.regs.pc + 2
  hl : e.context.regs.hl = c.context.regs.hl + direction dec
  bc : e.context.regs.bc = c.context.regs.bc - 1
  a : e.context.regs.a = c.context.regs.a
  awake : e.context.regs.halted = c.context.regs.halted
  parity : flag e.context.regs.f FP = (c.context.regs.bc - 1 != 0)
  irqLine : e.irqLine = c.irqLine
  nmiPending : e.nmiPending = c.nmiPending

/-- The core after an operation has decided whether it repeats. -/
def repeated (c : Z80 FlatMemoryBus) (more : Bool) (bus : FlatMemoryBus) (s : Z80State) :
    ℕ × Z80 FlatMemoryBus :=
  let out := again more true { c.context.started with bus := bus, regs := s }
  c.sampled.after (0 + out.1, { out.2 with prefix_ := .none })

theorem repeated_counted {dec more : Bool} {c : Z80 FlatMemoryBus} {bus : FlatMemoryBus}
    {s : Z80State} (advanced : Advanced dec c.context.regs s) :
    Counted dec more c (repeated c more bus s).1 (repeated c more bus s).2 := by
  have back : c.context.regs.pc + 2 - 2 = c.context.regs.pc := BitVec.add_sub_cancel _ _
  unfold repeated
  rw [again_eq]
  cases more with
  | false =>
    exact ⟨rfl, advanced.pc, advanced.hl, advanced.bc, advanced.a, advanced.awake, advanced.parity,
      rfl, rfl⟩
  | true =>
    refine ⟨rfl, ?_, advanced.hl, advanced.bc, advanced.a, advanced.awake, advanced.parity, rfl, rfl⟩
    change s.pc - 2 = _
    rw [advanced.pc, back, if_pos rfl]

theorem repeated_eq (c : Z80 FlatMemoryBus) (more : Bool) (bus : FlatMemoryBus) (s : Z80State) :
    (repeated c more bus s).2.context.bus = bus ∧
      (repeated c more bus s).2.context.regs.de = s.de ∧
      (repeated c more bus s).2.context.regs.f = s.f := by
  unfold repeated
  rw [again_eq]
  cases more <;> exact ⟨rfl, rfl, rfl⟩

section Step
variable {c : Z80 FlatMemoryBus} {dec : Bool} (executes : c.executes = true) (rounds : ℕ)
  (first : shownMemory c.context.bus c.context.regs.pc = 0xED)
include executes first

theorem step_ED : step bare rounds c = some (c.sampled.after
    (finish 0xED 0 { c.sampled.context.started with regs := past c.sampled.context.started.regs })) := by
  have declined : intercept bare c = (false, c) := rfl
  have shown : observe bare c.sampled = (true, c.sampled) := rfl
  have first : shownMemory c.sampled.context.bus c.sampled.context.regs.pc = 0xED := first
  rw [step_eq, declined, if_neg Bool.false_ne_true, proceed_executes executes, shown, if_pos rfl]
  dsimp only
  rw [execute_ED rounds first, Option.map_some]

/-- The operation behind the opcode bytes. -/
theorem step_operation (operation : Exec FlatMemoryBus ℕ)
    (second : ∀ c' : Context FlatMemoryBus, c'.bus = c.context.bus →
      c'.regs.pc = c.context.regs.pc + 1 → execED c' = operation { c' with regs := past c'.regs }) :
    step bare rounds c = some (
      let out := operation { c.context.started with regs := opened c.context.regs }
      c.sampled.after (0 + out.1, { out.2 with prefix_ := .none })) := by
  rw [step_ED executes rounds first]
  have run := second { c.sampled.context.started with
    regs := past c.sampled.context.started.regs, prefix_ := .none } rfl rfl
  have decoded_ : decoded 0xED { c.sampled.context.started with
      regs := past c.sampled.context.started.regs } =
        operation { c.context.started with regs := opened c.context.regs } := run
  unfold finish
  rw [decoded_]
  rfl

/-- LDIR and LDDR move a byte. -/
theorem step_load
    (second : shownMemory c.context.bus (c.context.regs.pc + 1) = loadOp dec) :
    ∃ u e, step bare rounds c = some (u, e) ∧ Counted dec (c.context.regs.bc - 1 != 0) c u e ∧
      e.context.regs.de = c.context.regs.de + direction dec ∧
      e.context.bus = c.context.bus.write8 (c.context.regs.de.setWidth 32)
        (shownMemory c.context.bus c.context.regs.hl) := by
  have stepped : step bare rounds c = some (repeated c (c.context.regs.bc - 1 != 0)
      (c.context.bus.write8 (c.context.regs.de.setWidth 32)
        (shownMemory c.context.bus c.context.regs.hl))
      (loaded dec (opened c.context.regs) (shownMemory c.context.bus c.context.regs.hl))) := by
    rw [step_operation executes rounds first (blockLoad dec true)]
    · rw [blockLoad_eq]
      rfl
    · intro c' bus pc
      exact execED_load (by rw [bus, pc, second])
  refine ⟨_, _, stepped, repeated_counted (loaded_advanced dec c.context.regs _), ?_, ?_⟩
  · exact (repeated_eq c _ _ _).2.1.trans (loaded_de dec (opened c.context.regs) _)
  · exact (repeated_eq c _ _ _).1

/-- CPIR and CPDR look at a byte. -/
theorem step_compare
    (second : shownMemory c.context.bus (c.context.regs.pc + 1) = compareOp dec) :
    ∃ u e, step bare rounds c = some (u, e) ∧
      Counted dec (c.context.regs.bc - 1 != 0 &&
        c.context.regs.a - shownMemory c.context.bus c.context.regs.hl != 0) c u e ∧
      flag e.context.regs.f FZ =
        (c.context.regs.a - shownMemory c.context.bus c.context.regs.hl == 0) ∧
      e.context.bus = c.context.bus := by
  have stepped : step bare rounds c = some (repeated c
      (c.context.regs.bc - 1 != 0 &&
        c.context.regs.a - shownMemory c.context.bus c.context.regs.hl != 0)
      c.context.bus
      (compared dec (opened c.context.regs) (shownMemory c.context.bus c.context.regs.hl))) := by
    rw [step_operation executes rounds first (blockCompare dec true)]
    · rw [blockCompare_eq]
      rfl
    · intro c' bus pc
      exact execED_compare (by rw [bus, pc, second])
  refine ⟨_, _, stepped, repeated_counted (compared_advanced dec c.context.regs _), ?_, ?_⟩
  · exact (congrArg (flag · FZ) (repeated_eq c _ _ _).2.2).trans
      (compared_Z dec (opened c.context.regs) _)
  · exact (repeated_eq c _ _ _).1

end Step

end Round

end Mmemu.Source.CpuZ80
