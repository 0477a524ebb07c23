import Mmemu.Source.Cpu45gs02Fetch

/-!
# MOS 45GS02: where an instruction leaves PC

A step that executes an instruction leaves PC behind its bytes, or at the target of a relative
branch that is taken.
-/
namespace Mmemu.Source.Cpu45gs02
open Mmemu.Source.MemoryBus
open Mmemu.Library.StateFrame

variable {ω : Type} [MachineBus ω]

/-- The core that a step fetches an instruction with, when that is what it does. -/
def MOS45GS02.fetching (w : Wiring ω) (c : MOS45GS02 ω) : Option (MOS45GS02 ω) :=
  if MachineBus.isHaltRequested c.bus || c.state.nmiTaken || c.state.irqTaken then none
  else if (intercept w c.sampled).1 then none
  else if (observe w (intercept w c.sampled).2).1 then some (observe w (intercept w c.sampled).2).2
  else none

theorem step_fetching (w : Wiring ω) {c c' : MOS45GS02 ω} (fetching : c.fetching w = some c') :
    (step w c).2 = (execute c').2 := by
  unfold MOS45GS02.fetching at fetching
  split at fetching
  · cases fetching
  next idle =>
    simp only [Bool.or_eq_true, not_or, Bool.not_eq_true] at idle
    obtain ⟨⟨running, nmi⟩, irq⟩ := idle
    rw [step_running w running, nmi, irq]
    change (proceed w c.sampled).2 = _
    unfold proceed
    simp only [bind_apply]
    split at fetching
    · cases fetching
    next refused =>
      rw [if_neg refused]
      split at fetching
      next continues =>
        cases fetching
        simp only [bind_apply, get_apply, continues, if_true]
        rfl
      · cases fetching

/-- The operand of the instruction at PC, and the core that is about to perform it. -/
def MOS45GS02.decoded (c : MOS45GS02 ω) : Operand × MOS45GS02 ω :=
  operand (opcode c.fetched.op).mode c.fetched.isQuad c.fetched.is32BitInd
    (fetchOpcode MAX_PREFIXES ⟨0, false, false⟩ c).2

theorem execute_eq (c : MOS45GS02 ω) :
    execute c = perform c.fetched c.decoded.1 c.decoded.2 := rfl

/-! ## Relative branches -/

def Fn.relative : Fn → Bool
  | .branch _ | .longBranch _ | .branchOnBit _ | .BSR => true
  | _ => false

/-- The branches with a 16-bit displacement. -/
def Fn.long : Fn → Bool
  | .longBranch _ | .BSR => true
  | _ => false

/-- Whether a relative branch is taken. -/
def Fetched.takes (f : Fetched) (o : Operand) (c : MOS45GS02 ω) : Bool :=
  match (opcode f.op).fn with
  | .branch k | .longBranch k => k.holds c.state.p
  | .branchOnBit on => (readAt o c).1.getLsbD ((f.op - if on then 0x8F else 0) >>> 4).toNat == on
  | .BSR => true
  | _ => false

/-- Whether the instruction at PC is a relative branch that is taken. -/
def MOS45GS02.takes (c : MOS45GS02 ω) : Bool := c.fetched.takes c.decoded.1 c.decoded.2

/-- The bytes that an instruction fetches when its operand is found. -/
def Fn.late : Fn → ℕ
  | .longBranch _ | .BSR => 2
  | .branchOnBit _ | .RTN => 1
  | _ => 0

theorem Fn.late_eq_zero {fn : Fn} (straight : fn.transfers = false) : fn.late = 0 := by
  cases fn <;> first | rfl | cases straight

/-- Where a relative branch leads, from the address behind its opcode. -/
def Fn.target (fn : Fn) (behind : BitVec 16) (lo hi : BitVec 8) : BitVec 16 :=
  match fn with
  | .branch _ => behind + 1 + lo.signExtend 16
  | .branchOnBit _ => behind + 2 + hi.signExtend 16
  | .longBranch _ | .BSR => behind + 1 + (hi ++ lo)
  | _ => behind

/-- The entries of the step's table and of the disassembler's, side by side, and what the two agree on:
how long they are, where branches find their displacement, how it is printed and that none has a 32-bit
form, that the step fetches as many bytes behind an opcode as the text shows, and that an opcode has a
32-bit operation in step when it has one in the text. -/
structure InstructionTable where
  entries : List (Opcode × Listing)
  full : opcodes.length = 256 ∧ listings.length = 256
  relative : ∀ p ∈ entries, p.1.fn.relative = true →
    p.1.quad = none ∧ (p.1.mode, p.2.form) = match p.1.fn with
      | .branch _ => (.imm, .rel8)
      | .branchOnBit _ => (.zp, .bitrel)
      | _ => (.imp, .rel16)
  bytes : ∀ p ∈ entries, p.1.mode.bytes.toNat + p.1.fn.late = p.2.form.bytes
  quads : ∀ p ∈ entries, p.1.quad.isSome = p.2.quad.isSome ∧ p.2.mnemonic ∉ quadMnemonics ∧
    ∀ q ∈ p.2.quad, q ∈ quadMnemonics

def instructionTable : InstructionTable where
  entries := opcodes.zip listings
  full := by decide +kernel
  relative := by decide +kernel
  bytes := by decide +kernel
  quads := by decide +kernel

theorem opcode_mem (op : BitVec 8) : (opcode op, listing op) ∈ instructionTable.entries := by
  obtain ⟨coded, listed⟩ := instructionTable.full
  have inCodes : op.toNat < opcodes.length := by rw [coded]; exact op.isLt
  have inListings : op.toNat < listings.length := by rw [listed]; exact op.isLt
  have inTable : op.toNat < (opcodes.zip listings).length := by
    rw [List.length_zip]
    exact Nat.lt_min.mpr ⟨inCodes, inListings⟩
  have at_ : (opcodes.zip listings)[op.toNat] = (opcode op, listing op) := by
    rw [List.getElem_zip, opcode, listing, List.getD_eq_getElem?_getD, List.getD_eq_getElem?_getD,
      List.getElem?_eq_getElem inCodes, List.getElem?_eq_getElem inListings]
    rfl
  exact at_ ▸ List.getElem_mem inTable

theorem ofNat_form_bytes (op : BitVec 8) :
    BitVec.ofNat 16 (listing op).form.bytes =
      (opcode op).mode.bytes + BitVec.ofNat 16 (opcode op).fn.late := by
  rw [← instructionTable.bytes _ (opcode_mem op), BitVec.ofNat_add, BitVec.ofNat_toNat, BitVec.setWidth_eq]

/-- An instruction that sets no PC leaves it behind its operand. -/
theorem perform_straight {f : Fetched} (straight : (opcode f.op).fn.transfers = false) (o : Operand)
    (c : MOS45GS02 ω) : (perform f o c).2.state.pc = c.state.pc := by
  have pcStill {x : Exec ω Unit} (still : Keeps (Moved 0) x) (n : ℕ) (c : MOS45GS02 ω) :
      ((do x; addCycles n : Exec ω Unit) c).2.state.pc = c.state.pc := by
    have moved := (still.bind fun _ => addCycles_still n) c
    exact moved.1.trans (BitVec.add_zero _)
  rcases quad : f.quad with _ | ⟨fn, cycles⟩
  · simp only [perform, quad]
    by_cases plain : (opcode f.op).fn.inhibits = true
    · simp only [Fn.inhibits, Bool.or_eq_true, decide_eq_true_eq] at plain
      rcases plain with map | eom
      · rw [map]
        change (if c.mapMmu then _ else c : MOS45GS02 ω).state.pc = _
        split <;> rfl
      · rw [eom]
        rfl
    · exact pcStill (call_still f.op straight (Bool.eq_false_iff.mpr plain) o) _ c
  · simp only [perform, quad]
    exact pcStill (callQ_still _ o) _ c

theorem branch_pc (k : Condition) (at_ : BitVec 16) (c : MOS45GS02 ω) :
    (branch k (.mem at_) c).2.state.pc =
      if k.holds c.state.p then c.state.pc + (read8 at_ c).1.signExtend 16 else c.state.pc := by
  unfold branch
  simp only [bind_apply, get_apply, readAt, read8_state]
  split
  · exact congrArg (·.pc + (read8 at_ c).1.signExtend 16) (read8_state at_ c)
  · exact congrArg (·.pc) (read8_state at_ c)

theorem read16_state (at_ : BitVec 16) (c : MOS45GS02 ω) : (read16 at_ c).2.state = c.state := by
  simp only [read16, bind_apply, pure_apply, read8_state]

theorem fetch_pc (c : MOS45GS02 ω) : (fetch c).2.state.pc = c.state.pc + 1 := (fetch_moved c).pc

theorem longBranch_pc (k : Condition) (c : MOS45GS02 ω) :
    (longBranch k c).2.state.pc =
      if k.holds c.state.p then c.state.pc + 1 + (read16 c.state.pc c).1 else c.state.pc + 2 := by
  have status : (regs (fun s => { s with pc := s.pc + 1 }) (read16 c.state.pc c).2).2.state =
      { c.state with pc := c.state.pc + 1 } :=
    congrArg (fun s => { s with pc := s.pc + 1 }) (read16_state c.state.pc c)
  unfold longBranch
  simp only [bind_apply, get_apply, congrArg (·.p) status]
  split
  · exact congrArg (·.pc + (read16 c.state.pc c).1) status
  · refine (congrArg (·.pc + 1) status).trans ?_
    change c.state.pc + 1 + 1 = c.state.pc + 2
    rw [BitVec.add_assoc]
    rfl

theorem branchOnBit_pc (on : Bool) (bit : ℕ) (at_ : BitVec 16) (c : MOS45GS02 ω) :
    (branchOnBit on bit (.mem at_) c).2.state.pc =
      if (read8 at_ c).1.getLsbD bit == on then
        c.state.pc + 1 + (fetch (read8 at_ c).2).1.signExtend 16
      else c.state.pc + 1 := by
  have pc : (fetch (read8 at_ c).2).2.state.pc = c.state.pc + 1 := by
    rw [fetch_pc, read8_state]
  unfold branchOnBit
  simp only [bind_apply, readAt]
  split
  · exact congrArg (· + (fetch (read8 at_ c).2).1.signExtend 16) pc
  · exact pc

theorem opBSR_pc (c : MOS45GS02 ω) :
    (opBSR c).2.state.pc = c.state.pc + 1 + (read16 c.state.pc c).1 := by
  have pc : (push16 (c.state.pc + 1) (read16 c.state.pc c).2).2.state.pc = c.state.pc := by
    rw [(push16_still (c.state.pc + 1) (read16 c.state.pc c).2).pc, read16_state]
    exact BitVec.add_zero _
  unfold opBSR
  simp only [bind_apply, get_apply]
  exact (congrArg (· + (1 + (read16 c.state.pc c).1)) pc).trans (BitVec.add_assoc _ _ _).symm

variable {addr : BitVec 32} {start : BitVec 16} {code : ℕ → BitVec 8} {experimental : Bool}
variable {c : MOS45GS02 ω} {i : ℕ}

/-- A relative branch leads to its target, or on behind its bytes. -/
theorem Standing.perform_branch (h : Standing addr start code experimental i c)
    (inReach : i + 1 < reach) {f : Fetched} (relative : (opcode f.op).fn.relative = true) :
    let found := operand (opcode f.op).mode f.isQuad f.is32BitInd c
    (perform f found.1 found.2).2.state.pc =
      if f.takes found.1 found.2 then
        (opcode f.op).fn.target (start + BitVec.ofNat 16 i) (code i) (code (i + 1))
      else start + BitVec.ofNat 16 i + (opcode f.op).mode.bytes + (opcode f.op).fn.late := by
  intro found
  obtain ⟨narrow, modes⟩ := instructionTable.relative _ (opcode_mem f.op) relative
  simp only at narrow modes
  have plain : f.quad = none := by
    unfold Fetched.quad
    split
    · exact narrow
    · rfl
  simp only [perform, plain]
  cases fn : (opcode f.op).fn with
  | branch k =>
    have imm : (opcode f.op).mode = .imm := by
      rw [fn] at modes
      exact congrArg Prod.fst modes
    set c₁ := (regs (fun s => { s with pc := s.pc + 1 }) c).2 with c₁_eq
    have found_eq : found = (.mem c.state.pc, c₁) := by
      simp only [found, imm]
      rfl
    have pc : c₁.state.pc = start + BitVec.ofNat 16 i + 1 := congrArg (· + 1) h.pc
    have offset : (Cpu45gs02.read8 c.state.pc c₁).1 = code i :=
      (read8_congr c c₁ rfl rfl rfl _).trans (h.here (by omega))
    have performed := branch_pc k c.state.pc c₁
    rw [offset, pc] at performed
    simp only [Fetched.takes, fn, found_eq, imm, call, Fn.target]
    refine performed.trans (congrArg₂ (ite _) rfl ?_)
    simp [Mode.bytes, Fn.late]
  | longBranch k =>
    have imp : (opcode f.op).mode = .imp := by
      rw [fn] at modes
      exact congrArg Prod.fst modes
    have found_eq : found = (.reg, c) := by
      simp only [found, imp]
      rfl
    have offset := h.read16 (by omega)
    have performed := longBranch_pc k c
    rw [offset, h.pc] at performed
    simp only [Fetched.takes, fn, found_eq, imp, call, Fn.target]
    refine performed.trans (congrArg₂ (ite _) rfl ?_)
    simp [Mode.bytes, Fn.late]
  | branchOnBit on =>
    have zp : (opcode f.op).mode = .zp := by
      rw [fn] at modes
      exact congrArg Prod.fst modes
    obtain ⟨-, fetched⟩ := h.fetch (by omega)
    have counted := fetched.addCycles 1
    set c₁ := (Cpu45gs02.addCycles 1 (Cpu45gs02.fetch c).2).2 with c₁_eq
    have found_eq : found = (.mem (c₁.state.b ++ ((Cpu45gs02.fetch c).1 + 0)), c₁) := by
      simp only [found, zp]
      rfl
    set at_ := c₁.state.b ++ ((Cpu45gs02.fetch c).1 + 0)
    have offset := ((counted.after_read8 at_).fetch (by omega)).1
    have performed := branchOnBit_pc on ((f.op - if on then 0x8F else 0) >>> 4).toNat at_ c₁
    have pc : c₁.state.pc + 1 = start + BitVec.ofNat 16 i + 2 := by
      rw [counted.pc, BitVec.ofNat_add, ← BitVec.add_assoc, BitVec.add_assoc _ _ 1]
      rfl
    rw [offset, pc] at performed
    simp only [Fetched.takes, fn, found_eq, zp, call, Fn.target, readAt]
    refine performed.trans (congrArg₂ (ite _) rfl ?_)
    simp [Mode.bytes, Fn.late, BitVec.add_assoc]
  | BSR =>
    have imp : (opcode f.op).mode = .imp := by
      rw [fn] at modes
      exact congrArg Prod.fst modes
    have found_eq : found = (.reg, c) := by
      simp only [found, imp]
      rfl
    have offset := h.read16 (by omega)
    have performed := opBSR_pc c
    rw [offset, h.pc] at performed
    simp only [Fetched.takes, fn, found_eq, call, Fn.target, if_true]
    exact performed
  | _ => rw [fn] at relative; cases relative

end Mmemu.Source.Cpu45gs02
