import Mmemu.Library.AccessTrees
import Mmemu.Source.Cpu6502Step

/-!
# MOS 6502: the accesses of an instruction

A step of an NMOS core is one tree of reads and writes for all that is in its registers, and makes at most
one access in each cycle that it counts. The opcode and the branch target that it keeps are those of the
65C02's bit instructions: the tree does not depend on them.
-/
namespace Mmemu.Source.Cpu6502
open Mmemu.Source.MemoryBus
open Mmemu.Library.AccessTrees

section Accesses
variable {ω : Type} [IBus ω]

/-- An NMOS core with these registers. -/
def CPU6502State.on (s : CPU6502State) (bus : ω) (kept : BitVec 8 × BitVec 16) : MOS6502 ω :=
  ⟨s, bus, false, kept.1, kept.2⟩

def ports : Ports ω (BitVec 32) (BitVec 8) := ⟨IBus.read8, IBus.write8⟩

/-- After `n` accesses the computation makes some more; the result allows for all of them. -/
abbrev Makes {α : Type} (n : ℕ) (cost : α → ℕ) (x : Exec ω α) : Prop :=
  Mmemu.Library.AccessTrees.Accesses CPU6502State.on ports n cost x

/-- It makes at most `m` accesses, whatever its result is. -/
abbrev AtMost {α : Type} (m : ℕ) (x : Exec ω α) : Prop := ∀ n, Makes n (fun _ => n + m) x

namespace AtMost
variable {α γ : Type} {m k : ℕ}

theorem pure (a : α) : AtMost m (Pure.pure a : Exec ω α) := fun n => .pure (Nat.le_add_right n m)

theorem bind {x : Exec ω α} {f : α → Exec ω γ} (first : AtMost m x) (next : ∀ a, AtMost k (f a)) :
    AtMost (m + k) (x >>= f) := fun n => (first n).bind fun a => by
  rw [← Nat.add_assoc]
  exact next a (n + m)

theorem get_bind [Nonempty ω] {f : MOS6502 ω → Exec ω γ}
    (blind : ∀ (s : CPU6502State) w e w' e', f (s.on w e) = f (s.on w' e')) (next : ∀ c, AtMost m (f c)) :
    AtMost m (get >>= f) := fun n => .get_bind blind fun s w e => next (s.on w e) n

/-- A change of the registers and of what the core keeps besides them. -/
theorem modify_makes {f : MOS6502 ω → MOS6502 ω} (own : CPU6502State → CPU6502State) {n m : ℕ} (le : n ≤ m)
    (changes : ∀ (s : CPU6502State) w e, ∃ e', f (s.on w e) = (own s).on w e') :
    Makes n (fun _ => m) (modifyGet fun c => (PUnit.unit, f c)) := Accesses.modify own changes le

/-- A change of the registers, in a computation with a bound of its own. -/
theorem regs_bind_makes {f : CPU6502State → CPU6502State} {n : ℕ} {cost : γ → ℕ} {x : Exec ω γ}
    (next : Makes n cost x) : Makes n cost (do regs f; x) :=
  Accesses.bind (modify_makes f (Nat.le_refl n) fun _ _ e => ⟨e, rfl⟩) fun _ => next

theorem regs_bind {f : CPU6502State → CPU6502State} {g : PUnit → Exec ω γ} (next : AtMost m (g ⟨⟩)) :
    AtMost m (regs f >>= g) := fun n => regs_bind_makes (next n)

theorem regs (f : CPU6502State → CPU6502State) : AtMost m (regs f : Exec ω Unit) := by
  intro n
  exact modify_makes f (Nat.le_add_right n m) fun _ _ e => ⟨e, rfl⟩

theorem read (addr : BitVec 16) : AtMost 1 (read addr : Exec ω (BitVec 8)) := by
  intro n
  refine Accesses.read (addr.setWidth 32) (fun _ _ _ => ?_) fun _ => Nat.le_refl (n + 1)
  rfl

theorem write (addr : BitVec 16) (val : BitVec 8) : AtMost 1 (write addr val : Exec ω Unit) := by
  intro n
  refine Accesses.write (addr.setWidth 32) val (fun _ _ _ => ?_) (Nat.le_refl (n + 1))
  rfl

theorem ite {c : Prop} [Decidable c] {x y : Exec ω α} (yes : c → AtMost m x) (no : ¬ c → AtMost m y) :
    AtMost m (if c then x else y) := fun n => .ite (fun h => yes h n) fun h => no h n

end AtMost

/-- The two accesses to a zero-page pointer. -/
theorem pointer_atMost (ptr : BitVec 8) : AtMost 2 (pointer ptr : Exec ω (BitVec 16)) :=
  (AtMost.read _).bind fun _ => (AtMost.read _).bind fun _ => .pure (m := 0) _

variable [Nonempty ω]

theorem fetch_atMost : AtMost 1 (fetch : Exec ω (BitVec 8)) :=
  .get_bind (fun _ _ _ _ _ => rfl) fun _ => .regs_bind (.read _)

theorem push_atMost (val : BitVec 8) : AtMost 1 (push val : Exec ω Unit) :=
  .get_bind (fun _ _ _ _ _ => rfl) fun _ => .regs_bind (.write _ _)

theorem pop_atMost : AtMost 1 (pop : Exec ω (BitVec 8)) :=
  .regs_bind (.get_bind (fun _ _ _ _ _ => rfl) fun _ => .read _)

/-! ## Addressing modes -/

theorem addrABS_atMost : AtMost 2 (addrABS : Exec ω (BitVec 16)) :=
  fetch_atMost.bind fun _ => (fetch_atMost (ω := ω)).bind fun _ => .pure (m := 0) _

/-- The accesses that it takes to find the operand of a mode. -/
def Mode.accesses : Mode → ℕ
  | .imp | .acc | .imm => 0
  | .bp | .bpx | .bpy | .rel => 1
  | .abs | .absx | .absy | .bprel => 2
  | .bpxind | .indbpy | .bpind => 3
  | .ind | .absxind => 4

theorem operand_atMost (mode : Mode) (penalty : Bool) :
    AtMost mode.accesses (operand mode penalty : Exec ω (BitVec 16 × ℕ)) := by
  have zeroPage : AtMost 1 (addrBP : Exec ω (BitVec 16)) := fetch_atMost.bind fun _ => .pure (m := 0) _
  have zeroPageX : AtMost 1 (addrBPX : Exec ω (BitVec 16)) :=
    fetch_atMost.bind fun _ => .get_bind (fun _ _ _ _ _ => rfl) fun _ => .pure (m := 0) _
  have zeroPageY : AtMost 1 (addrBPY : Exec ω (BitVec 16)) :=
    fetch_atMost.bind fun _ => .get_bind (fun _ _ _ _ _ => rfl) fun _ => .pure (m := 0) _
  have absoluteX : AtMost 2 (addrABSX : Exec ω (BitVec 16 × Bool)) :=
    addrABS_atMost.bind fun _ => .get_bind (fun _ _ _ _ _ => rfl) fun _ => .pure (m := 0) _
  have absoluteY : AtMost 2 (addrABSY : Exec ω (BitVec 16 × Bool)) :=
    addrABS_atMost.bind fun _ => .get_bind (fun _ _ _ _ _ => rfl) fun _ => .pure (m := 0) _
  have indirect : AtMost 4 (addrIND : Exec ω (BitVec 16)) :=
    addrABS_atMost.bind fun _ => (AtMost.read _).bind fun _ => .get_bind (fun _ _ _ _ _ => rfl) fun _ =>
      (AtMost.read _).bind fun _ => .pure (m := 0) _
  have indexedIndirect : AtMost 3 (addrBPXIND : Exec ω (BitVec 16)) :=
    fetch_atMost.bind fun _ => .get_bind (fun _ _ _ _ _ => rfl) fun _ => pointer_atMost _
  have indirectIndexed : AtMost 3 (addrINDBPY : Exec ω (BitVec 16 × Bool)) :=
    fetch_atMost.bind fun _ => (pointer_atMost (ω := ω) _).bind fun _ => .get_bind (fun _ _ _ _ _ => rfl) fun _ =>
      .pure (m := 0) _
  have zeroPageIndirect : AtMost 3 (addrBPIND : Exec ω (BitVec 16)) :=
    fetch_atMost.bind fun _ => pointer_atMost _
  have absoluteXIndirect : AtMost 4 (addrABSXIND : Exec ω (BitVec 16)) :=
    addrABS_atMost.bind fun _ => .get_bind (fun _ _ _ _ _ => rfl) fun _ =>
      (AtMost.read _).bind fun _ => (AtMost.read _).bind fun _ => .pure (m := 0) _
  cases mode with
  | imp | acc => exact .pure _
  | imm => exact .get_bind (fun _ _ _ _ _ => rfl) fun _ => .regs_bind (.pure _)
  | bp => exact zeroPage.bind fun _ => .pure (m := 0) _
  | bpx => exact zeroPageX.bind fun _ => .pure (m := 0) _
  | bpy => exact zeroPageY.bind fun _ => .pure (m := 0) _
  | abs => exact addrABS_atMost.bind fun _ => .pure (m := 0) _
  | absx => exact absoluteX.bind fun _ => .pure (m := 0) _
  | absy => exact absoluteY.bind fun _ => .pure (m := 0) _
  | ind => exact indirect.bind fun _ => .pure (m := 0) _
  | bpxind => exact indexedIndirect.bind fun _ => .pure (m := 0) _
  | indbpy => exact indirectIndexed.bind fun _ => .pure (m := 0) _
  | rel => exact fetch_atMost.bind fun _ => .get_bind (fun _ _ _ _ _ => rfl) fun _ => .pure (m := 0) _
  | bpind => exact zeroPageIndirect.bind fun _ => .pure (m := 0) _
  | absxind => exact absoluteXIndirect.bind fun _ => .pure (m := 0) _
  | bprel =>
    refine fetch_atMost.bind (k := 1) fun _ => fetch_atMost.bind (k := 0) fun rel n => ?_
    refine Accesses.bind (AtMost.modify_makes id (Nat.le_refl n) fun s _ e => ?_) fun _ => .pure (Nat.le_refl n)
    exact ⟨(e.1, s.pc + rel.signExtend 16), rfl⟩

/-! ## Kinds of instructions -/

section Kinds
variable (addr : BitVec 16)

omit [Nonempty ω] in
theorem implied_atMost (f : CPU6502State → CPU6502State) : AtMost 0 (implied f addr : Exec ω ℕ) :=
  .regs_bind (.pure _)

omit [Nonempty ω] in
theorem loaded_atMost (f : CPU6502State → BitVec 8 → CPU6502State) : AtMost 1 (loaded f addr : Exec ω ℕ) :=
  (AtMost.read _).bind (k := 0) fun _ => .regs_bind (.pure _)

theorem stored_atMost (val : CPU6502State → BitVec 8) : AtMost 1 (stored val addr : Exec ω ℕ) :=
  .get_bind (fun _ _ _ _ _ => rfl) fun _ => (AtMost.write _ _).bind fun _ => .pure (m := 0) _

theorem pushed_atMost (val : CPU6502State → BitVec 8) : AtMost 1 (pushed val addr : Exec ω ℕ) :=
  .get_bind (fun _ _ _ _ _ => rfl) fun _ => (push_atMost _).bind fun _ => .pure (m := 0) _

theorem popped_atMost (f : CPU6502State → BitVec 8 → CPU6502State) : AtMost 1 (popped f addr : Exec ω ℕ) :=
  pop_atMost.bind (k := 0) fun _ => .regs_bind (.pure _)

theorem branch_atMost (taken : CPU6502State → Bool) : AtMost 0 (branch taken addr : Exec ω ℕ) :=
  .get_bind (fun _ _ _ _ _ => rfl) fun _ => .ite (fun _ => .regs_bind (.pure _)) fun _ => .pure _

theorem shifted_atMost (f : BitVec 8 → BitVec 8 → Bool × BitVec 8) : AtMost 2 (shifted f addr : Exec ω ℕ) := by
  refine .get_bind (fun _ _ _ _ _ => rfl) fun _ => .ite (fun _ => .regs_bind (.pure _)) fun _ => ?_
  exact (AtMost.read _).bind (k := 1) fun _ => .regs_bind <|
    (AtMost.write _ _).bind (k := 0) fun _ => .regs_bind (.pure _)

/-- Address $FFFF stands for the accumulator. -/
theorem shifted_acc (f : BitVec 8 → BitVec 8 → Bool × BitVec 8) : AtMost 0 (shifted f 0xFFFF : Exec ω ℕ) :=
  .get_bind (fun _ _ _ _ _ => rfl) fun _ => .ite (fun _ => .regs_bind (.pure _)) fun other => absurd rfl other

omit [Nonempty ω] in
theorem stepByte_atMost (by_ : BitVec 8) : AtMost 2 (stepByte by_ addr : Exec ω ℕ) :=
  (AtMost.read _).bind (k := 1) fun _ => (AtMost.write _ _).bind (k := 0) fun _ => .regs_bind (.pure _)

/-- ADC and SBC. -/
theorem opADC_atMost : AtMost 1 (opADC addr : Exec ω ℕ) :=
  (AtMost.read _).bind (k := 0) fun _ => .get_bind (fun _ _ _ _ _ => rfl) fun _ =>
    .ite (fun _ => .regs_bind (.pure _)) fun _ => .regs_bind (.pure _)

theorem opSBC_atMost : AtMost 1 (opSBC addr : Exec ω ℕ) :=
  (AtMost.read _).bind (k := 0) fun _ => .get_bind (fun _ _ _ _ _ => rfl) fun _ =>
    .ite (fun _ => .regs_bind (.pure _)) fun _ => .regs_bind (.pure _)

variable {addr}

omit [Nonempty ω] in
theorem both_atMost {m k : ℕ} {first second : BitVec 16 → Exec ω ℕ} (h : AtMost m (first addr))
    (h' : AtMost k (second addr)) : AtMost (m + k) (both first second addr) := h.bind fun _ => h'

omit [Nonempty ω] in
theorem stepThen_atMost (by_ : BitVec 8) {next : BitVec 16 → Exec ω ℕ} (h : AtMost 1 (next addr)) :
    AtMost 3 (stepThen by_ next addr) :=
  (AtMost.read _).bind (k := 2) fun _ => (AtMost.write _ _).bind fun _ => h

variable (addr)

theorem testAndWrite_atMost (f : BitVec 8 → BitVec 8 → BitVec 8) : AtMost 2 (testAndWrite f addr : Exec ω ℕ) :=
  (AtMost.read _).bind (k := 1) fun _ => .regs_bind <| .get_bind (fun _ _ _ _ _ => rfl) fun _ =>
    (AtMost.write _ _).bind fun _ => .pure (m := 0) _

omit [Nonempty ω] in
theorem storeAndHigh_atMost (index value : BitVec 8) : AtMost 1 (storeAndHigh addr index value : Exec ω ℕ) :=
  (AtMost.write _ _).bind fun _ => .pure (m := 0) _

theorem opTAS_atMost : AtMost 1 (opTAS addr : Exec ω ℕ) :=
  .regs_bind <| .get_bind (fun _ _ _ _ _ => rfl) fun _ => storeAndHigh_atMost _ _ _

theorem opALR_atMost : AtMost 1 (opALR addr : Exec ω ℕ) :=
  (AtMost.read _).bind (k := 0) fun _ => .regs_bind (shifted_acc _)

theorem opJSR_atMost : AtMost 2 (opJSR addr : Exec ω ℕ) :=
  .get_bind (fun _ _ _ _ _ => rfl) fun _ => (push_atMost _).bind (k := 1) fun _ =>
    (push_atMost _).bind (k := 0) fun _ => .regs_bind (.pure _)

theorem opRTI_atMost : AtMost 3 (opRTI addr : Exec ω ℕ) :=
  pop_atMost.bind (k := 2) fun _ => .regs_bind <| pop_atMost.bind (k := 1) fun _ => pop_atMost.bind (k := 0) fun _ =>
    .regs_bind (.pure _)

theorem opRTS_atMost : AtMost 2 (opRTS addr : Exec ω ℕ) :=
  pop_atMost.bind (k := 1) fun _ => pop_atMost.bind (k := 0) fun _ => .regs_bind (.pure _)

theorem enter_atMost (status : BitVec 8 → BitVec 8) (vector : BitVec 16) :
    AtMost 5 (enter none status vector : Exec ω Unit) := by
  refine .get_bind (fun _ _ _ _ _ => rfl) fun _ => (push_atMost _).bind (k := 4) fun _ =>
    (push_atMost _).bind (k := 3) fun _ => .get_bind (fun _ _ _ _ _ => rfl) fun _ =>
    (push_atMost _).bind (k := 2) fun _ => .get_bind (fun _ _ _ _ _ => rfl) fun _ => .regs_bind ?_
  refine AtMost.bind (m := 0) (k := 2)
    (fun n => AtMost.modify_makes (f := fun c => c) id (Nat.le_refl n) fun _ _ e => ⟨e, rfl⟩) fun _ => ?_
  exact (AtMost.read _).bind (k := 1) fun _ => (AtMost.read _).bind (k := 0) fun _ => .regs _

theorem opBRK_atMost : AtMost 5 (opBRK none addr : Exec ω ℕ) :=
  .regs_bind <| (enter_atMost _ _).bind (k := 0) fun _ => .pure _

end Kinds

/-! ## Every instruction -/

/-- The accesses that an instruction's function makes. -/
def OpcodeFn.accesses : OpcodeFn → ℕ
  | .BRK => 5
  | .RTI | .SLO | .RLA | .SRE | .RRA | .DCP | .ISC => 3
  | .ASL | .LSR | .ROL | .ROR | .INC | .DEC | .RMB | .SMB | .TSB | .TRB | .JSR | .RTS => 2
  | .BCC | .BCS | .BEQ | .BMI | .BNE | .BPL | .BRA | .BVC | .BVS | .CLC | .CLD | .CLI | .CLV | .SEC | .SED | .SEI
  | .DECA | .INCA | .DEX | .DEY | .INX | .INY | .JMP | .KIL | .NOP | .STP | .WAI
  | .TAX | .TAY | .TSX | .TXA | .TXS | .TYA => 0
  | _ => 1

/-- The functions that work on the accumulator. -/
def OpcodeFn.accumulates : OpcodeFn → Bool
  | .ASL | .LSR | .ROL | .ROR | .INCA | .DECA => true
  | _ => false

/-- The functions that the bit instructions have. -/
def OpcodeFn.usesBit : OpcodeFn → Bool
  | .BBR | .BBS | .RMB | .SMB => true
  | _ => false

theorem call_atMost {w : Wiring ω} (plain : w.onVectorPull = none) {fn : OpcodeFn} (nmos : fn.usesBit = false)
    (addr : BitVec 16) : AtMost fn.accesses (call w fn addr) := by
  cases fn with
  | ADC => exact opADC_atMost addr
  | SBC => exact opSBC_atMost addr
  | AND | EOR | ORA | XAA | LDA | LDX | LDY | CMP | CPX | CPY | BIT | BITI | LAX | LXA | LAS | ANC | ARR | AXS =>
    exact loaded_atMost addr _
  | ASL | LSR | ROL | ROR =>
    simp only [call, opASL, opLSR, opROL, opROR]
    exact shifted_atMost addr _
  | INC | DEC =>
    simp only [call, opINC, opDEC]
    exact stepByte_atMost addr _
  | BCC | BCS | BEQ | BNE | BPL | BMI | BVC | BVS =>
    simp only [call, opBCC, opBCS, opBEQ, opBNE, opBPL, opBMI, opBVC, opBVS]
    exact branch_atMost addr _
  | CLC | CLD | CLI | CLV | SEC | SED | SEI | DEX | INX | TAX | TSX | DEY | INY | TAY | TXA | TYA | INCA | DECA
  | NOP | KIL | TXS | WAI | STP | JMP => exact implied_atMost addr _
  | JSR => exact opJSR_atMost addr
  | BRA => exact .get_bind (fun _ _ _ _ _ => rfl) fun _ => .regs_bind (.pure _)
  | BBR | BBS | RMB | SMB => cases nmos
  | TSB | TRB =>
    simp only [call, opTSB, opTRB]
    exact testAndWrite_atMost addr _
  | PHA | PHX | PHY | PHP =>
    simp only [call, opPHA, opPHX, opPHY, opPHP]
    exact pushed_atMost addr _
  | PLA | PLX | PLY | PLP =>
    simp only [call, opPLA, opPLX, opPLY, opPLP]
    exact popped_atMost addr _
  | RTI => exact opRTI_atMost addr
  | RTS => exact opRTS_atMost addr
  | BRK =>
    change AtMost 5 (opBRK w.onVectorPull addr)
    rw [plain]
    exact opBRK_atMost addr
  | STA | STX | STY | STZ | SAX =>
    simp only [call, opSTA, opSTX, opSTY, opSTZ, opSAX]
    exact stored_atMost addr _
  | SLO | RLA | SRE =>
    simp only [call, opSLO, opRLA, opSRE, opASL, opROL, opLSR, opORA, opAND, opEOR]
    exact both_atMost (m := 2) (k := 1) (shifted_atMost addr _) (loaded_atMost addr _)
  | RRA =>
    simp only [call, opRRA, opROR]
    exact both_atMost (m := 2) (k := 1) (shifted_atMost addr _) (opADC_atMost addr)
  | DCP =>
    simp only [call, opDCP, opCMP]
    exact stepThen_atMost _ (loaded_atMost addr _)
  | ISC =>
    simp only [call, opISC]
    exact stepThen_atMost _ (opSBC_atMost addr)
  | ALR => exact opALR_atMost addr
  | AHX | SHY | SHX =>
    simp only [call, opAHX, opSHY, opSHX]
    exact .get_bind (fun _ _ _ _ _ => rfl) fun _ => storeAndHigh_atMost _ _ _
  | TAS => exact opTAS_atMost addr

/-- What an instruction of the accumulator does with it makes no access. -/
theorem call_acc (w : Wiring ω) {fn : OpcodeFn} (fits : fn.accumulates = true) : AtMost 0 (call w fn 0xFFFF) := by
  cases fn with
  | ASL | LSR | ROL | ROR =>
    simp only [call, opASL, opLSR, opROL, opROR]
    exact shifted_acc _
  | INCA | DECA => exact implied_atMost 0xFFFF _
  | _ => cases fits

/-- The accesses that take place for an entry of a table. -/
def Opcode.accesses (info : Opcode) : ℕ :=
  if info.mode = .acc then 1 else 1 + info.mode.accesses + info.fn.accesses

/-- An entry has a cycle for each of its accesses, and none of the 65C02's functions. -/
def Opcode.fits (info : Opcode) : Bool :=
  decide (info.accesses ≤ info.cycles) && !info.fn.usesBit && (decide (info.mode ≠ .acc) || info.fn.accumulates)

set_option maxRecDepth 20000 in
theorem s_opcodes_fit : s_opcodes.all Opcode.fits = true := by decide

theorem opcode_fits (op : BitVec 8) : (opcode false op).fits = true := by
  change (s_opcodes.getD op.toNat ⟨"BRK", .BRK, .imp, 7, false⟩).fits = true
  rw [List.getD_eq_getElem?_getD]
  cases found : s_opcodes[op.toNat]? with
  | none => rfl
  | some info => exact List.all_eq_true.mp s_opcodes_fit info (List.mem_of_getElem? found)

/-! ## The step -/

omit [Nonempty ω] in
theorem addCycles_makes {m n : ℕ} (enough : m ≤ n) : Makes m id (addCycles n : Exec ω ℕ) :=
  Accesses.bind (AtMost.regs (m := 0) _ m) fun _ => .pure enough

omit [Nonempty ω] in
/-- The rest of an instruction whose operand is found: the accesses up to here and those of its function
are within its cycles. -/
theorem perform_makes {w : Wiring ω} (unwatched : w.observer = none) {m k : ℕ} {info : Opcode} {extra : ℕ}
    {pc addr : BitVec 16} (calls : AtMost k (call w info.fn addr)) (enough : m + k ≤ info.cycles) :
    Makes m id (do
      if ← observe w pc then
        let more ← call w info.fn addr
        addCycles (info.cycles + (extra + more))
      else return 1) := by
  have shown : observe w pc = (Pure.pure true : Exec ω Bool) := by
    simp only [observe, unwatched]
  rw [shown, pure_bind, if_pos rfl]
  exact Accesses.bind (calls m) fun more =>
    addCycles_makes (Nat.le_trans enough (Nat.le_add_right info.cycles (extra + more)))

theorem execute_makes {w : Wiring ω} (unwatched : w.observer = none) (plain : w.onVectorPull = none) :
    Makes 0 id (execute w) := by
  refine .get_bind (fun _ _ _ _ _ => rfl) fun s bus kept => Accesses.bind (fetch_atMost 0) fun op => ?_
  refine Accesses.bind (AtMost.modify_makes id (Nat.le_refl 1) fun _ _ e => ⟨(op, e.2), rfl⟩) fun _ => ?_
  change Makes 1 id (do
    let found ← operand (opcode false op).mode (pagePenalty false op)
    if ← observe w s.pc then
      let more ← call w (opcode false op).fn found.1
      addCycles ((opcode false op).cycles + (found.2 + more))
    else return 1)
  have fits := opcode_fits op
  revert fits
  generalize opcode false op = info
  intro fits
  obtain ⟨⟨enough, nmos⟩, accumulates⟩ := by simpa [Opcode.fits] using fits
  by_cases acc : info.mode = .acc
  · have accumulates : info.fn.accumulates = true := by simpa [acc] using accumulates
    rw [Opcode.accesses, if_pos acc] at enough
    have first : (operand info.mode (pagePenalty false op) : Exec ω (BitVec 16 × ℕ)) = Pure.pure (0xFFFF, 0) := by
      rw [acc]
      rfl
    rw [first]
    exact perform_makes unwatched (call_acc w accumulates) enough
  · rw [Opcode.accesses, if_neg acc] at enough
    exact Accesses.bind (operand_atMost info.mode _ 1) fun found =>
      perform_makes unwatched (call_atMost plain nmos found.1) enough

theorem interrupt_makes {w : Wiring ω} (plain : w.onVectorPull = none) (vector : BitVec 16) :
    Makes 0 id (interrupt w vector) := by
  rw [interrupt, plain]
  exact Accesses.bind (enter_atMost _ vector 0) fun _ => addCycles_makes (by decide)

/-- A step makes at most one access in each cycle it returns. -/
theorem step_makes {w : Wiring ω} (unwatched : w.observer = none) (unhooked : w.pcHook = none)
    (plain : w.onVectorPull = none) : Makes 0 id (step w) := by
  rw [step]
  refine .get_bind (fun _ _ _ _ _ => rfl) fun _ _ _ => .ite (fun _ => addCycles_makes (by decide)) fun _ => ?_
  refine AtMost.regs_bind_makes (.ite (fun _ => AtMost.regs_bind_makes (interrupt_makes plain _)) fun _ => ?_)
  refine AtMost.regs_bind_makes (.ite (fun _ => interrupt_makes plain _) fun _ => ?_)
  rw [unhooked]
  exact execute_makes unwatched plain

end Accesses
end Mmemu.Source.Cpu6502
