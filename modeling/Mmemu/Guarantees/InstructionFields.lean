import Mmemu.Guarantees.AssemblerInverse
import Mmemu.Source.Cpu45gs02Branch

/-!
# MOS 45GS02: branch targets in the debugger

The target that a debugger shows for a relative branch, in the text and in the decoded entry,
beside the PC that a step leaves. They are the same for 8-bit displacements. A 16-bit one counts
from the byte behind the opcode's second byte in the step, and from one farther in the debugger.
-/
namespace Mmemu.Guarantees.BranchTargets
open Mmemu.Source.MemoryBus
open Mmemu.Source.Cpu45gs02
open Mmemu.Source.Assembler6502 (dollar hexDigits isHexDigit)
open Mmemu.Library.Numerals

/-- Where the debugger says that a relative branch leads, from the address behind its opcode. -/
def shown (fn : Fn) (behind : BitVec 16) (lo hi : BitVec 8) : BitVec 16 :=
  if fn.long then behind + 2 + (hi ++ lo) else fn.target behind lo hi

theorem shown_branch (k : Condition) (behind : BitVec 16) (lo hi : BitVec 8) :
    shown (.branch k) behind lo hi = behind + 1 + lo.signExtend 16 := rfl

theorem shown_eq_target_iff {fn : Fn} (relative : fn.relative = true) (behind : BitVec 16)
    (lo hi : BitVec 8) : shown fn behind lo hi = fn.target behind lo hi ↔ fn.long = false := by
  unfold shown
  cases fn with
  | longBranch | BSR => simp [Fn.long, Fn.target]
  | branch | branchOnBit => simp [Fn.long]
  | _ => cases relative

theorem wide_inj {a b : BitVec 16} (same : a.setWidth 32 = b.setWidth 32) : a = b := by
  have narrow := congrArg (BitVec.setWidth 16) same
  simpa using narrow

/-! ## What the debugger shows -/

section Debugger
variable {ω : Type} [IBus ω] {bus : ω} {addr : BitVec 32} {code : ℕ → BitVec 8}

theorem target_eq {n : ℕ} (behind : BitVec 32) (k : ℕ) (r : BitVec n) :
    target (behind + BitVec.ofNat 32 k) r =
      behind.setWidth 16 + BitVec.ofNat 16 k + r.signExtend 16 := by
  have narrow : (r.signExtend 32).setWidth 16 = r.signExtend 16 := by
    ext i inside
    by_cases near : i < n
    · simp [BitVec.getElem_signExtend, near, show i < 32 by omega]
    · simp [BitVec.getElem_signExtend, near, show i < 32 by omega]
  rw [target, BitVec.setWidth_add _ _ (by decide), BitVec.setWidth_add _ _ (by decide), narrow,
    BitVec.setWidth_ofNat_of_le (by decide)]

/-- The operand text of a relative branch ends in its target. -/
theorem shown_operandText {op : BitVec 8} (relative : (opcode op).fn.relative = true)
    (is32BitInd : Bool) (behind : BitVec 32) (lo hi : BitVec 8) :
    ∃ front, operandText (listing op).form is32BitInd behind lo hi =
      front ++ dollar 4 (shown (opcode op).fn (behind.setWidth 16) lo hi).toNat := by
  obtain ⟨-, modes⟩ := instructionTable.relative _ (opcode_mem op) relative
  have one := target_eq behind 1 lo
  have two := target_eq behind 2 hi
  have word := target_eq behind 2 (hi ++ lo)
  cases fn : (opcode op).fn with
  | branch k =>
    rw [fn] at modes
    rw [show (listing op).form = .rel8 from congrArg Prod.snd modes]
    exact ⟨[], congrArg (fun t : BitVec 16 => dollar 4 t.toNat) one⟩
  | branchOnBit on =>
    rw [fn] at modes
    rw [show (listing op).form = .bitrel from congrArg Prod.snd modes]
    refine ⟨dollar 2 lo.toNat ++ [','], ?_⟩
    rw [List.append_assoc]
    exact congrArg (fun t : BitVec 16 => dollar 2 lo.toNat ++ ',' :: dollar 4 t.toNat) two
  | longBranch | BSR =>
    rw [fn] at modes
    rw [show (listing op).form = .rel16 from congrArg Prod.snd modes]
    refine ⟨[], congrArg (fun t : BitVec 16 => dollar 4 t.toNat) (word.trans ?_)⟩
    rw [BitVec.signExtend_eq]
    rfl
  | _ => rw [fn] at relative; cases relative

/-- The number behind the last dollar sign is the one printed last. -/
theorem lastNumber_append (front : List Char) {n : ℕ} (small : n < 16 ^ 4) :
    lastNumber (front ++ dollar 4 n) = BitVec.ofNat 32 n := by
  have glyphs : ∀ d < 16, (hexDigits.glyph d != '$') = true ∧ isHexDigit (hexDigits.glyph d) = true := by
    decide
  have digits : ∀ c ∈ hexDigits.render 4 n, (c != '$') = true ∧ isHexDigit c = true := by
    intro c mem
    obtain ⟨d, inRange, rfl⟩ := hexDigits.mem_render (by decide) mem
    exact glyphs d inRange
  have behind : (front ++ dollar 4 n).reverse.takeWhile (· != '$') =
      (hexDigits.render 4 n).reverse := by
    rw [dollar, List.reverse_append, List.reverse_cons, List.append_assoc,
      List.takeWhile_append_of_pos fun c mem => (digits c (List.mem_reverse.mp mem)).1]
    simp
  have all : (hexDigits.render 4 n).takeWhile isHexDigit = hexDigits.render 4 n :=
    List.takeWhile_eq_self_iff.mpr fun c mem => (digits c mem).2
  have some_ : '$' ∈ front ++ dollar 4 n := by simp [dollar]
  rw [lastNumber, if_pos some_]
  simp only [behind, List.reverse_reverse, all]
  rw [hexDigits.value_render (by decide), Nat.mod_eq_of_lt small]

set_option maxRecDepth 100000 in
/-- The fast decoder tells the branches apart by their opcodes. -/
theorem relative_opcodes : ∀ op : BitVec 8, (opcode op).fn.relative = true →
    (op ≠ 0x42 ∧ op ≠ 0xEA ∧ (isCall45 op || isBranch45 op) = true) ∧
      (op &&& 0x0F == 0x0F, op &&& 0x1F == 0x10 || op == 0x80,
        op &&& 0x1F == 0x13 || op == 0x83 || op == 0x63) =
      match (opcode op).fn with
      | .branchOnBit _ => (true, false, false)
      | .branch _ => (false, true, false)
      | _ => (false, false, true) := by decide

/-- The target of the fast path. -/
theorem shown_targetAddr45 {op : BitVec 8} (relative : (opcode op).fn.relative = true)
    (addr : BitVec 32) (b1 b2 : BitVec 8) :
    targetAddr45 op addr b1 b2 =
      (shown (opcode op).fn (addr.setWidth 16 + 1) b1 b2).setWidth 32 := by
  obtain ⟨-, kinds⟩ := relative_opcodes op relative
  have two := target_eq addr 2 b1
  have three := target_eq addr 3 b2
  have word := target_eq addr 3 (b2 ++ b1)
  have next (n : ℕ) : addr.setWidth 16 + BitVec.ofNat 16 (1 + n) =
      addr.setWidth 16 + 1 + BitVec.ofNat 16 n := by
    rw [BitVec.ofNat_add, ← BitVec.add_assoc]
    rfl
  unfold targetAddr45
  cases fn : (opcode op).fn with
  | branch k =>
    rw [fn] at kinds
    obtain ⟨bit, rest⟩ := Prod.mk.inj kinds
    obtain ⟨short, -⟩ := Prod.mk.inj rest
    simp only [bit, short, Bool.false_eq_true, if_false, if_true]
    exact congrArg _ (two.trans (congrArg (· + b1.signExtend 16) (next 1)))
  | branchOnBit on =>
    rw [fn] at kinds
    obtain ⟨bit, -⟩ := Prod.mk.inj kinds
    simp only [bit, if_true]
    exact congrArg _ (three.trans (congrArg (· + b2.signExtend 16) (next 2)))
  | longBranch | BSR =>
    rw [fn] at kinds
    obtain ⟨bit, rest⟩ := Prod.mk.inj kinds
    obtain ⟨short, long⟩ := Prod.mk.inj rest
    rw [BitVec.signExtend_eq] at word
    simp only [bit, short, long, Bool.false_eq_true, if_false, if_true]
    exact congrArg _ (word.trans (congrArg (fun t : BitVec 16 => t + (b2 ++ b1)) (next 2)))
  | _ => rw [fn] at relative; cases relative

/-- The text and the entry both show that target. -/
theorem shown_decoded (h : Sees bus addr code) (short : (seen code).length < MAX_PREFIXES)
    (relative : (opcode (code (span (seen code)))).fn.relative = true) :
    let k := span (seen code)
    let leads := shown (opcode (code k)).fn (addr.setWidth 16 + BitVec.ofNat 16 (k + 1))
      (code (k + 1)) (code (k + 2))
    (∃ front, (disassembleOne bus addr).operands = front ++ dollar 4 leads.toNat) ∧
      (decodeEntry bus addr).targetAddr = leads.setWidth 32 := by
  intro k leads
  have near : k ≤ 32 := span_seen_le code
  have listed := h.disassembleOne
  have printed : ∃ front, (disassembleOne bus addr).operands = front ++ dollar 4 leads.toNat := by
    rw [listed]
    obtain ⟨front, text⟩ := shown_operandText relative
      ((seen code).foldl Prefix.onto ⟨0, false, false⟩).is32BitInd (addr + BitVec.ofNat 32 (k + 1))
      (code (k + 1)) (code (k + 2))
    rw [BitVec.setWidth_add _ _ (by decide), BitVec.setWidth_ofNat_of_le (by decide)] at text
    exact ⟨front, text⟩
  refine ⟨printed, ?_⟩
  obtain ⟨⟨noQuad, noFlat, branches⟩, -⟩ := relative_opcodes _ relative
  unfold decodeEntry
  extract_lets op bytes raw
  split
  next slow =>
    have behind := h.behindPrefixes45 (i := 0) MAX_PREFIXES (by decide)
    simp only [Nat.zero_add, BitVec.add_zero] at behind
    replace behind : behindPrefixes45 bus 16 addr = addr + BitVec.ofNat 32 k :=
      behind short noQuad noFlat
    have op_eq : IBus.peek8 bus (addr + prefixBytes45 bus addr) = code k := by
      rw [prefixBytes45, BitVec.add_comm, BitVec.sub_add_cancel, behind]
      exact h.here (by unfold reach; omega)
    obtain ⟨front, text⟩ := printed
    have some_ : (disassembleOne bus addr).operands ≠ [] := by
      rw [text]
      simp [dollar]
    have text_eq : (disassembleOne bus addr).text =
        ((disassembleOne bus addr).mnemonic ++ ' ' :: front) ++ dollar 4 leads.toNat := by
      rw [Disassembly.text, if_neg some_, text, List.append_assoc, List.cons_append]
    have targetAddr : (disassembleEntry bus addr).targetAddr =
        if isCall45 (code k) || isBranch45 (code k) || code k == 0x4C || code k == 0x6C then
          lastNumber (disassembleOne bus addr).text
        else 0 := by
      rw [← op_eq]
      rfl
    have shows : (isCall45 (code k) || isBranch45 (code k) || code k == 0x4C || code k == 0x6C) =
        true := by
      rw [show (isCall45 (code k) || isBranch45 (code k)) = true from branches]
      rfl
    rw [targetAddr, if_pos shows, text_eq, lastNumber_append _ leads.isLt]
    exact BitVec.ofNat_toNat 32 leads
  next fast =>
    have alone : k = 0 := congrArg span (h.seen_eq_nil fast)
    have op_eq : op = code k := by
      rw [alone, ← h.here (i := 0) (by decide), BitVec.add_zero]
    have raw_get (i : ℕ) (inside : i < (listing op).form.bytes) : raw.getD (i + 1) 0 = code (k + 1 + i) := by
      have few := (listing op).form.bytes_le
      have len : min bytes MAX_RAW - 1 = (listing op).form.bytes := by
        rw [show bytes = 1 + (listing op).form.bytes from opcodeLengths45_eq op, MAX_RAW]
        omega
      simp only [raw, len, List.getD_cons_succ]
      rw [List.getD_eq_getElem?_getD, List.getElem?_map, List.getElem?_range inside]
      rw [alone, Nat.zero_add, Nat.add_comm 1 i]
      exact h.here (by unfold reach; omega)
    rw [← op_eq] at relative
    refine (shown_targetAddr45 relative addr _ _).trans ?_
    obtain ⟨-, modes⟩ := instructionTable.relative _ (opcode_mem op) relative
    have behind : addr.setWidth 16 + BitVec.ofNat 16 (k + 1) = addr.setWidth 16 + 1 := by rw [alone]; rfl
    change _ = (shown (opcode (code k)).fn (addr.setWidth 16 + BitVec.ofNat 16 (k + 1)) (code (k + 1))
      (code (k + 2))).setWidth 32
    rw [behind, ← op_eq]
    cases fn : (opcode op).fn with
    | branch _ =>
      rw [fn] at modes
      have form : (listing op).form = .rel8 := congrArg Prod.snd modes
      rw [raw_get 0 (by rw [form]; decide), shown_branch, shown_branch]
    | branchOnBit _ =>
      rw [fn] at modes
      have form : (listing op).form = .bitrel := congrArg Prod.snd modes
      rw [raw_get 0 (by rw [form]; decide), raw_get 1 (by rw [form]; decide)]
    | longBranch _ | BSR =>
      rw [fn] at modes
      have form : (listing op).form = .rel16 := congrArg Prod.snd modes
      rw [raw_get 0 (by rw [form]; decide), raw_get 1 (by rw [form]; decide)]
    | _ => rw [fn] at relative; cases relative

end Debugger

/-! ## The step beside it -/

section Step
variable {ω : Type} [MachineBus ω] {addr : BitVec 32} {code : ℕ → BitVec 8}

/-- What the debugger shows of the relative branch that a step executes: where it leads, or how
long it is. -/
def Agrees (w : Wiring ω) (c b : MOS45GS02 ω) (addr : BitVec 32) : Prop :=
  let pc := (step w c).2.state.pc
  if b.takes then
    (∃ front, (disassembleOne b.bus addr).operands = front ++ dollar 4 pc.toNat) ∧
      (decodeEntry b.bus addr).targetAddr = pc.setWidth 32
  else
    pc = b.state.pc + BitVec.ofNat 16 (disassembleOne b.bus addr).bytes ∧
      pc = b.state.pc + BitVec.ofNat 16 (decodeEntry b.bus addr).bytes

/-- The debugger agrees with the step unless a 16-bit branch is taken. -/
theorem branch_agrees_iff (w : Wiring ω) {c b : MOS45GS02 ω} (fetching : c.fetching w = some b)
    (here : addr.setWidth 16 = b.state.pc) (codeAt : CodeAt addr b.state.pc code b)
    (relative : (opcode b.fetched.op).fn.relative = true) :
    Agrees w c b addr ↔ ¬ (b.takes = true ∧ (opcode b.fetched.op).fn.long = true) := by
  obtain ⟨noQuad, noFlat, -⟩ := (relative_opcodes _ relative).1
  obtain ⟨short, op, standing⟩ := codeAt.fetched_seen noQuad noFlat
  have near := span_seen_le code
  have performed := standing.perform_branch (by unfold reach; omega) relative
  rw [op] at relative
  obtain ⟨⟨front, printed⟩, entry⟩ := shown_decoded codeAt.sees short relative
  set k := span (seen code) with k_eq
  set leads := shown (opcode (code k)).fn (addr.setWidth 16 + BitVec.ofNat 16 (k + 1)) (code (k + 1))
    (code (k + 2)) with leads_eq
  have stepped : (step w c).2.state.pc = if b.takes then
      (opcode (code k)).fn.target (addr.setWidth 16 + BitVec.ofNat 16 (k + 1)) (code (k + 1))
        (code (k + 2))
      else b.state.pc + BitVec.ofNat 16 (k + 1) + (opcode (code k)).mode.bytes +
        BitVec.ofNat 16 (opcode (code k)).fn.late := by
    rw [step_fetching w fetching, here, ← op]
    exact performed
  have same := shown_eq_target_iff relative (addr.setWidth 16 + BitVec.ofNat 16 (k + 1)) (code (k + 1))
    (code (k + 2))
  rw [← leads_eq] at same
  unfold Agrees
  rw [stepped, printed, entry, op]
  by_cases takes : b.takes = true
  · simp only [takes, if_true, true_and]
    rw [Bool.not_eq_true, ← same]
    constructor
    · rintro ⟨-, target⟩
      exact wide_inj target
    · intro target
      rw [target]
      exact ⟨⟨front, rfl⟩, rfl⟩
  · have len : b.state.pc + BitVec.ofNat 16 (k + 1) + (opcode (code k)).mode.bytes +
        BitVec.ofNat 16 (opcode (code k)).fn.late =
        b.state.pc + BitVec.ofNat 16 (disassembleOne b.bus addr).bytes := by
      have listed := congrArg Disassembly.bytes codeAt.sees.disassembleOne
      simp only [← k_eq] at listed
      rw [listed, BitVec.ofNat_add (k + 1), ofNat_form_bytes]
      simp only [BitVec.add_assoc]
    have bytes := codeAt.sees.decodeEntry_bytes
    simp only [takes, Bool.false_eq_true, if_false, false_and, not_false_eq_true, iff_true]
    rw [bytes]
    exact ⟨len, len⟩

end Step

/-! ## Two branches -/

/-- A core about to execute three bytes at $1000. -/
def coreAt1000 (op lo hi : BitVec 8) : MOS45GS02 FlatMemoryBus where
  state := { (default : CPU45GS02State) with sp := 0x01FF, p := 0x24, pc := 0x1000 }
  hyperState := .zero
  bus := { FlatMemoryBus.new 16 with
    data := fun addr =>
      if addr = 0x1000 then op else if addr = 0x1001 then lo else if addr = 0x1002 then hi else 0 }
  mapMmu := false
  hyperRom := none
  experimentalPrefixMode := false

def unobserved : Wiring FlatMemoryBus := ⟨none, none, ⟨none, none⟩⟩

set_option maxRecDepth 100000 in
/-- BRA leads where the debugger says. -/
theorem agrees_bra :
    Agrees unobserved (coreAt1000 0x80 0x10 0x00) (coreAt1000 0x80 0x10 0x00).sampled 0x1000 :=
  (branch_agrees_iff unobserved (c := coreAt1000 0x80 0x10 0x00) rfl (by decide)
    (codeAt_flat (coreAt1000 0x80 0x10 0x00).sampled rfl (by decide)) (by decide)).mpr
    (by decide)

set_option maxRecDepth 100000 in
/-- LBRA goes to $1012, and the debugger says $1013. -/
theorem not_agrees_lbra :
    (coreAt1000 0x83 0x10 0x00).fetching unobserved = some (coreAt1000 0x83 0x10 0x00).sampled ∧
      (opcode (coreAt1000 0x83 0x10 0x00).sampled.fetched.op).fn = .LBRA ∧
      (step unobserved (coreAt1000 0x83 0x10 0x00)).2.state.pc = 0x1012 ∧
      (disassembleOne (coreAt1000 0x83 0x10 0x00).bus 0x1000).text = "LBRA $1013".toList ∧
      ¬ Agrees unobserved (coreAt1000 0x83 0x10 0x00) (coreAt1000 0x83 0x10 0x00).sampled 0x1000 := by
  refine ⟨rfl, by decide, by decide, by decide, ?_⟩
  intro agrees
  have takes : (coreAt1000 0x83 0x10 0x00).sampled.takes = true := by decide
  rw [Agrees, if_pos takes] at agrees
  exact absurd agrees.2 (by decide)

end Mmemu.Guarantees.BranchTargets

/-!
# MOS 45GS02: instruction lengths and 32-bit forms

The bytes that a step fetches, beside the length that the disassembler and the decoder return,
and the 32-bit operation beside the mnemonic. All agree while fewer than sixteen prefixes stand
before an opcode. Behind sixteen the step runs out of rounds and executes the last prefix byte.
-/
namespace Mmemu.Guarantees.InstructionLengths
open Mmemu.Source.MemoryBus
open Mmemu.Source.Cpu45gs02
open Mmemu.Guarantees.BranchTargets (coreAt1000 unobserved relative_opcodes)

/-! ## Mnemonics -/

theorem name_mem_iff (op : BitVec 8) (isQuad : Bool) :
    ((listing op).name isQuad).toList ∈ quadMnemonics.map String.toList ↔
      (isQuad && (opcode op).quad.isSome) = true := by
  obtain ⟨same, plain, wide⟩ := instructionTable.quads _ (opcode_mem op)
  simp only at same plain wide
  rw [List.mem_map_of_injective fun _ _ => String.toList_inj.mp, Listing.name, same]
  cases isQuad with
  | false => simpa using plain
  | true =>
    cases quad : (listing op).quad with
    | none => simpa [quad] using plain
    | some q => simpa [quad] using wide q quad

/-! ## The step and the debugger -/

section Step
variable {ω : Type} [MachineBus ω] {addr : BitVec 32} {code : ℕ → BitVec 8}

/-- The instruction at PC sets no PC, or is a relative branch that is not taken. -/
def GoesOn (b : MOS45GS02 ω) : Prop :=
  (opcode b.fetched.op).fn.transfers = false ∨
    (opcode b.fetched.op).fn.relative = true ∧ b.takes = false

/-- What the debugger says of the instruction that a step executes: how long it is, and whether
it is a 32-bit operation. -/
structure Agrees (w : Wiring ω) (c b : MOS45GS02 ω) (addr : BitVec 32) : Prop where
  text : (disassembleOne b.bus addr).bytes = ((step w c).2.state.pc - b.state.pc).toNat
  entry : (decodeEntry b.bus addr).bytes = ((step w c).2.state.pc - b.state.pc).toNat
  quad : (disassembleOne b.bus addr).mnemonic ∈ quadMnemonics.map String.toList ↔
    b.fetched.quad.isSome = true

/-- A step that goes on leaves PC behind the opcode and its operand. -/
theorem pc_goesOn {b : MOS45GS02 ω} {experimental : Bool} {k : ℕ} (goesOn : GoesOn b)
    (inReach : k + 1 < reach)
    (standing : Standing addr b.state.pc code experimental k
      (fetchOpcode MAX_PREFIXES ⟨0, false, false⟩ b).2) :
    (execute b).2.state.pc =
      b.state.pc + BitVec.ofNat 16 (k + (listing b.fetched.op).form.bytes) := by
  rw [BitVec.ofNat_add, ofNat_form_bytes]
  rcases goesOn with straight | ⟨relative, refused⟩
  · have found := operand_moved (opcode b.fetched.op).mode b.fetched.isQuad b.fetched.is32BitInd
      (fetchOpcode MAX_PREFIXES ⟨0, false, false⟩ b).2
    rw [execute_eq, perform_straight straight, Fn.late_eq_zero straight,
      BitVec.add_zero, ← BitVec.add_assoc, ← standing.pc]
    exact found.pc
  · have performed := standing.perform_branch inReach relative
    rw [execute_eq, ← BitVec.add_assoc, ← BitVec.add_assoc]
    refine performed.trans (if_neg ?_)
    exact fun taken => Bool.false_ne_true (refused.symm.trans taken)

theorem length_agrees_iff (w : Wiring ω) {c b : MOS45GS02 ω} (fetching : c.fetching w = some b)
    (defaultMode : b.experimentalPrefixMode = false) (codeAt : CodeAt addr b.state.pc code b)
    (goesOn : GoesOn b) : Agrees w c b addr ↔ (seen code).length < MAX_PREFIXES := by
  have near := span_seen_le code
  have listed := codeAt.sees.disassembleOne
  have entry := codeAt.sees.decodeEntry_bytes
  have fetches := codeAt.fetches_default defaultMode
  simp only at fetches
  have stepped {k : ℕ} (inReach : k + 1 < reach)
      (standing : Standing addr b.state.pc code false k
        (fetchOpcode MAX_PREFIXES ⟨0, false, false⟩ b).2) :
      ((step w c).2.state.pc - b.state.pc).toNat = k + (listing b.fetched.op).form.bytes := by
    have small := (listing b.fetched.op).form.bytes_le
    have inside : k + 1 < 40 := inReach
    rw [step_fetching w fetching, pc_goesOn goesOn inReach standing, BitVec.add_comm,
      BitVec.add_sub_cancel, BitVec.toNat_ofNat, Nat.mod_eq_of_lt (by omega)]
  by_cases short : (seen code).length < MAX_PREFIXES
  · rw [if_pos short] at fetches
    obtain ⟨fetched, standing⟩ := fetches
    have op : b.fetched.op = code (span (seen code)) := congrArg Fetched.op fetched
    have consumed := stepped (by unfold reach; omega) standing
    rw [op] at consumed
    refine iff_of_true ⟨?_, ?_, ?_⟩ short
    · rw [consumed, listed]
    · rw [consumed, entry, listed]
    · rw [listed, fetched]
      refine (name_mem_iff _ _).trans ?_
      unfold Fetched.quad
      simp only
      split <;> simp_all
  · rw [if_neg short] at fetches
    obtain ⟨fetched, standing⟩ := fetches
    have consumed := stepped (by unfold reach; omega) standing
    have some_ : seen code ≠ [] := by
      intro none_
      exact short (by rw [none_]; decide)
    have plain : (listing b.fetched.op).form.bytes = 0 := by
      rw [fetched]
      rcases foldl_onto_op some_ ⟨0, false, false⟩ with quad | flat
      · rw [quad]; decide
      · rw [flat]; decide
    refine iff_of_false ?_ short
    intro agrees
    have text := agrees.text
    rw [consumed, plain, listed] at text
    simp only at text
    omega

end Step

/-! ## Sixteen prefixes and seventeen -/

/-- A core about to execute a run of $42 from $1000 on. -/
def negsAt1000 (bytes : ℕ) : MOS45GS02 FlatMemoryBus :=
  { coreAt1000 0x42 0x42 0x42 with
    bus := { FlatMemoryBus.new 16 with
      data := fun addr => if (addr - 0x1000).toNat < bytes then 0x42 else 0xEA } }

set_option maxRecDepth 100000 in
/-- $42 $42 $EA is one prefix and one instruction. -/
theorem agrees_quad : Agrees unobserved (negsAt1000 2) (negsAt1000 2).sampled 0x1000 :=
  (length_agrees_iff unobserved (c := negsAt1000 2) rfl rfl
    (codeAt_flat (negsAt1000 2).sampled rfl (by decide)) (.inl (by decide))).mpr
    (by decide)

/-- Behind sixteen prefixes the step executes the last $42, and the debugger shows an instruction
one byte longer. -/
theorem not_agrees_negs :
    (negsAt1000 32).fetching unobserved = some (negsAt1000 32).sampled ∧
      (negsAt1000 32).sampled.fetched = ⟨0x42, true, false⟩ ∧
      (step unobserved (negsAt1000 32)).2.state.pc = 0x1020 ∧
      (disassembleOne (negsAt1000 32).bus 0x1000).bytes = 33 ∧
      ¬ Agrees unobserved (negsAt1000 32) (negsAt1000 32).sampled 0x1000 := by
  have listed : (disassembleOne (negsAt1000 32).bus 0x1000).bytes = 33 := by decide +kernel
  have stepped : (step unobserved (negsAt1000 32)).2.state.pc = 0x1020 := by decide +kernel
  refine ⟨rfl, by decide +kernel, stepped, listed, ?_⟩
  intro agrees
  have text := agrees.text
  rw [stepped] at text
  exact absurd (listed.symm.trans text) (by decide)

end Mmemu.Guarantees.InstructionLengths

/-!
# What an accepted line leaves of its operand

An accepted line reads back as written if and only if its number fits the bytes of the form it
is written in. Only two of the encoder's branches check that; the others keep the low bits.
A line also has to be written the way the disassembler writes it: with the A of an accumulator
form, and not under the 65C02's second names for INC A and DEC A.
-/
namespace Mmemu.Guarantees.OperandBits
open Mmemu.Library.Numerals
open Mmemu.Source.MemoryBus Mmemu.Source.Cpu6502 Mmemu.Source.Assembler6502

variable {ω : Type} [IBus ω]

/-- The line has this mnemonic and an operand that says this. -/
def Denotes (line mnem : Text) (o : Operand) : Prop :=
  ∃ text, words line = (mnem, text) ∧ Writes text o

/-- The instruction at the address prints as a line that says the same. -/
def ReadsBack (cmos : Bool) (bus : ω) (addr : BitVec 32) (line : Text) : Prop :=
  ∃ mnem o, Denotes line mnem o ∧ Denotes (disassembleOne cmos bus addr).1 mnem o

/-- The numbers below it are the ones a form has room for. -/
def room (cmos : Bool) (mnem : String) : Form → ℕ
  | .imm | .indy => 2 ^ 8
  | .indx => if counts cmos mnem .absxind then 2 ^ 16 else 2 ^ 8
  | .ind => if counts cmos mnem .zpind then 2 ^ 8 else 2 ^ 16
  | .absx | .absy | .abs => 2 ^ 16

/-- The operand is written out, and its numbers fit. -/
def Fits (cmos : Bool) (mnem : String) : Operand → Prop
  | .none => counts cmos mnem .imp = true
  | .acc => True
  | .one form n => n < room cmos mnem form
  | .pair n m => n < 2 ^ 8 ∧ m < 2 ^ 16

theorem denotes_unique {line mnem mnem' : Text} {o o' : Operand} (read : Denotes line mnem o)
    (read' : Denotes line mnem' o') : mnem = mnem' ∧ o = o' := by
  obtain ⟨text, split, writes⟩ := read
  obtain ⟨text', split', writes'⟩ := read'
  rw [split] at split'
  obtain ⟨rfl, rfl⟩ := Prod.mk.inj split'
  rw [writes_iff] at writes writes'
  exact ⟨rfl, Option.some.inj (writes.symm.trans writes')⟩

theorem denotes_iff {line mnem : Text} {o : Operand} :
    Denotes line mnem o ↔ (words line).1 = mnem ∧ operandOf (words line).2 = some o := by
  constructor
  · rintro ⟨text, split, writes⟩
    rw [split]
    exact ⟨rfl, operandOf_of_writes writes⟩
  · rintro ⟨rfl, read⟩
    exact ⟨_, rfl, writes_of_operandOf read⟩

/-- Reading both lines decides the matter. -/
theorem readsBack_iff_words {cmos : Bool} {bus : ω} {addr : BitVec 32} {line : Text} :
    ReadsBack cmos bus addr line ↔
      (words line).1 = (words (disassembleOne cmos bus addr).1).1 ∧
        operandOf (words line).2 = operandOf (words (disassembleOne cmos bus addr).1).2 ∧
        (operandOf (words line).2).isSome := by
  simp only [ReadsBack, denotes_iff]
  constructor
  · rintro ⟨mnem, o, ⟨rfl, read⟩, name, read'⟩
    exact ⟨name.symm, read.trans read'.symm, by rw [read]; rfl⟩
  · rintro ⟨name, same, some⟩
    obtain ⟨o, read⟩ := Option.isSome_iff_exists.mp some
    exact ⟨_, o, ⟨rfl, read⟩, name.symm, same ▸ read⟩

theorem denotes_disassembleOne (cmos : Bool) (bus : ω) (addr : BitVec 32) :
    Denotes (disassembleOne cmos bus addr).1 (opcode cmos (IBus.peek8 bus addr)).mnemonic.toList
      (shown (opcode cmos (IBus.peek8 bus addr)).mode addr (IBus.peek8 bus (addr + 1))
        (IBus.peek8 bus (addr + 2))) :=
  ⟨_, (words_disassembleOne cmos bus addr).1, writes_operandText _ _ _ _⟩

/-- An accepted line that emits something says something, and it is that which is encoded. -/
theorem accepted_denotes {cmos : Bool} {line : Text} {bufsz : ℕ} {addr : BitVec 32}
    {bytes : List (BitVec 8)} (accepted : assembleLine cmos line bufsz addr = .ok bytes)
    (emitted : bytes ≠ []) :
    ∃ mnem o, Denotes line mnem o ∧
      assembleOperand cmos (String.ofList mnem) o bufsz addr = .ok bytes := by
  have visible : trim isBlank line ≠ [] := by
    intro blank
    rw [assembleLine, if_pos blank] at accepted
    exact emitted (Except.ok.inj accepted).symm
  cases split : words line with
  | mk mnem text =>
    have chain := accepted
    rw [assembleLine, if_neg visible, split] at chain
    dsimp only at chain
    split at chain
    next known =>
      cases selected : selectMode (fun mode => (lookup cmos (String.ofList mnem) mode).isSome) text with
      | error e =>
        rw [selected] at chain
        exact absurd chain (by simp [bind, Except.bind])
      | ok sel =>
        obtain ⟨o, writes⟩ := writes_of_selectMode selected
        rw [assembleLine_eq bufsz addr visible split writes, if_pos known] at accepted
        exact ⟨mnem, o, ⟨text, split, writes⟩, accepted⟩
    next => exact absurd chain (by simp)

theorem asmMode_injective : Function.Injective asmMode := by
  intro a b same
  cases a <;> cases b <;> first | rfl | exact absurd same (by decide)

section Emitted
variable {cmos : Bool} {mnem : String} {bufsz : ℕ} {addr : BitVec 32} {bytes : List (BitVec 8)}
  {op lo hi : BitVec 8} {mode : Mode}

/-- The bytes of an instruction, from what was emitted and where it was put. -/
def At (bytes : List (BitVec 8)) (op lo hi : BitVec 8) : Prop := [op, lo, hi].take bytes.length = bytes

/-- The target of an accepted offset, on the 16-bit address bus. -/
theorem target_of_offset {n : ℕ} {next : BitVec 32}
    (inRange : inBranchRange (BitVec.ofNat 32 n - next) = true) :
    (branchTarget next ((BitVec.ofNat 32 n - next).setWidth 8)).toNat = n % 2 ^ 16 := by
  rw [branchTarget, signExtend_of_inBranchRange inRange, BitVec.add_comm, BitVec.sub_add_cancel,
    BitVec.toNat_setWidth, BitVec.toNat_ofNat]
  omega

/-- In a mode with a one-byte number, its low byte is printed. -/
theorem shown_byte {info : OpcodeInfo} {n : ℕ} {settled : AsmMode} {target : BitVec 32}
    (plain : settled ≠ .zprel ∧ settled ≠ .rel) (size : info.size = 2)
    (emitted : emit info settled (.ofNat 32 n) target addr = .ok bytes)
    (at_ : At bytes op lo hi) : lo.toNat = n % 2 ^ 8 := by
  have result : bytes = [info.opcode, (BitVec.ofNat 32 n).setWidth 8] := by
    by_cases indirect : settled = .zpind
    · subst indirect
      rw [emit_zpind, size] at emitted
      split at emitted
      · exact absurd emitted (by simp)
      · exact (Except.ok.inj emitted).symm
    · rw [emit_plain plain.1 indirect plain.2, size] at emitted
      exact (Except.ok.inj emitted).symm
  subst result
  have same : lo = (BitVec.ofNat 32 n).setWidth 8 := by simpa [At] using (List.cons.inj at_).2
  rw [same, low_byte]

theorem shown_word {info : OpcodeInfo} {n : ℕ} {settled : AsmMode} {target : BitVec 32}
    (plain : settled ≠ .zprel ∧ settled ≠ .zpind ∧ settled ≠ .rel) (size : info.size = 3)
    (emitted : emit info settled (.ofNat 32 n) target addr = .ok bytes)
    (at_ : At bytes op lo hi) : (hi ++ lo).toNat = n % 2 ^ 16 := by
  rw [emit_plain plain.1 plain.2.1 plain.2.2, size] at emitted
  have result : bytes = [info.opcode, (BitVec.ofNat 32 n).setWidth 8,
      (BitVec.ofNat 32 n).extractLsb' 8 8] := (Except.ok.inj emitted).symm
  subst result
  obtain ⟨low, high⟩ : lo = (BitVec.ofNat 32 n).setWidth 8 ∧
      hi = (BitVec.ofNat 32 n).extractLsb' 8 8 := by simpa [At] using (List.cons.inj at_).2
  rw [low, high, both_bytes]

theorem shown_branch {info : OpcodeInfo} {n : ℕ} {target : BitVec 32}
    (emitted : emit info .rel (.ofNat 32 n) target addr = .ok bytes) (at_ : At bytes op lo hi) :
    (branchTarget (addr + 2) lo).toNat = n % 2 ^ 16 := by
  rw [emit_rel] at emitted
  split at emitted
  next inRange =>
    obtain rfl := Except.ok.inj emitted
    have offset : lo = (BitVec.ofNat 32 n - (addr + 2)).setWidth 8 := by
      simpa [At] using (List.cons.inj at_).2
    rw [offset, target_of_offset inRange]
  next => exact absurd emitted (by simp)

theorem shown_bitBranch {info : OpcodeInfo} {n m : ℕ}
    (emitted : emit info .zprel (.ofNat 32 n) (.ofNat 32 m) addr = .ok bytes)
    (at_ : At bytes op lo hi) :
    n % 2 ^ 32 < 2 ^ 8 ∧ lo.toNat = n % 2 ^ 8 ∧
      (branchTarget (addr + 3) hi).toNat = m % 2 ^ 16 := by
  rw [emit_zprel] at emitted
  split at emitted
  next => exact absurd emitted (by simp)
  next small =>
  split at emitted
  next inRange =>
    obtain rfl := Except.ok.inj emitted
    obtain ⟨low, offset⟩ : lo = (BitVec.ofNat 32 n).setWidth 8 ∧
        hi = (BitVec.ofNat 32 m - (addr + 3)).setWidth 8 := by
      simpa [At] using (List.cons.inj at_).2
    rw [byte_lt_held, not_le] at small
    rw [low, low_byte, offset, target_of_offset inRange]
    exact ⟨small, rfl, rfl⟩
  next => exact absurd emitted (by simp)

/-- The printed number is the written one if that fits its place. -/
theorem shown_one {info : OpcodeInfo} {form : Form} {n : ℕ}
    (found : lookup cmos mnem (modeOf (counts cmos mnem) form (.ofNat 32 n)) = some info)
    (decoded : asmMode mode = modeOf (counts cmos mnem) form (.ofNat 32 n))
    (emitted : emit info (modeOf (counts cmos mnem) form (.ofNat 32 n)) (.ofNat 32 n) 0 addr
      = .ok bytes) (at_ : At bytes op lo hi) :
    shown mode addr lo hi = .one form n ↔ n < room cmos mnem form := by
  have size := lookup_size found
  generalize chosen : modeOf (counts cmos mnem) form (.ofNat 32 n) = settled at *
  clear found
  -- Where the mode takes `width` bits of the number, they are all of it if it fits them.
  have keeps : ∀ {x width : ℕ}, x = n % 2 ^ width →
      (Operand.one form x = .one form n ↔ n < 2 ^ width) := by
    intro x width rest
    rw [Operand.one.injEq, rest]
    exact ⟨fun same => same.2 ▸ Nat.mod_lt _ (Nat.two_pow_pos width),
      fun fits => ⟨rfl, Nat.mod_eq_of_lt fits⟩⟩
  have byte := fun plain size => keeps (shown_byte plain size emitted at_)
  have word := fun plain size => keeps (shown_word plain size emitted at_)
  -- A zero-page mode is chosen for the low 32 bits, so a longer number is cut as well.
  have zeroPage : ∀ {other}, (BitVec.ofNat 32 n ≤ 0xFF && counts cmos mnem other) = true →
      settled ≠ .zprel ∧ settled ≠ .rel → info.size = 2 →
      (Operand.one form lo.toNat = .one form n ↔ n < 2 ^ 16) := by
    intro other taken plain size
    have small := (held_le_byte n).mp (of_decide_eq_true (Bool.and_eq_true_iff.mp taken).1)
    rw [byte plain size]
    omega
  unfold room
  cases form with
  | imm =>
    obtain rfl : AsmMode.imm = settled := chosen
    obtain rfl : mode = .imm := asmMode_injective decoded
    exact byte (by decide) size
  | indy =>
    obtain rfl : AsmMode.indzpy = settled := chosen
    obtain rfl : mode = .indbpy := asmMode_injective decoded
    exact byte (by decide) size
  | indx =>
    unfold modeOf at chosen
    dsimp only at chosen ⊢
    split at chosen <;> subst chosen
    next has =>
      obtain rfl : mode = .absxind := asmMode_injective decoded
      rw [if_pos has]
      exact word (by decide) size
    next has =>
      obtain rfl : mode = .bpxind := asmMode_injective decoded
      rw [if_neg has]
      exact byte (by decide) size
  | ind =>
    unfold modeOf at chosen
    dsimp only at chosen ⊢
    split at chosen <;> subst chosen
    next has =>
      obtain rfl : mode = .bpind := asmMode_injective decoded
      rw [if_pos has]
      exact byte (by decide) size
    next has =>
      obtain rfl : mode = .ind := asmMode_injective decoded
      rw [if_neg has]
      exact word (by decide) size
  | absx =>
    unfold modeOf at chosen
    dsimp only at chosen ⊢
    split at chosen <;> subst chosen
    next taken =>
      obtain rfl : mode = .bpx := asmMode_injective decoded
      exact zeroPage taken (by decide) size
    next =>
      obtain rfl : mode = .absx := asmMode_injective decoded
      exact word (by decide) size
  | absy =>
    unfold modeOf at chosen
    dsimp only at chosen ⊢
    split at chosen <;> subst chosen
    next taken =>
      obtain rfl : mode = .bpy := asmMode_injective decoded
      exact zeroPage taken (by decide) size
    next =>
      obtain rfl : mode = .absy := asmMode_injective decoded
      exact word (by decide) size
  | abs =>
    unfold modeOf at chosen
    dsimp only at chosen ⊢
    split at chosen
    next =>
      subst chosen
      obtain rfl : mode = .rel := asmMode_injective decoded
      exact keeps (shown_branch emitted at_)
    next =>
    split at chosen <;> subst chosen
    next taken =>
      obtain rfl : mode = .bp := asmMode_injective decoded
      exact zeroPage taken (by decide) size
    next =>
      obtain rfl : mode = .abs := asmMode_injective decoded
      exact word (by decide) size

/-- The instruction at the address prints the operand that was encoded, if that fits. -/
theorem shown_eq_iff {o : Operand} {info : OpcodeInfo} {sel : Selection}
    (selected : select (counts cmos mnem) o = .ok sel)
    (found : lookup cmos mnem (settleMode (counts cmos mnem) sel.mode) = some info)
    (decoded : asmMode mode = settleMode (counts cmos mnem) sel.mode)
    (emitted : emit info (settleMode (counts cmos mnem) sel.mode) sel.val sel.target addr
      = .ok bytes) (at_ : At bytes op lo hi) :
    shown mode addr lo hi = o ↔ Fits cmos mnem o := by
  cases o with
  | none =>
    obtain rfl := Except.ok.inj selected
    dsimp only at found decoded
    unfold Fits
    rw [settleMode_imp] at found decoded
    split at decoded
    next omitted =>
      obtain rfl : mode = .acc := asmMode_injective decoded
      have noImplied : counts cmos mnem .imp = false := by
        simpa using (Bool.and_eq_true_iff.mp omitted).2
      simp [shown, noImplied]
    next implied =>
      obtain rfl : mode = .imp := asmMode_injective decoded
      rw [if_neg implied] at found
      simp [shown, counts, found]
  | acc =>
    obtain rfl := Except.ok.inj selected
    dsimp only at decoded
    rw [settleMode_acc] at decoded
    obtain rfl : mode = .acc := asmMode_injective decoded
    simp [shown, Fits]
  | one form n =>
    cases number : held n with
    | error e =>
      rw [select, number] at selected
      exact absurd selected (by simp [bind, Except.bind])
    | ok val =>
      obtain rfl := held_eq_ok number
      rw [select, number] at selected
      obtain rfl := Except.ok.inj selected
      dsimp only at found decoded emitted
      rw [settleMode_modeOf] at found decoded emitted
      exact shown_one found decoded emitted at_
  | pair n m =>
    rw [select] at selected
    split at selected
    next =>
      cases first : held n with
      | error e =>
        rw [first] at selected
        exact absurd selected (by simp [bind, Except.bind])
      | ok val =>
        obtain rfl := held_eq_ok first
        cases second : held m with
        | error e =>
          rw [first, second] at selected
          exact absurd selected (by simp [bind, Except.bind])
        | ok target =>
          obtain rfl := held_eq_ok second
          rw [first, second] at selected
          obtain rfl := Except.ok.inj selected
          dsimp only at decoded emitted
          rw [settleMode_zprel] at decoded emitted
          obtain rfl : mode = .bprel := asmMode_injective decoded
          obtain ⟨small, low, target⟩ := shown_bitBranch emitted at_
          simp only [shown, Fits, Operand.pair.injEq, low, target]
          omega
    next => exact absurd selected (by simp)

end Emitted

/-- An accepted line reads back as written if and only if its operand is written out and fits. -/
theorem readsBack_iff (cmos : Bool) (line : Text) (bufsz : ℕ) (addr : BitVec 32)
    (bytes : List (BitVec 8)) (accepted : assembleLine cmos line bufsz addr = .ok bytes)
    (nonempty : bytes ≠ []) (bus : ω) (placed : bytesAt bus addr bytes.length = bytes) :
    ReadsBack cmos bus addr line ↔
      ∃ mnem o, Denotes line mnem o ∧ isAlias (String.ofList mnem) = false ∧
        Fits cmos (String.ofList mnem) o := by
  obtain ⟨mnem, o, written, assembled⟩ := accepted_denotes accepted nonempty
  obtain ⟨sel, info, selected, found, -, emitted⟩ := assembleOperand_eq_ok.mp assembled
  obtain ⟨operand, head, short⟩ := emit_head emitted
  have at_ : At bytes (IBus.peek8 bus addr) (IBus.peek8 bus (addr + 1)) (IBus.peek8 bus (addr + 2)) := by
    rw [bytesAt_eq bus addr (by rw [head, List.length_cons]; omega)] at placed
    exact placed
  have opcode_ : IBus.peek8 bus addr = info.opcode := by
    have first := at_
    rw [At, head] at first
    exact (List.cons.inj first).1
  have printed := denotes_disassembleOne cmos bus addr
  have reads : ReadsBack cmos bus addr line ↔
      mnem = (opcode cmos (IBus.peek8 bus addr)).mnemonic.toList ∧
        shown (opcode cmos (IBus.peek8 bus addr)).mode addr (IBus.peek8 bus (addr + 1))
          (IBus.peek8 bus (addr + 2)) = o := by
    constructor
    · rintro ⟨mnem', o', line', text'⟩
      obtain ⟨rfl, rfl⟩ := denotes_unique written line'
      obtain ⟨name, same⟩ := denotes_unique text' printed
      exact ⟨name, same.symm⟩
    · rintro ⟨rfl, rfl⟩
      exact ⟨_, _, written, printed⟩
  have condition : (∃ mnem o, Denotes line mnem o ∧ isAlias (String.ofList mnem) = false ∧
      Fits cmos (String.ofList mnem) o) ↔
      isAlias (String.ofList mnem) = false ∧ Fits cmos (String.ofList mnem) o := by
    constructor
    · rintro ⟨mnem', o', line', fits⟩
      obtain ⟨rfl, rfl⟩ := denotes_unique written line'
      exact fits
    · exact fun fits => ⟨mnem, o, written, fits⟩
  rw [reads, condition, opcode_]
  cases proper : isAlias (String.ofList mnem) with
  | true =>
    have other := lookup_decode_alias found proper
    simp only [reduceCtorEq, false_and, iff_false, not_and]
    rintro rfl
    exact absurd String.ofList_toList.symm other
  | false =>
    obtain ⟨name, decoded⟩ := lookup_decode found proper
    rw [name, String.toList_ofList]
    simp only [true_and]
    rw [opcode_] at at_
    exact shown_eq_iff selected found decoded emitted at_

set_option maxRecDepth 100000 in
/-- LDA #$12 at $1000 reads back. -/
theorem readsBack_immediate :
    ReadsBack false (AssemblerInverse.placed 0x1000 0xA9 0x12 0) 0x1000 "LDA #$12".toList :=
  (readsBack_iff false "LDA #$12".toList 16 0x1000 [0xA9, 0x12] (by decide) (by decide)
    (AssemblerInverse.placed 0x1000 0xA9 0x12 0) (by decide)).mpr
    ⟨['L', 'D', 'A'], .one .imm 0x12, denotes_iff.mpr (by decide), by decide,
      by unfold Fits room; decide⟩

set_option maxRecDepth 100000 in
/-- LDA #$1FF is accepted and leaves LDA #$FF. -/
theorem not_readsBack_immediate :
    assembleLine false "LDA #$1FF".toList 16 0x1000 = .ok [0xA9, 0xFF] ∧
      bytesAt (AssemblerInverse.placed 0x1000 0xA9 0xFF 0) 0x1000 2 = [0xA9, 0xFF] ∧
      ¬ ReadsBack false (AssemblerInverse.placed 0x1000 0xA9 0xFF 0) 0x1000
        "LDA #$1FF".toList := by
  rw [readsBack_iff_words]
  decide

end Mmemu.Guarantees.OperandBits
