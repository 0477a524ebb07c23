import Mmemu.Source.Assembler6502Encoding

/-!
# Reassembling what the disassembler prints

The text of a documented instruction assembles back to its bytes, unless its absolute operand
lies in page zero and the mnemonic has the short form as well, or its branch leaves the 16-bit
address space: the printed target wraps, the assembler's offset does not.
-/
namespace Mmemu.Guarantees.AssemblerInverse
open Mmemu.Library.Numerals
open Mmemu.Source.MemoryBus Mmemu.Source.Cpu6502 Mmemu.Source.Assembler6502

variable {ω : Type} [IBus ω]

/-- The printed text assembles, at the same address, to the bytes it was printed from. -/
def Reassembles (cmos : Bool) (bus : ω) (addr : BitVec 32) (bufsz : ℕ) : Prop :=
  assembleLine cmos (disassembleOne cmos bus addr).1 bufsz addr
    = .ok (bytesAt bus addr (disassembleOne cmos bus addr).2)

/-- The zero-page mode with the text of an absolute one. -/
def shortMode : Mode → Option AsmMode
  | .abs => some .zp
  | .absx => some .zpx
  | .absy => some .zpy
  | _ => none

/-- The text does not hide a part of the instruction: an absolute operand in page zero has no
short form, and a branch stays inside the address space. -/
structure Recoverable (cmos : Bool) (bus : ω) (addr : BitVec 32) : Prop where
  long : ∀ short, shortMode (opcode cmos (IBus.peek8 bus addr)).mode = some short →
    (lookup cmos (opcode cmos (IBus.peek8 bus addr)).mnemonic short).isSome →
    IBus.peek8 bus (addr + 2) ≠ 0
  branch : (opcode cmos (IBus.peek8 bus addr)).mode = .rel →
    (addr + 2 + (IBus.peek8 bus (addr + 1)).signExtend 32).toNat < 2 ^ 16
  bitBranch : (opcode cmos (IBus.peek8 bus addr)).mode = .bprel →
    (addr + 3 + (IBus.peek8 bus (addr + 2)).signExtend 32).toNat < 2 ^ 16

/-- An accepted offset gives the byte it is the sign extension of. -/
theorem offset_byte {offset : BitVec 32} {rel : BitVec 8} (front : List (BitVec 8)) :
    (if inBranchRange offset then Except.ok (front ++ [offset.setWidth 8]) else .error .rejected)
        = (Except.ok (front ++ [rel]) : Except Refusal _) ↔ offset = rel.signExtend 32 := by
  constructor
  · intro emitted
    split at emitted
    next inRange =>
      have same := List.append_cancel_left (Except.ok.inj emitted)
      rw [← signExtend_of_inBranchRange inRange, (List.cons.inj same).1]
    next => exact absurd emitted (by simp)
  · rintro rfl
    rw [if_pos (inBranchRange_signExtend rel), setWidth_signExtend]

section Shown
variable {cmos : Bool} {mnem : String} {bufsz : ℕ} {addr : BitVec 32} {op lo hi : BitVec 8}

/-- A one-byte operand in a mode of its own. -/
theorem assemble_byte {form : Form} {mode : AsmMode} (room : 3 ≤ bufsz)
    (chosen : modeOf (counts cmos mnem) form (.ofNat 32 lo.toNat) = mode)
    (found : lookup cmos mnem mode = some ⟨op, 2⟩) (notPair : mode ≠ .zprel)
    (notBranch : mode ≠ .rel) :
    assembleOperand cmos mnem (.one form lo.toNat) bufsz addr = .ok [op, lo] := by
  have bound := lo.isLt
  rw [assembleOperand_one (by omega) chosen found (by simp only; omega)]
  have plain : (op :: [(BitVec.ofNat 32 lo.toNat).setWidth 8,
      (BitVec.ofNat 32 lo.toNat).extractLsb' 8 8].take (2 - 1)) = [op, lo] := by
    rw [setWidth_ofNat_byte]
    rfl
  by_cases indirect : mode = .zpind
  · subst indirect
    have small : ¬ (0xFF < BitVec.ofNat 32 lo.toNat) := by
      rw [byte_lt_held]
      omega
    rw [emit_zpind, if_neg small, plain]
  · rw [emit_plain notPair indirect notBranch, plain]

/-- A two-byte operand in a mode of its own. -/
theorem assemble_word {form : Form} {mode : AsmMode} (room : 3 ≤ bufsz)
    (chosen : modeOf (counts cmos mnem) form (.ofNat 32 (hi ++ lo).toNat) = mode)
    (found : lookup cmos mnem mode = some ⟨op, 3⟩) (notPair : mode ≠ .zprel)
    (notIndirect : mode ≠ .zpind) (notBranch : mode ≠ .rel) :
    assembleOperand cmos mnem (.one form (hi ++ lo).toNat) bufsz addr = .ok [op, lo, hi] := by
  rw [assembleOperand_one (hi ++ lo).isLt chosen found room,
    emit_plain notPair notIndirect notBranch, (bytes_of_word hi lo).1, (bytes_of_word hi lo).2]
  rfl

/-- Where the short form of an absolute mode is taken, two bytes come out. -/
theorem assemble_short {form : Form} {mode short : AsmMode} (room : 3 ≤ bufsz)
    (chosen : modeOf (counts cmos mnem) form (.ofNat 32 (hi ++ lo).toNat)
      = if (BitVec.ofNat 32 (hi ++ lo).toNat ≤ 0xFF && counts cmos mnem short) = true then short
        else mode)
    (found : lookup cmos mnem mode = some ⟨op, 3⟩) (plain : mode ≠ .zprel ∧ mode ≠ .zpind ∧ mode ≠ .rel)
    (plain' : short ≠ .zprel ∧ short ≠ .zpind ∧ short ≠ .rel) (size : modeSize short = 2) :
    assembleOperand cmos mnem (.one form (hi ++ lo).toNat) bufsz addr = .ok [op, lo, hi] ↔
      ((lookup cmos mnem short).isSome → hi ≠ 0) := by
  have small : BitVec.ofNat 32 (hi ++ lo).toNat ≤ 0xFF ↔ hi = 0 := by
    have low := lo.isLt
    have high := hi.isLt
    have zero : BitVec.toNat (0 : BitVec 8) = 0 := rfl
    rw [held_le_byte, toNat_word, BitVec.toNat_eq, zero]
    omega
  split at chosen
  next taken =>
    obtain ⟨low, has⟩ := Bool.and_eq_true_iff.mp taken
    obtain ⟨info, found'⟩ := Option.isSome_iff_exists.mp has
    have two := lookup_size found'
    rw [assembleOperand_one (hi ++ lo).isLt chosen found' (by omega),
      emit_plain plain'.1 plain'.2.1 plain'.2.2, two, size]
    simp only [Except.ok.injEq]
    constructor
    · intro same
      simp at same
    · intro nonzero
      exact absurd (small.mp (of_decide_eq_true low)) (nonzero has)
  next longer =>
    refine ⟨fun _ has zero => longer ?_, fun _ => ?_⟩
    · exact Bool.and_eq_true_iff.mpr ⟨decide_eq_true (small.mpr zero), has⟩
    · exact assemble_word room chosen found plain.1 plain.2.1 plain.2.2

/-- A branch: the assembler's offset is the printed target less the next address. -/
theorem assemble_branch (room : 3 ≤ bufsz) (found : lookup cmos mnem .rel = some ⟨op, 2⟩) :
    assembleOperand cmos mnem (.one .abs (branchTarget (addr + 2) lo).toNat) bufsz addr
        = .ok [op, lo] ↔ (addr + 2 + lo.signExtend 32).toNat < 2 ^ 16 := by
  have chosen : modeOf (counts cmos mnem) .abs (.ofNat 32 (branchTarget (addr + 2) lo).toNat)
      = .rel := by simp [modeOf, counts, found]
  rw [assembleOperand_one (branchTarget (addr + 2) lo).isLt chosen found (by simp only; omega),
    emit_rel, BitVec.ofNat_toNat]
  exact (offset_byte [op]).trans printed_offset

theorem assemble_bitBranch (room : 3 ≤ bufsz) (found : lookup cmos mnem .zprel = some ⟨op, 3⟩) :
    assembleOperand cmos mnem (.pair lo.toNat (branchTarget (addr + 3) hi).toNat) bufsz addr
        = .ok [op, lo, hi] ↔ (addr + 3 + hi.signExtend 32).toNat < 2 ^ 16 := by
  have bound := lo.isLt
  have has : counts cmos mnem .zprel = true := by simp [counts, found]
  have selected : select (counts cmos mnem) (.pair lo.toNat (branchTarget (addr + 3) hi).toNat)
      = .ok ⟨.zprel, .ofNat 32 lo.toNat, .ofNat 32 (branchTarget (addr + 3) hi).toNat⟩ := by
    simp only [select, has, held_small (n := lo.toNat) (by omega),
      held_small (branchTarget (addr + 3) hi).isLt]
    rfl
  have settled := settleMode_zprel (counts cmos mnem)
  have small : ¬ (0xFF < BitVec.ofNat 32 lo.toNat) := by
    rw [byte_lt_held]
    omega
  rw [assembleOperand_of_found selected (by rw [settled]; exact found) room]
  dsimp only
  rw [settled, emit_zprel, if_neg small, setWidth_ofNat_byte, BitVec.ofNat_toNat]
  exact (offset_byte [op, lo]).trans printed_offset

/-- No operand: the implied and the accumulator forms. -/
theorem assemble_bare {o : Operand} {mode : AsmMode} (room : 3 ≤ bufsz)
    (bare : o = .none ∧ mode = .imp ∨ o = .acc ∧ mode = .acc)
    (found : lookup cmos mnem mode = some ⟨op, 1⟩) :
    assembleOperand cmos mnem o bufsz addr = .ok [op] := by
  have has : counts cmos mnem mode = true := by simp [counts, found]
  rcases bare with ⟨rfl, rfl⟩ | ⟨rfl, rfl⟩
  · have settled : settleMode (counts cmos mnem) .imp = .imp := by simp [settleMode_imp, has]
    rw [assembleOperand_of_found rfl (by rw [settled]; exact found) (by simp only; omega)]
    dsimp only
    rw [settled, emit_plain (by decide) (by decide) (by decide)]
    rfl
  · have settled := settleMode_acc (counts cmos mnem)
    rw [assembleOperand_of_found rfl (by rw [settled]; exact found) (by simp only; omega)]
    dsimp only
    rw [settled, emit_plain (by decide) (by decide) (by decide)]
    rfl

end Shown

/-- The bytes that assembling the printed operand gives, against the bytes it was printed from. -/
theorem assemble_shown {cmos : Bool} {info : Opcode} {bufsz : ℕ} {addr : BitVec 32}
    {op lo hi : BitVec 8} (room : 3 ≤ bufsz)
    (found : lookup cmos info.mnemonic (asmMode info.mode)
      = some ⟨op, instructionBytes info.mode⟩)
    (plain : unambiguous cmos info = true) :
    assembleOperand cmos info.mnemonic (shown info.mode addr lo hi) bufsz addr
        = .ok ([op, lo, hi].take (instructionBytes info.mode)) ↔
      (∀ short, shortMode info.mode = some short →
        (lookup cmos info.mnemonic short).isSome → hi ≠ 0) ∧
      (info.mode = .rel → (addr + 2 + lo.signExtend 32).toNat < 2 ^ 16) ∧
      (info.mode = .bprel → (addr + 3 + hi.signExtend 32).toNat < 2 ^ 16) := by
  have missing : ∀ {mode}, (lookup cmos info.mnemonic mode).isNone = true →
      counts cmos info.mnemonic mode = false := by
    intro mode none
    simp [counts, Option.isNone_iff_eq_none.mp none]
  have has : counts cmos info.mnemonic (asmMode info.mode) = true := by simp [counts, found]
  have byteShort : (BitVec.ofNat 32 lo.toNat ≤ 0xFF
      && counts cmos info.mnemonic (asmMode info.mode)) = true := by
    have bound := lo.isLt
    refine Bool.and_eq_true_iff.mpr ⟨decide_eq_true ?_, has⟩
    rw [held_le_byte]
    omega
  unfold unambiguous at plain
  generalize info.mode = mode at found plain has byteShort ⊢
  -- In most modes nothing is lost.
  have free : shortMode mode = none → mode ≠ .rel → mode ≠ .bprel →
      assembleOperand cmos info.mnemonic (shown mode addr lo hi) bufsz addr
        = .ok ([op, lo, hi].take (instructionBytes mode)) →
      (assembleOperand cmos info.mnemonic (shown mode addr lo hi) bufsz addr
          = .ok ([op, lo, hi].take (instructionBytes mode)) ↔
        (∀ short, shortMode mode = some short →
          (lookup cmos info.mnemonic short).isSome → hi ≠ 0) ∧
        (mode = .rel → (addr + 2 + lo.signExtend 32).toNat < 2 ^ 16) ∧
        (mode = .bprel → (addr + 3 + hi.signExtend 32).toNat < 2 ^ 16)) := by
    intro long notBranch notBit ok
    simp [ok, long, notBranch, notBit]
  cases mode with
  | imp => exact free rfl (by decide) (by decide) (assemble_bare room (.inl ⟨rfl, rfl⟩) found)
  | acc => exact free rfl (by decide) (by decide) (assemble_bare room (.inr ⟨rfl, rfl⟩) found)
  | imm =>
    have chosen : modeOf (counts cmos info.mnemonic) .imm (.ofNat 32 lo.toNat) = .imm := rfl
    exact free rfl (by decide) (by decide)
      (assemble_byte room chosen found (by decide) (by decide))
  | bp =>
    have chosen : modeOf (counts cmos info.mnemonic) .abs (.ofNat 32 lo.toNat) = .zp :=
      (if_neg (by simp [missing plain])).trans (if_pos byteShort)
    exact free rfl (by decide) (by decide)
      (assemble_byte room chosen found (by decide) (by decide))
  | bpx =>
    have chosen : modeOf (counts cmos info.mnemonic) .absx (.ofNat 32 lo.toNat) = .zpx :=
      if_pos byteShort
    exact free rfl (by decide) (by decide)
      (assemble_byte room chosen found (by decide) (by decide))
  | bpy =>
    have chosen : modeOf (counts cmos info.mnemonic) .absy (.ofNat 32 lo.toNat) = .zpy :=
      if_pos byteShort
    exact free rfl (by decide) (by decide)
      (assemble_byte room chosen found (by decide) (by decide))
  | indbpy =>
    have chosen : modeOf (counts cmos info.mnemonic) .indy (.ofNat 32 lo.toNat) = .indzpy := rfl
    exact free rfl (by decide) (by decide)
      (assemble_byte room chosen found (by decide) (by decide))
  | bpxind =>
    have chosen : modeOf (counts cmos info.mnemonic) .indx (.ofNat 32 lo.toNat) = .zpxind := by
      simp [modeOf, missing plain]
    exact free rfl (by decide) (by decide)
      (assemble_byte room chosen found (by decide) (by decide))
  | bpind =>
    have chosen : modeOf (counts cmos info.mnemonic) .ind (.ofNat 32 lo.toNat) = .zpind :=
      if_pos has
    exact free rfl (by decide) (by decide)
      (assemble_byte room chosen found (by decide) (by decide))
  | ind =>
    have chosen : modeOf (counts cmos info.mnemonic) .ind (.ofNat 32 (hi ++ lo).toNat) = .ind := by
      simp [modeOf, missing plain]
    exact free rfl (by decide) (by decide)
      (assemble_word room chosen found (by decide) (by decide) (by decide))
  | absxind =>
    have chosen : modeOf (counts cmos info.mnemonic) .indx (.ofNat 32 (hi ++ lo).toNat) = .absxind :=
      if_pos has
    exact free rfl (by decide) (by decide)
      (assemble_word room chosen found (by decide) (by decide) (by decide))
  | abs =>
    have chosen : modeOf (counts cmos info.mnemonic) .abs (.ofNat 32 (hi ++ lo).toNat)
        = if (BitVec.ofNat 32 (hi ++ lo).toNat ≤ 0xFF && counts cmos info.mnemonic .zp) = true
          then .zp else .abs := if_neg (by simp [missing plain])
    refine (assemble_short room chosen found (by decide) (by decide) rfl).trans ?_
    simp [shortMode]
  | absx =>
    have chosen : modeOf (counts cmos info.mnemonic) .absx (.ofNat 32 (hi ++ lo).toNat)
        = if (BitVec.ofNat 32 (hi ++ lo).toNat ≤ 0xFF && counts cmos info.mnemonic .zpx) = true
          then .zpx else .absx := rfl
    refine (assemble_short room chosen found (by decide) (by decide) rfl).trans ?_
    simp [shortMode]
  | absy =>
    have chosen : modeOf (counts cmos info.mnemonic) .absy (.ofNat 32 (hi ++ lo).toNat)
        = if (BitVec.ofNat 32 (hi ++ lo).toNat ≤ 0xFF && counts cmos info.mnemonic .zpy) = true
          then .zpy else .absy := rfl
    refine (assemble_short room chosen found (by decide) (by decide) rfl).trans ?_
    simp [shortMode]
  | rel =>
    refine (assemble_branch room found).trans ?_
    simp [shortMode]
  | bprel =>
    refine (assemble_bitBranch room found).trans ?_
    simp [shortMode]

/-- The printed text of a documented instruction assembles to its bytes if and only if it is
recoverable. -/
theorem reassembles_iff (cmos : Bool) (bus : ω) (addr : BitVec 32) (bufsz : ℕ)
    (documented : isIllegal (opcode cmos (IBus.peek8 bus addr)) (IBus.peek8 bus addr) = false)
    (room : 3 ≤ bufsz) : Reassembles cmos bus addr bufsz ↔ Recoverable cmos bus addr := by
  obtain ⟨found, plain⟩ := lookup_documented documented
  obtain ⟨split, visible⟩ := words_disassembleOne cmos bus addr
  have size : instructionBytes (opcode cmos (IBus.peek8 bus addr)).mode ≤ 3 := by
    cases (opcode cmos (IBus.peek8 bus addr)).mode <;> decide
  have known := lookup_known found
  unfold Reassembles
  rw [assembleLine_eq bufsz addr visible split (writes_operandText _ _ _ _), String.ofList_toList,
    if_pos known]
  change _ = Except.ok (bytesAt bus addr (instructionBytes _)) ↔ _
  rw [bytesAt_eq bus addr size, assemble_shown room found plain]
  exact ⟨fun ⟨long, branch, bitBranch⟩ => ⟨long, branch, bitBranch⟩,
    fun ⟨long, branch, bitBranch⟩ => ⟨long, branch, bitBranch⟩⟩

/-- Three bytes on an empty 64K bus. -/
def placed (addr : BitVec 32) (op lo hi : BitVec 8) : FlatMemoryBus :=
  (((FlatMemoryBus.new 16).write8 addr op).write8 (addr + 1) lo).write8 (addr + 2) hi

/-- LDA $1234 at $1000. -/
theorem reassembles_absolute : Reassembles false (placed 0x1000 0xAD 0x34 0x12) 0x1000 16 := by
  refine (reassembles_iff false (placed 0x1000 0xAD 0x34 0x12) 0x1000 16 (by decide)
    (by decide)).mpr ⟨?_, ?_, ?_⟩
  · intro _ _ _
    decide
  · intro branch
    exact absurd branch (by decide)
  · intro branch
    exact absurd branch (by decide)

/-- LDA $0012 comes back as LDA $12, and BNE $0012 at $FFF0 does not come back at all. -/
theorem not_reassembles :
    isIllegal (opcode false 0xAD) 0xAD = false ∧
      ¬ Reassembles false (placed 0x1000 0xAD 0x12 0x00) 0x1000 16 ∧
      isIllegal (opcode false 0xD0) 0xD0 = false ∧
      ¬ Reassembles false (placed 0xFFF0 0xD0 0x20 0x00) 0xFFF0 16 := by
  unfold Reassembles
  decide

end Mmemu.Guarantees.AssemblerInverse
