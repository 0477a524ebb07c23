import Mmemu.Source.Assembler6502Tables

/-!
# The encoder on operands

What the assembler does with an operand once it is read: the mode it settles on, the bytes it
emits for the number it holds, and the byte of a branch.
-/
namespace Mmemu.Source.Assembler6502
open Mmemu.Library.Numerals
open Mmemu.Source.MemoryBus Mmemu.Source.Cpu6502

/-! ## Branch offsets -/

theorem inBranchRange_iff {x : BitVec 32} :
    inBranchRange x = true ↔ -128 ≤ x.toInt ∧ x.toInt ≤ 127 := by
  simp [inBranchRange]

theorem signExtend_of_inBranchRange {x : BitVec 32} (inRange : inBranchRange x = true) :
    (x.setWidth 8).signExtend 32 = x := by
  obtain ⟨low, high⟩ := inBranchRange_iff.mp inRange
  have signed := BitVec.toInt_eq_toNat_cond x
  refine BitVec.eq_of_toInt_eq ?_
  rw [BitVec.toInt_signExtend_of_le (by decide), BitVec.toInt_setWidth, Int.bmod_def]
  have bound := x.isLt
  split at signed <;> split <;> omega

theorem inBranchRange_signExtend (rel : BitVec 8) : inBranchRange (rel.signExtend 32) = true := by
  rw [inBranchRange_iff, BitVec.toInt_signExtend_of_le (by decide)]
  have low := rel.le_toInt
  have high := rel.toInt_lt
  omega

theorem setWidth_signExtend (rel : BitVec 8) : (rel.signExtend 32).setWidth 8 = rel := by
  revert rel
  decide

/-- A printed target is the address the branch leads to, unless it wraps. -/
theorem printed_offset {next : BitVec 32} {rel : BitVec 8} :
    (branchTarget next rel).setWidth 32 - next = rel.signExtend 32 ↔
      (next + rel.signExtend 32).toNat < 2 ^ 16 := by
  have same : (branchTarget next rel).setWidth 32 - next = rel.signExtend 32 ↔
      (branchTarget next rel).setWidth 32 = next + rel.signExtend 32 := by
    rw [BitVec.sub_eq_iff_eq_add, BitVec.add_comm]
  rw [same, BitVec.toNat_eq, branchTarget, BitVec.toNat_setWidth, BitVec.toNat_setWidth]
  have bound := (next + rel.signExtend 32).isLt
  omega

/-! ## Numbers as bytes -/

theorem held_small {n : ℕ} (small : n < 2 ^ 16) : held n = .ok (BitVec.ofNat 32 n) := by
  rw [held, if_pos (by omega)]

theorem held_eq_ok {n : ℕ} {val : BitVec 32} (ok : held n = .ok val) : val = BitVec.ofNat 32 n := by
  unfold held at ok
  split at ok
  · exact (Except.ok.inj ok).symm
  · exact absurd ok (by simp)

theorem low_byte (n : ℕ) : ((BitVec.ofNat 32 n).setWidth 8).toNat = n % 2 ^ 8 := by
  rw [BitVec.toNat_setWidth, BitVec.toNat_ofNat]
  omega

theorem both_bytes (n : ℕ) :
    ((BitVec.ofNat 32 n).extractLsb' 8 8 ++ (BitVec.ofNat 32 n).setWidth 8).toNat
      = n % 2 ^ 16 := by
  rw [BitVec.toNat_append, ← Nat.shiftLeft_add_eq_or_of_lt (BitVec.isLt _), low_byte,
    BitVec.extractLsb'_toNat, BitVec.toNat_ofNat, Nat.shiftLeft_eq, Nat.shiftRight_eq_div_pow]
  omega

theorem setWidth_ofNat_byte (b : BitVec 8) : (BitVec.ofNat 32 b.toNat).setWidth 8 = b := by
  refine BitVec.eq_of_toNat_eq ?_
  rw [low_byte, Nat.mod_eq_of_lt b.isLt]

theorem toNat_word (hi lo : BitVec 8) : (hi ++ lo).toNat = hi.toNat * 2 ^ 8 + lo.toNat := by
  rw [BitVec.toNat_append, ← Nat.shiftLeft_add_eq_or_of_lt lo.isLt, Nat.shiftLeft_eq]

theorem bytes_of_word (hi lo : BitVec 8) :
    (BitVec.ofNat 32 (hi ++ lo).toNat).setWidth 8 = lo ∧
      (BitVec.ofNat 32 (hi ++ lo).toNat).extractLsb' 8 8 = hi := by
  have low := lo.isLt
  have high := hi.isLt
  constructor
  · refine BitVec.eq_of_toNat_eq ?_
    rw [low_byte, toNat_word]
    omega
  · refine BitVec.eq_of_toNat_eq ?_
    rw [BitVec.extractLsb'_toNat, BitVec.toNat_ofNat, toNat_word, Nat.shiftRight_eq_div_pow]
    omega

/-- A number as it is held passes the zero-page test. -/
theorem held_le_byte (n : ℕ) : BitVec.ofNat 32 n ≤ 0xFF ↔ n % 2 ^ 32 < 2 ^ 8 := by
  have limit : BitVec.toNat (0xFF : BitVec 32) = 2 ^ 8 - 1 := rfl
  rw [BitVec.le_def, BitVec.toNat_ofNat, limit]
  omega

theorem byte_lt_held (n : ℕ) : 0xFF < BitVec.ofNat 32 n ↔ 2 ^ 8 ≤ n % 2 ^ 32 := by
  have limit : BitVec.toNat (0xFF : BitVec 32) = 2 ^ 8 - 1 := rfl
  rw [BitVec.lt_def, BitVec.toNat_ofNat, limit]
  omega

/-! ## Bytes in memory -/

section Memory
variable {ω : Type} [IBus ω]

/-- The bytes from an address on. -/
def bytesAt (bus : ω) (addr : BitVec 32) (size : ℕ) : List (BitVec 8) :=
  (List.range size).map fun i => IBus.peek8 bus (addr + BitVec.ofNat 32 i)

theorem bytesAt_eq (bus : ω) (addr : BitVec 32) {size : ℕ} (small : size ≤ 3) :
    bytesAt bus addr size
      = [IBus.peek8 bus addr, IBus.peek8 bus (addr + 1), IBus.peek8 bus (addr + 2)].take size := by
  have whole : bytesAt bus addr 3
      = [IBus.peek8 bus addr, IBus.peek8 bus (addr + 1), IBus.peek8 bus (addr + 2)] := by
    simp [bytesAt, List.range_succ]
  rw [← whole, bytesAt, bytesAt, ← List.map_take, List.take_range, Nat.min_eq_left small]

end Memory

/-! ## Modes -/

theorem settleMode_imp (count : AsmMode → Bool) :
    settleMode count .imp = if count .acc && !count .imp then .acc else .imp := by
  cases imp : count .imp <;> cases acc : count .acc <;> simp [settleMode, imp, acc]

theorem settleMode_acc (count : AsmMode → Bool) : settleMode count .acc = .acc := by
  simp [settleMode]

theorem settleMode_zprel (count : AsmMode → Bool) : settleMode count .zprel = .zprel := by
  simp [settleMode]

/-- A mode that was selected for a number needs no fallback. -/
theorem settleMode_modeOf (count : AsmMode → Bool) (form : Form) (val : BitVec 32) :
    settleMode count (modeOf count form val) = modeOf count form val := by
  have settled : ∀ mode, mode ≠ .imp → (mode = .zp ∨ mode = .zpx ∨ mode = .zpy → count mode = true) →
      settleMode count mode = mode := by
    intro mode notImplied short
    unfold settleMode
    cases mode <;> simp_all
  cases form with
  | imm => exact settled _ (by simp [modeOf]) (by simp [modeOf])
  | indx => unfold modeOf; dsimp only; split <;> exact settled _ (by simp) (by simp)
  | indy => exact settled _ (by simp [modeOf]) (by simp [modeOf])
  | ind => unfold modeOf; dsimp only; split <;> exact settled _ (by simp) (by simp)
  | absx =>
    unfold modeOf
    dsimp only
    split
    next short => exact settled _ (by simp) fun _ => (Bool.and_eq_true_iff.mp short).2
    next => exact settled _ (by simp) (by simp)
  | absy =>
    unfold modeOf
    dsimp only
    split
    next short => exact settled _ (by simp) fun _ => (Bool.and_eq_true_iff.mp short).2
    next => exact settled _ (by simp) (by simp)
  | abs =>
    unfold modeOf
    dsimp only
    split
    next => exact settled _ (by simp) (by simp)
    next =>
    split
    next short => exact settled _ (by simp) fun _ => (Bool.and_eq_true_iff.mp short).2
    next => exact settled _ (by simp) (by simp)

/-! ## Encoding an operand -/

/-- The modes that the table has for a mnemonic. -/
def counts (cmos : Bool) (mnem : String) (mode : AsmMode) : Bool := (lookup cmos mnem mode).isSome

section Encoding
variable {cmos : Bool} {mnem : String} {o : Operand} {bufsz : ℕ} {addr : BitVec 32}

theorem assembleOperand_eq_ok {bytes : List (BitVec 8)} :
    assembleOperand cmos mnem o bufsz addr = .ok bytes ↔
      ∃ sel info, select (counts cmos mnem) o = .ok sel ∧
        lookup cmos mnem (settleMode (counts cmos mnem) sel.mode) = some info ∧
        info.size ≤ bufsz ∧
        emit info (settleMode (counts cmos mnem) sel.mode) sel.val sel.target addr = .ok bytes := by
  have unfolded : assembleOperand cmos mnem o bufsz addr
      = select (counts cmos mnem) o >>= fun sel => assembleSelected cmos mnem sel bufsz addr := rfl
  have settled : ∀ sel, assembleSelected cmos mnem sel bufsz addr
      = (lookup cmos mnem (settleMode (counts cmos mnem) sel.mode)).elim (.error .rejected) fun info =>
          if bufsz < info.size then .error .rejected
          else emit info (settleMode (counts cmos mnem) sel.mode) sel.val sel.target addr := by
    intro sel
    unfold assembleSelected
    rw [show (fun mode => (lookup cmos mnem mode).isSome) = counts cmos mnem from rfl]
    dsimp only
    cases lookup cmos mnem (settleMode (counts cmos mnem) sel.mode) <;> rfl
  rw [unfolded]
  cases selected : select (counts cmos mnem) o with
  | error e => simp [bind, Except.bind]
  | ok sel =>
    simp only [bind, Except.bind, settled]
    cases found : lookup cmos mnem (settleMode (counts cmos mnem) sel.mode) with
    | none => simp [found]
    | some info =>
      rw [Option.elim_some]
      split
      · rename_i tooLong
        simp only [reduceCtorEq, Except.ok.injEq, false_iff, not_exists, not_and]
        rintro _ info' rfl found' fits
        rw [found] at found'
        obtain rfl := Option.some.inj found'
        omega
      · rename_i room
        constructor
        · intro emitted
          exact ⟨sel, info, rfl, found, Nat.le_of_not_lt room, emitted⟩
        · rintro ⟨_, info', same, found', -, emitted⟩
          obtain rfl := Except.ok.inj same
          rw [found] at found'
          obtain rfl := Option.some.inj found'
          exact emitted

/-- Assembling an operand whose mode the table has. -/
theorem assembleOperand_of_found {sel : Selection} {info : OpcodeInfo}
    (selected : select (counts cmos mnem) o = .ok sel)
    (found : lookup cmos mnem (settleMode (counts cmos mnem) sel.mode) = some info)
    (room : info.size ≤ bufsz) :
    assembleOperand cmos mnem o bufsz addr
      = emit info (settleMode (counts cmos mnem) sel.mode) sel.val sel.target addr := by
  have unfolded : assembleOperand cmos mnem o bufsz addr
      = select (counts cmos mnem) o >>= fun sel => assembleSelected cmos mnem sel bufsz addr := rfl
  rw [unfolded, selected]
  simp only [bind, Except.bind, assembleSelected]
  unfold counts at found
  rw [found]
  exact if_neg (Nat.not_lt.mpr room)

theorem assembleOperand_one {form : Form} {n : ℕ} {mode : AsmMode} {info : OpcodeInfo}
    (small : n < 2 ^ 16) (chosen : modeOf (counts cmos mnem) form (.ofNat 32 n) = mode)
    (found : lookup cmos mnem mode = some info) (room : info.size ≤ bufsz) :
    assembleOperand cmos mnem (.one form n) bufsz addr
      = emit info mode (.ofNat 32 n) 0 addr := by
  have selected : select (counts cmos mnem) (.one form n)
      = .ok ⟨modeOf (counts cmos mnem) form (.ofNat 32 n), .ofNat 32 n, 0⟩ := by
    simp only [select, held_small small]
    rfl
  have settled := settleMode_modeOf (counts cmos mnem) form (.ofNat 32 n)
  rw [assembleOperand_of_found selected (by rw [settled, chosen]; exact found) room, settled, chosen]

theorem emit_plain {info : OpcodeInfo} {mode : AsmMode} (notPair : mode ≠ .zprel)
    (notIndirect : mode ≠ .zpind) (notBranch : mode ≠ .rel) (val target : BitVec 32) :
    emit info mode val target addr
      = .ok (info.opcode :: [val.setWidth 8, val.extractLsb' 8 8].take (info.size - 1)) := by
  simp [emit, notPair, notIndirect, notBranch]

theorem emit_zpind {info : OpcodeInfo} (val target : BitVec 32) :
    emit info .zpind val target addr = if 0xFF < val then .error .rejected
      else .ok (info.opcode :: [val.setWidth 8, val.extractLsb' 8 8].take (info.size - 1)) := by
  simp [emit]

theorem emit_rel {info : OpcodeInfo} (val target : BitVec 32) :
    emit info .rel val target addr = if inBranchRange (val - (addr + 2)) then
      .ok [info.opcode, (val - (addr + 2)).setWidth 8] else .error .rejected := by
  simp [emit]

theorem emit_zprel {info : OpcodeInfo} (val target : BitVec 32) :
    emit info .zprel val target addr = if 0xFF < val then .error .rejected
      else if inBranchRange (target - (addr + 3)) then
        .ok [info.opcode, val.setWidth 8, (target - (addr + 3)).setWidth 8]
      else .error .rejected := by
  simp [emit]

theorem emit_head {info : OpcodeInfo} {mode : AsmMode} {val target : BitVec 32}
    {bytes : List (BitVec 8)} (emitted : emit info mode val target addr = .ok bytes) :
    ∃ operand, bytes = info.opcode :: operand ∧ operand.length ≤ 2 := by
  have ofPlain : Except.ok (info.opcode :: [val.setWidth 8, val.extractLsb' 8 8].take (info.size - 1))
      = (Except.ok bytes : Except Refusal _) →
      ∃ operand, bytes = info.opcode :: operand ∧ operand.length ≤ 2 := fun same =>
    ⟨_, (Except.ok.inj same).symm, List.length_take_le' _ _⟩
  by_cases pair : mode = .zprel
  · rw [pair, emit_zprel] at emitted
    split at emitted
    next => exact absurd emitted (by simp)
    next =>
    split at emitted
    next => exact ⟨_, (Except.ok.inj emitted).symm, le_refl _⟩
    next => exact absurd emitted (by simp)
  by_cases indirect : mode = .zpind
  · rw [indirect, emit_zpind] at emitted
    split at emitted
    next => exact absurd emitted (by simp)
    next => exact ofPlain emitted
  by_cases branch : mode = .rel
  · rw [branch, emit_rel] at emitted
    split at emitted
    next => exact ⟨_, (Except.ok.inj emitted).symm, by simp⟩
    next => exact absurd emitted (by simp)
  · rw [emit_plain pair indirect branch] at emitted
    exact ofPlain emitted

end Encoding

end Mmemu.Source.Assembler6502
