import Mmemu.Source.Assembler6502Syntax

/-!
# The assembler's table against the opcode tables

The facts that tie the two together, for both variants: which entry stands for a documented
opcode, which opcode stands behind an entry, and what the mnemonics are made of.
-/
namespace Mmemu.Source.Assembler6502
open Mmemu.Library.Numerals
open Mmemu.Source.MemoryBus Mmemu.Source.Cpu6502

/-- The assembler's name for an addressing mode. -/
def asmMode : Mode → AsmMode
  | .imp => .imp
  | .acc => .acc
  | .imm => .imm
  | .bp => .zp
  | .bpx => .zpx
  | .bpy => .zpy
  | .abs => .abs
  | .absx => .absx
  | .absy => .absy
  | .ind => .ind
  | .bpxind => .zpxind
  | .indbpy => .indzpy
  | .rel => .rel
  | .bpind => .zpind
  | .absxind => .absxind
  | .bprel => .zprel

/-- The bytes that an instruction of a mode takes. -/
def modeSize : AsmMode → ℕ
  | .imp | .acc => 1
  | .abs | .absx | .absy | .ind | .absxind | .zprel => 3
  | _ => 2

def opcodes (cmos : Bool) : List Opcode := if cmos then s_opcodes65c02 else s_opcodes

/-- The mnemonic has no mode that the operand of its mode could be taken for. -/
def unambiguous (cmos : Bool) (info : Opcode) : Bool :=
  match info.mode with
  | .bp | .abs => (lookup cmos info.mnemonic .rel).isNone
  | .ind => (lookup cmos info.mnemonic .zpind).isNone
  | .bpxind => (lookup cmos info.mnemonic .absxind).isNone
  | _ => true

/-- What the assembler's table says of a documented opcode. -/
def encodes (cmos : Bool) (info : Opcode) (op : BitVec 8) : Bool :=
  lookup cmos info.mnemonic (asmMode info.mode) == some ⟨op, instructionBytes info.mode⟩
    && unambiguous cmos info

/-- The 65C02's other names for INC A and DEC A, which the disassembler does not use. -/
def isAlias (mnem : String) : Bool := mnem == "INA" || mnem == "DEA"

/-- A variant's opcodes in their order, as far as the two tables stand for one another. -/
structure OpcodeTable (cmos : Bool) where
  listed : List Opcode
  full : listed.length = 256
  encoded : listed.zipIdx.all (fun p =>
    isIllegal p.1 (.ofNat 8 p.2) || encodes cmos p.1 (.ofNat 8 p.2)) = true
  decoded : (m_mnemonics cmos).all (fun e => bif isAlias e.mnem
    then (opcode cmos e.info.opcode).mnemonic != e.mnem
    else (opcode cmos e.info.opcode).mnemonic == e.mnem
      && asmMode (opcode cmos e.info.opcode).mode == e.mode) = true
  plain : listed.all (fun info =>
    !info.mnemonic.toList.isEmpty && info.mnemonic.toList.all isPlain) = true

def opcodeTable (cmos : Bool) : OpcodeTable cmos where
  listed := opcodes cmos
  full := by cases cmos <;> decide +kernel
  encoded := by cases cmos <;> decide +kernel
  decoded := by cases cmos <;> decide +kernel
  plain := by cases cmos <;> decide +kernel

theorem opcode_mem (cmos : Bool) (op : BitVec 8) :
    (opcode cmos op, op.toNat) ∈ (opcodes cmos).zipIdx := by
  have inside : op.toNat < (opcodes cmos).length := by
    rw [show (opcodes cmos).length = 256 from (opcodeTable cmos).full]
    exact op.isLt
  have entry : opcode cmos op = (opcodes cmos)[op.toNat] := by
    change (opcodes cmos).getD op.toNat _ = _
    rw [List.getD_eq_getElem?_getD, List.getElem?_eq_getElem inside, Option.getD_some]
  rw [entry, List.mk_mem_zipIdx_iff_getElem?, List.getElem?_eq_getElem inside]

theorem lookup_documented {cmos : Bool} {op : BitVec 8} (documented : isIllegal (opcode cmos op) op = false) :
    lookup cmos (opcode cmos op).mnemonic (asmMode (opcode cmos op).mode)
        = some ⟨op, instructionBytes (opcode cmos op).mode⟩ ∧
      unambiguous cmos (opcode cmos op) = true := by
  have fact := List.all_eq_true.mp (opcodeTable cmos).encoded _ (opcode_mem cmos op)
  dsimp only at fact
  rw [BitVec.ofNat_toNat, BitVec.setWidth_eq, documented, Bool.false_or, encodes,
    Bool.and_eq_true, beq_iff_eq] at fact
  exact fact

theorem entries_size (cmos : Bool) :
    (m_mnemonics cmos).all (fun e => e.info.size == modeSize e.mode) = true := by
  cases cmos <;> decide

theorem lookup_mem {cmos : Bool} {mnem : String} {mode : AsmMode} {info : OpcodeInfo}
    (found : lookup cmos mnem mode = some info) : ⟨mnem, mode, info⟩ ∈ m_mnemonics cmos := by
  obtain ⟨e, first, rfl⟩ := Option.map_eq_some_iff.mp found
  have mem := List.mem_reverse.mp (List.mem_of_find?_eq_some first)
  have key := List.find?_some first
  simp only [Bool.and_eq_true, beq_iff_eq] at key
  obtain ⟨rfl, rfl⟩ := key
  exact mem

theorem lookup_size {cmos : Bool} {mnem : String} {mode : AsmMode} {info : OpcodeInfo}
    (found : lookup cmos mnem mode = some info) : info.size = modeSize mode :=
  eq_of_beq (List.all_eq_true.mp (entries_size cmos) _ (lookup_mem found))

/-- An entry's opcode disassembles under the entry's mnemonic and mode. -/
theorem lookup_decode {cmos : Bool} {mnem : String} {mode : AsmMode} {info : OpcodeInfo}
    (found : lookup cmos mnem mode = some info) (proper : isAlias mnem = false) :
    (opcode cmos info.opcode).mnemonic = mnem ∧ asmMode (opcode cmos info.opcode).mode = mode := by
  have fact := List.all_eq_true.mp (opcodeTable cmos).decoded _ (lookup_mem found)
  simpa [proper] using fact

theorem lookup_decode_alias {cmos : Bool} {mnem : String} {mode : AsmMode} {info : OpcodeInfo}
    (found : lookup cmos mnem mode = some info) (alias_ : isAlias mnem = true) :
    (opcode cmos info.opcode).mnemonic ≠ mnem := by
  have fact := List.all_eq_true.mp (opcodeTable cmos).decoded _ (lookup_mem found)
  simpa [alias_] using fact

theorem mnemonics_plain (cmos : Bool) :
    ∀ info ∈ opcodes cmos, info.mnemonic.toList ≠ [] ∧
      ∀ c ∈ info.mnemonic.toList, isPlain c = true := by
  intro info listed
  have plain := List.all_eq_true.mp (opcodeTable cmos).plain info listed
  simpa using plain

theorem mnemonic_plain (cmos : Bool) (op : BitVec 8) :
    (opcode cmos op).mnemonic.toList ≠ [] ∧
      ∀ c ∈ (opcode cmos op).mnemonic.toList, isPlain c = true :=
  mnemonics_plain cmos _ (List.fst_mem_of_mem_zipIdx (opcode_mem cmos op))

/-! ## Printed lines -/

section Printed
variable {ω : Type} [IBus ω] (cmos : Bool) (bus : ω) (addr : BitVec 32)

theorem words_disassembleOne :
    words (disassembleOne cmos bus addr).1
      = ((opcode cmos (IBus.peek8 bus addr)).mnemonic.toList,
          operandText (opcode cmos (IBus.peek8 bus addr)).mode addr (IBus.peek8 bus (addr + 1))
            (IBus.peek8 bus (addr + 2))) ∧
      trim isBlank (disassembleOne cmos bus addr).1 ≠ [] := by
  obtain ⟨nonempty, plain⟩ := mnemonic_plain cmos (IBus.peek8 bus addr)
  exact words_line nonempty plain (isPlain_operandText _ _ _ _)

end Printed

/-- Assembling an operand by what it says. -/
def assembleOperand (cmos : Bool) (mnem : String) (o : Operand) (bufsz : ℕ)
    (currentAddr : BitVec 32) : Except Refusal (List (BitVec 8)) :=
  select (fun mode => (lookup cmos mnem mode).isSome) o >>= fun sel =>
    assembleSelected cmos mnem sel bufsz currentAddr

/-- What a line assembles to depends on what it says only. -/
theorem assembleLine_eq {cmos : Bool} {line mnem text : Text} {o : Operand} (bufsz : ℕ)
    (currentAddr : BitVec 32) (visible : trim isBlank line ≠ []) (split : words line = (mnem, text))
    (writes : Writes text o) :
    assembleLine cmos line bufsz currentAddr =
      if (m_mnemonics cmos).any fun e => e.mnem == String.ofList mnem then
        assembleOperand cmos (String.ofList mnem) o bufsz currentAddr
      else .error .rejected := by
  unfold assembleLine assembleOperand
  rw [if_neg visible, split, ← selectMode_of_writes _ writes]

theorem lookup_known {cmos : Bool} {mnem : String} {mode : AsmMode} {info : OpcodeInfo}
    (found : lookup cmos mnem mode = some info) :
    ((m_mnemonics cmos).any fun e => e.mnem == mnem) = true :=
  List.any_eq_true.mpr ⟨_, lookup_mem found, beq_self_eq_true mnem⟩

end Mmemu.Source.Assembler6502
