import Mmemu.Library.Literals
import Mmemu.Source.Assembler6502
import Mmemu.Source.Cpu45gs02

/-!
# MOS 45GS02: the disassembler

Source: src/plugins/45gs02/main/cpu45gs02.cpp (disassembleOne to disassembleEntry),
src/libtoolchain/main/idisasm.h and src/libmem/main/byte_window_bus.h. The cases of the switch
are a table; every opcode has one. A text is taken to fit its buffer.
-/
namespace Mmemu.Source.Cpu45gs02
open Mmemu.Source.MemoryBus
open Mmemu.Source.Cpu6502 (StackOp)
open Mmemu.Source.Assembler6502 (Text dollar hexDigits isHexDigit)

def MAX_PREFIXES : ℕ := 16

/-- Immediate opcodes, which have no 32-bit form. -/
def isQuadImmediateOpcode (op : BitVec 8) : Bool :=
  op ∈ [0x09, 0x29, 0x49, 0x69, 0xA9, 0xC9, 0xE9]

/-- Opcodes that $EA makes use a 32-bit pointer. -/
def is32BitIndOpcode (op : BitVec 8) : Bool :=
  op ∈ [0x12, 0x32, 0x52, 0x72, 0x92, 0xB2, 0xD2, 0xF2]

/-! ## Operand forms -/

/-- The operand formats of the disassembler's texts. -/
inductive Form where
  | plain | acc | imm | zp | zpx | zpy | indx | indy | indz | stackRel | abs | absx | absy | ind
  | indx16 | immw | rel8 | rel16 | bitrel
  deriving DecidableEq, Repr

/-- The bytes behind the opcode. -/
def Form.bytes : Form → ℕ
  | .plain | .acc => 0
  | .imm | .zp | .zpx | .zpy | .indx | .indy | .indz | .stackRel | .rel8 => 1
  | .abs | .absx | .absy | .ind | .indx16 | .immw | .rel16 | .bitrel => 2

/-- Where a displacement leads from an address, on the 16-bit address bus. -/
def target {n : ℕ} (from_ : BitVec 32) (r : BitVec n) : BitVec 16 :=
  (from_ + r.signExtend 32).setWidth 16

/-- The operand text, from the two bytes at `currentAddr`. -/
def operandText (form : Form) (is32BitInd : Bool) (currentAddr : BitVec 32) (lo hi : BitVec 8) :
    Text :=
  let byte := dollar 2 lo.toNat
  let word := dollar 4 (hi ++ lo).toNat
  match form with
  | .plain => []
  | .acc => ['A']
  | .imm => '#' :: byte
  | .zp => byte
  | .zpx => byte ++ [',', 'X']
  | .zpy => byte ++ [',', 'Y']
  | .indx => '(' :: byte ++ [',', 'X', ')']
  | .indy => '(' :: byte ++ [')', ',', 'Y']
  | .indz =>
    if is32BitInd then '[' :: byte ++ [']', ',', 'Z'] else '(' :: byte ++ [')', ',', 'Z']
  | .stackRel => '(' :: byte ++ [',', 'S', 'P', ')', ',', 'Y']
  | .abs => word
  | .absx => word ++ [',', 'X']
  | .absy => word ++ [',', 'Y']
  | .ind => '(' :: word ++ [')']
  | .indx16 => '(' :: word ++ [',', 'X', ')']
  | .immw => '#' :: word
  | .rel8 => dollar 4 (target (currentAddr + 1) lo).toNat
  | .rel16 => dollar 4 (target (currentAddr + 2) (hi ++ lo)).toNat
  | .bitrel => byte ++ ',' :: dollar 4 (target (currentAddr + 2) hi).toNat

/-- A case of the switch: its mnemonic, the one it has behind $42 $42, and its operand. -/
structure Listing where
  mnemonic : String
  quad : Option String
  form : Form
  deriving DecidableEq, Repr

def listings : List Listing := [
  ⟨"BRK", none, .plain⟩, ⟨"ORA", none, .indx⟩, ⟨"CLE", none, .plain⟩, ⟨"SEE", none, .plain⟩,
  ⟨"TSB", none, .zp⟩, ⟨"ORA", some "ORAQ", .zp⟩, ⟨"ASL", some "ASLQ", .zp⟩, ⟨"RMB0", none, .zp⟩,
  ⟨"PHP", none, .plain⟩, ⟨"ORA", none, .imm⟩, ⟨"ASL", some "ASLQ", .acc⟩, ⟨"TSY", none, .plain⟩,
  ⟨"TSB", none, .abs⟩, ⟨"ORA", some "ORAQ", .abs⟩, ⟨"ASL", some "ASLQ", .abs⟩,
  ⟨"BBR0", none, .bitrel⟩, ⟨"BPL", none, .rel8⟩, ⟨"ORA", none, .indy⟩,
  ⟨"ORA", some "ORAQ", .indz⟩, ⟨"LBPL", none, .rel16⟩, ⟨"TRB", none, .zp⟩,
  ⟨"ORA", some "ORAQ", .zpx⟩, ⟨"ASL", some "ASLQ", .zpx⟩, ⟨"RMB1", none, .zp⟩,
  ⟨"CLC", none, .plain⟩, ⟨"ORA", some "ORAQ", .absy⟩, ⟨"INC", some "INQ", .acc⟩,
  ⟨"INZ", none, .plain⟩, ⟨"TRB", none, .abs⟩, ⟨"ORA", some "ORAQ", .absx⟩,
  ⟨"ASL", some "ASLQ", .absx⟩, ⟨"BBR1", none, .bitrel⟩, ⟨"JSR", none, .abs⟩,
  ⟨"AND", none, .indx⟩, ⟨"JSR", none, .ind⟩, ⟨"JSR", none, .indx16⟩, ⟨"BIT", some "BITQ", .zp⟩,
  ⟨"AND", some "ANDQ", .zp⟩, ⟨"ROL", some "ROLQ", .zp⟩, ⟨"RMB2", none, .zp⟩,
  ⟨"PLP", none, .plain⟩, ⟨"AND", none, .imm⟩, ⟨"ROL", some "ROLQ", .acc⟩, ⟨"TYS", none, .plain⟩,
  ⟨"BIT", some "BITQ", .abs⟩, ⟨"AND", some "ANDQ", .abs⟩, ⟨"ROL", some "ROLQ", .abs⟩,
  ⟨"BBR2", none, .bitrel⟩, ⟨"BMI", none, .rel8⟩, ⟨"AND", none, .indy⟩,
  ⟨"AND", some "ANDQ", .indz⟩, ⟨"LBMI", none, .rel16⟩, ⟨"BIT", none, .zpx⟩,
  ⟨"AND", some "ANDQ", .zpx⟩, ⟨"ROL", some "ROLQ", .zpx⟩, ⟨"RMB3", none, .zp⟩,
  ⟨"SEC", none, .plain⟩, ⟨"AND", some "ANDQ", .absy⟩, ⟨"DEC", some "DEQ", .acc⟩,
  ⟨"DEZ", none, .plain⟩, ⟨"BIT", none, .absx⟩, ⟨"AND", some "ANDQ", .absx⟩,
  ⟨"ROL", some "ROLQ", .absx⟩, ⟨"BBR3", none, .bitrel⟩, ⟨"RTI", none, .plain⟩,
  ⟨"EOR", none, .indx⟩, ⟨"NEG", some "NEGQ", .plain⟩, ⟨"ASR", some "ASRQ", .acc⟩,
  ⟨"ASR", some "ASRQ", .zp⟩, ⟨"EOR", some "EORQ", .zp⟩, ⟨"LSR", some "LSRQ", .zp⟩,
  ⟨"RMB4", none, .zp⟩, ⟨"PHA", none, .plain⟩, ⟨"EOR", none, .imm⟩, ⟨"LSR", some "LSRQ", .acc⟩,
  ⟨"TAZ", none, .plain⟩, ⟨"JMP", none, .abs⟩, ⟨"EOR", some "EORQ", .abs⟩,
  ⟨"LSR", some "LSRQ", .abs⟩, ⟨"BBR4", none, .bitrel⟩, ⟨"BVC", none, .rel8⟩,
  ⟨"EOR", none, .indy⟩, ⟨"EOR", some "EORQ", .indz⟩, ⟨"LBVC", none, .rel16⟩,
  ⟨"ASR", some "ASRQ", .zpx⟩, ⟨"EOR", some "EORQ", .zpx⟩, ⟨"LSR", some "LSRQ", .zpx⟩,
  ⟨"RMB5", none, .zp⟩, ⟨"CLI", none, .plain⟩, ⟨"EOR", some "EORQ", .absy⟩, ⟨"PHY", none, .plain⟩,
  ⟨"TAB", none, .plain⟩, ⟨"MAP", none, .plain⟩, ⟨"EOR", some "EORQ", .absx⟩,
  ⟨"LSR", some "LSRQ", .absx⟩, ⟨"BBR5", none, .bitrel⟩, ⟨"RTS", none, .plain⟩,
  ⟨"ADC", none, .indx⟩, ⟨"RTN", none, .imm⟩, ⟨"BSR", none, .rel16⟩, ⟨"STZ", none, .zp⟩,
  ⟨"ADC", some "ADCQ", .zp⟩, ⟨"ROR", some "RORQ", .zp⟩, ⟨"RMB6", none, .zp⟩,
  ⟨"PLA", none, .plain⟩, ⟨"ADC", none, .imm⟩, ⟨"ROR", some "RORQ", .acc⟩, ⟨"TZA", none, .plain⟩,
  ⟨"JMP", none, .ind⟩, ⟨"ADC", some "ADCQ", .abs⟩, ⟨"ROR", some "RORQ", .abs⟩,
  ⟨"BBR6", none, .bitrel⟩, ⟨"BVS", none, .rel8⟩, ⟨"ADC", none, .indy⟩,
  ⟨"ADC", some "ADCQ", .indz⟩, ⟨"LBVS", none, .rel16⟩, ⟨"STZ", none, .zpx⟩,
  ⟨"ADC", some "ADCQ", .zpx⟩, ⟨"ROR", some "RORQ", .zpx⟩, ⟨"RMB7", none, .zp⟩,
  ⟨"SEI", none, .plain⟩, ⟨"ADC", some "ADCQ", .absy⟩, ⟨"PLY", none, .plain⟩,
  ⟨"TBA", none, .plain⟩, ⟨"JMP", none, .indx16⟩, ⟨"ADC", some "ADCQ", .absx⟩,
  ⟨"ROR", some "RORQ", .absx⟩, ⟨"BBR7", none, .bitrel⟩, ⟨"BRA", none, .rel8⟩,
  ⟨"STA", none, .indx⟩, ⟨"STA", none, .stackRel⟩, ⟨"LBRA", none, .rel16⟩, ⟨"STY", none, .zp⟩,
  ⟨"STA", some "STQ", .zp⟩, ⟨"STX", none, .zp⟩, ⟨"SMB0", none, .zp⟩, ⟨"DEY", none, .plain⟩,
  ⟨"BIT", none, .imm⟩, ⟨"TXA", none, .plain⟩, ⟨"STY", none, .absx⟩, ⟨"STY", none, .abs⟩,
  ⟨"STA", some "STQ", .abs⟩, ⟨"STX", none, .abs⟩, ⟨"BBS0", none, .bitrel⟩, ⟨"BCC", none, .rel8⟩,
  ⟨"STA", none, .indy⟩, ⟨"STA", some "STQ", .indz⟩, ⟨"LBCC", none, .rel16⟩, ⟨"STY", none, .zpx⟩,
  ⟨"STA", some "STQ", .zpx⟩, ⟨"STX", none, .zpy⟩, ⟨"SMB1", none, .zp⟩, ⟨"TYA", none, .plain⟩,
  ⟨"STA", none, .absy⟩, ⟨"TXS", none, .plain⟩, ⟨"STX", none, .absy⟩, ⟨"STZ", none, .abs⟩,
  ⟨"STA", none, .absx⟩, ⟨"STZ", none, .absx⟩, ⟨"BBS1", none, .bitrel⟩, ⟨"LDY", none, .imm⟩,
  ⟨"LDA", none, .indx⟩, ⟨"LDX", none, .imm⟩, ⟨"LDZ", none, .imm⟩, ⟨"LDY", none, .zp⟩,
  ⟨"LDA", some "LDQ", .zp⟩, ⟨"LDX", none, .zp⟩, ⟨"SMB2", none, .zp⟩, ⟨"TAY", none, .plain⟩,
  ⟨"LDA", none, .imm⟩, ⟨"TAX", none, .plain⟩, ⟨"LDZ", none, .abs⟩, ⟨"LDY", none, .abs⟩,
  ⟨"LDA", some "LDQ", .abs⟩, ⟨"LDX", none, .abs⟩, ⟨"BBS2", none, .bitrel⟩, ⟨"BCS", none, .rel8⟩,
  ⟨"LDA", none, .indy⟩, ⟨"LDA", some "LDQ", .indz⟩, ⟨"LBCS", none, .rel16⟩, ⟨"LDY", none, .zpx⟩,
  ⟨"LDA", some "LDQ", .zpx⟩, ⟨"LDX", none, .zpy⟩, ⟨"SMB3", none, .zp⟩, ⟨"CLV", none, .plain⟩,
  ⟨"LDA", none, .absy⟩, ⟨"TSX", none, .plain⟩, ⟨"LDZ", none, .absx⟩, ⟨"LDY", none, .absx⟩,
  ⟨"LDA", none, .absx⟩, ⟨"LDX", none, .absy⟩, ⟨"BBS3", none, .bitrel⟩, ⟨"CPY", none, .imm⟩,
  ⟨"CMP", none, .indx⟩, ⟨"CPZ", none, .imm⟩, ⟨"DEW", none, .zp⟩, ⟨"CPY", none, .zp⟩,
  ⟨"CMP", some "CMPQ", .zp⟩, ⟨"DEC", some "DEQ", .zp⟩, ⟨"SMB4", none, .zp⟩,
  ⟨"INY", none, .plain⟩, ⟨"CMP", none, .imm⟩, ⟨"DEX", none, .plain⟩, ⟨"ASW", none, .abs⟩,
  ⟨"CPY", none, .abs⟩, ⟨"CMP", some "CMPQ", .abs⟩, ⟨"DEC", some "DEQ", .abs⟩,
  ⟨"BBS4", none, .bitrel⟩, ⟨"BNE", none, .rel8⟩, ⟨"CMP", none, .indy⟩,
  ⟨"CMP", some "CMPQ", .indz⟩, ⟨"LBNE", none, .rel16⟩, ⟨"CPZ", none, .zp⟩,
  ⟨"CMP", some "CMPQ", .zpx⟩, ⟨"DEC", some "DEQ", .zpx⟩, ⟨"SMB5", none, .zp⟩,
  ⟨"CLD", none, .plain⟩, ⟨"CMP", some "CMPQ", .absy⟩, ⟨"PHX", none, .plain⟩,
  ⟨"PHZ", none, .plain⟩, ⟨"CPZ", none, .abs⟩, ⟨"CMP", some "CMPQ", .absx⟩,
  ⟨"DEC", some "DEQ", .absx⟩, ⟨"BBS5", none, .bitrel⟩, ⟨"CPX", none, .imm⟩, ⟨"SBC", none, .indx⟩,
  ⟨"LDA", none, .stackRel⟩, ⟨"INW", none, .zp⟩, ⟨"CPX", none, .zp⟩, ⟨"SBC", some "SBCQ", .zp⟩,
  ⟨"INC", some "INQ", .zp⟩, ⟨"SMB6", none, .zp⟩, ⟨"INX", none, .plain⟩, ⟨"SBC", none, .imm⟩,
  ⟨"NOP", none, .plain⟩, ⟨"ROW", none, .abs⟩, ⟨"CPX", none, .abs⟩, ⟨"SBC", some "SBCQ", .abs⟩,
  ⟨"INC", some "INQ", .abs⟩, ⟨"BBS6", none, .bitrel⟩, ⟨"BEQ", none, .rel8⟩, ⟨"SBC", none, .indy⟩,
  ⟨"SBC", some "SBCQ", .indz⟩, ⟨"LBEQ", none, .rel16⟩, ⟨"PHW", none, .immw⟩,
  ⟨"SBC", some "SBCQ", .zpx⟩, ⟨"INC", some "INQ", .zpx⟩, ⟨"SMB7", none, .zp⟩,
  ⟨"SED", none, .plain⟩, ⟨"SBC", some "SBCQ", .absy⟩, ⟨"PLX", none, .plain⟩,
  ⟨"PLZ", none, .plain⟩, ⟨"PHW", none, .abs⟩, ⟨"SBC", some "SBCQ", .absx⟩,
  ⟨"INC", some "INQ", .absx⟩, ⟨"BBS7", none, .bitrel⟩]

def listing (op : BitVec 8) : Listing := listings.getD op.toNat ⟨"", none, .plain⟩

/-- The mnemonic as printed. -/
def Listing.name (l : Listing) (isQuad : Bool) : String :=
  if isQuad then l.quad.getD l.mnemonic else l.mnemonic

/-- The mnemonics of 32-bit operations. -/
def quadMnemonics : List String :=
  ["LDQ", "STQ", "ADCQ", "SBCQ", "CMPQ", "ANDQ", "ORAQ", "EORQ", "ASLQ", "LSRQ", "ROLQ", "RORQ",
    "BITQ", "INQ", "DEQ", "ASRQ", "NEGQ"]

/-! ## Disassembly -/

section Disassembler
variable {ω : Type} [IBus ω]

/-- What the prefixes at an address come to. -/
structure Prefixes where
  currentAddr : BitVec 32
  isQuad : Bool
  is32BitInd : Bool
  deriving DecidableEq, Repr

/-- The prefix loop of disassembleOne, with the rounds it has left. -/
def skipPrefixes (bus : ω) : ℕ → Prefixes → Prefixes
  | 0, p => p
  | rounds + 1, p =>
    let at_ (i : BitVec 32) := IBus.peek8 bus (p.currentAddr + i)
    if at_ 0 == 0x42 && at_ 1 == 0x42 && !isQuadImmediateOpcode (at_ 2) then
      skipPrefixes bus rounds { p with isQuad := true, currentAddr := p.currentAddr + 2 }
    else if at_ 0 == 0xEA && is32BitIndOpcode (at_ 1) then
      skipPrefixes bus rounds { p with is32BitInd := true, currentAddr := p.currentAddr + 1 }
    else p

structure Disassembly where
  mnemonic : Text
  operands : Text
  bytes : ℕ
  deriving DecidableEq, Repr

/-- The text in the buffer. -/
def Disassembly.text (d : Disassembly) : Text :=
  if d.operands = [] then d.mnemonic else d.mnemonic ++ ' ' :: d.operands

def disassembleOne (bus : ω) (addr : BitVec 32) : Disassembly :=
  let p := skipPrefixes bus MAX_PREFIXES ⟨addr, false, false⟩
  let l := listing (IBus.peek8 bus p.currentAddr)
  let currentAddr := p.currentAddr + 1
  { mnemonic := (l.name p.isQuad).toList
    operands := operandText l.form p.is32BitInd currentAddr (IBus.peek8 bus currentAddr)
      (IBus.peek8 bus (currentAddr + 1))
    bytes := (currentAddr + BitVec.ofNat 32 l.form.bytes - addr).toNat }

/-! ## Decoded entries -/

structure DisasmEntry where
  addr : BitVec 32
  bytes : ℕ
  mnemonic : Text
  operands : Text
  complete : Text
  isCall : Bool
  isReturn : Bool
  isBranch : Bool
  isIllegal : Bool
  targetAddr : BitVec 32
  stackOp : StackOp
  raw : List (BitVec 8)

def MAX_RAW : ℕ := 8

def stackOp45 (op : BitVec 8) : StackOp :=
  if op = 0x48 then .pushA
  else if op = 0xDA then .pushX
  else if op = 0x5A then .pushY
  else if op = 0xDB then .pushZ
  else if op = 0x08 then .pushP
  else if op = 0x68 ∨ op = 0xFA ∨ op = 0x7A ∨ op = 0xFB ∨ op = 0x28 then .pull
  else if op = 0x00 then .brk
  else .none

/-- Four bytes at an address; any other address reads as 0. -/
structure ByteWindowBus where
  base : BitVec 32
  bytes : List (BitVec 8)

instance : IBus ByteWindowBus where
  read8 w addr := (w.bytes.getD (addr - w.base).toNat 0, w)
  write8 w _ _ := w
  peek8 w addr := w.bytes.getD (addr - w.base).toNat 0

/-- The length of each opcode, as disassembleOne gives it without a prefix. -/
def opcodeLengths45 (op : BitVec 8) : ℕ :=
  (disassembleOne (⟨0x1000, [op, 0, 0, 0]⟩ : ByteWindowBus) 0x1000).bytes

/-- The address behind the prefixes, with the rounds of the loop that are left. -/
def behindPrefixes45 (bus : ω) : ℕ → BitVec 32 → BitVec 32
  | 0, cur => cur
  | rounds + 1, cur =>
    if IBus.peek8 bus cur == 0x42 && IBus.peek8 bus (cur + 1) == 0x42 then
      behindPrefixes45 bus rounds (cur + 2)
    else if IBus.peek8 bus cur == 0xEA && is32BitIndOpcode (IBus.peek8 bus (cur + 1)) then
      behindPrefixes45 bus rounds (cur + 1)
    else cur

def prefixBytes45 (bus : ω) (addr : BitVec 32) : BitVec 32 :=
  behindPrefixes45 bus 16 addr - addr

def isCall45 (op : BitVec 8) : Bool := op == 0x20 || op == 0x63 || op == 0x22 || op == 0x23

def isReturn45 (op : BitVec 8) : Bool := op == 0x60 || op == 0x40 || op == 0x62

def isBranch45 (op : BitVec 8) : Bool :=
  op &&& 0x1F == 0x10 || op == 0x80 || op == 0x83 || op &&& 0x1F == 0x13 || op &&& 0x0F == 0x0F

def classify45 (e : DisasmEntry) (op : BitVec 8) : DisasmEntry :=
  { e with
    isCall := isCall45 op, isReturn := isReturn45 op, isBranch := isBranch45 op, isIllegal := false
    stackOp := stackOp45 op }

/-- `strtoul` of the text behind the last dollar sign. -/
def lastNumber (text : Text) : BitVec 32 :=
  if '$' ∈ text then
    let behind := (text.reverse.takeWhile (· != '$')).reverse
    BitVec.ofNat 32 (hexDigits.value (behind.takeWhile isHexDigit))
  else 0

def disassembleEntry (bus : ω) (addr : BitVec 32) : DisasmEntry :=
  let d := disassembleOne bus addr
  let op := IBus.peek8 bus (addr + prefixBytes45 bus addr)
  classify45
    { addr := addr, bytes := d.bytes, mnemonic := d.mnemonic, operands := d.operands
      complete := d.text, isCall := false, isReturn := false, isBranch := false, isIllegal := false
      targetAddr :=
        if isCall45 op || isBranch45 op || op == 0x4C || op == 0x6C then lastNumber d.text else 0
      stackOp := .none, raw := [] } op

/-- The target of the fast path, as disassembleOne prints it. -/
def targetAddr45 (op : BitVec 8) (addr : BitVec 32) (b1 b2 : BitVec 8) : BitVec 32 :=
  let word := b2 ++ b1
  if op &&& 0x0F == 0x0F then (target (addr + 3) b2).setWidth 32
  else if op &&& 0x1F == 0x10 || op == 0x80 then (target (addr + 2) b1).setWidth 32
  else if op &&& 0x1F == 0x13 || op == 0x83 || op == 0x63 then
    (target (addr + 3) word).setWidth 32
  else if op == 0x20 || op == 0x22 || op == 0x23 || op == 0x4C || op == 0x6C then
    word.setWidth 32
  else 0

def decodeEntry (bus : ω) (addr : BitVec 32) : DisasmEntry :=
  let op := IBus.peek8 bus addr
  if (op == 0x42 || op == 0xEA) && prefixBytes45 bus addr != 0 then disassembleEntry bus addr
  else
    let bytes := opcodeLengths45 op
    let raw := op :: (List.range (min bytes MAX_RAW - 1)).map fun i =>
      IBus.peek8 bus (addr + BitVec.ofNat 32 (i + 1))
    classify45
      { addr := addr, bytes := bytes, mnemonic := [], operands := [], complete := []
        isCall := false, isReturn := false, isBranch := false, isIllegal := false
        targetAddr := targetAddr45 op addr (raw.getD 1 0) (raw.getD 2 0)
        stackOp := .none, raw := raw } op

end Disassembler
end Mmemu.Source.Cpu45gs02
