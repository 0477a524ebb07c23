import Mmemu.Library.Numerals
import Mmemu.Source.Cpu6502Step

/-!
# The one-line assembler and the disassembler's text

Source: src/plugins/6502/main/assembler_6502.cpp and cpu6502.cpp (disassembleOne and the
illegal-opcode mark of decodeEntry). Text is a list of characters, the table's mode names
are constructors, and 32-bit subtraction of addresses wraps.
-/
namespace Mmemu.Source.Assembler6502
open Mmemu.Library.Numerals
open Mmemu.Source.MemoryBus Mmemu.Source.Cpu6502

/-! ## Mnemonic table -/

inductive AsmMode where
  | imp | acc | imm | zp | zpx | zpy | abs | absx | absy | ind | zpxind | indzpy | rel
  | zpind | absxind | zprel
  deriving DecidableEq, Repr

structure OpcodeInfo where
  opcode : BitVec 8
  size : ℕ
  deriving DecidableEq, Repr

structure Entry where
  mnem : String
  mode : AsmMode
  info : OpcodeInfo
  deriving DecidableEq, Repr

def add (mnem : String) (mode : AsmMode) (op : BitVec 8) (sz : ℕ) : List Entry :=
  [⟨mnem, mode, ⟨op, sz⟩⟩]

/-- Add an entry unless its opcode is zero, the table's mark for a form that is missing. -/
def addIf (mnem : String) (mode : AsmMode) (op : BitVec 8) (sz : ℕ) : List Entry :=
  if op = 0 then [] else add mnem mode op sz

def addStd (m : String) (imm zp zpx abs absx absy indx indy : BitVec 8) : List Entry :=
  addIf m .imm imm 2 ++ addIf m .zp zp 2 ++ addIf m .zpx zpx 2 ++ addIf m .abs abs 3
    ++ addIf m .absx absx 3 ++ addIf m .absy absy 3 ++ addIf m .zpxind indx 2
    ++ addIf m .indzpy indy 2

def addShift (m : String) (acc zp zpx abs absx : BitVec 8) : List Entry :=
  addIf m .acc acc 1 ++ addIf m .zp zp 2 ++ addIf m .zpx zpx 2 ++ addIf m .abs abs 3
    ++ addIf m .absx absx 3

def standardOpcodes : List Entry := List.flatten [
  addStd "ADC" 0x69 0x65 0x75 0x6D 0x7D 0x79 0x61 0x71,
  addStd "AND" 0x29 0x25 0x35 0x2D 0x3D 0x39 0x21 0x31,
  addStd "CMP" 0xC9 0xC5 0xD5 0xCD 0xDD 0xD9 0xC1 0xD1,
  addStd "EOR" 0x49 0x45 0x55 0x4D 0x5D 0x59 0x41 0x51,
  addStd "LDA" 0xA9 0xA5 0xB5 0xAD 0xBD 0xB9 0xA1 0xB1,
  addStd "ORA" 0x09 0x05 0x15 0x0D 0x1D 0x19 0x01 0x11,
  addStd "SBC" 0xE9 0xE5 0xF5 0xED 0xFD 0xF9 0xE1 0xF1,
  addStd "STA" 0 0x85 0x95 0x8D 0x9D 0x99 0x81 0x91,
  addShift "ASL" 0x0A 0x06 0x16 0x0E 0x1E,
  addShift "LSR" 0x4A 0x46 0x56 0x4E 0x5E,
  addShift "ROL" 0x2A 0x26 0x36 0x2E 0x3E,
  addShift "ROR" 0x6A 0x66 0x76 0x6E 0x7E,
  add "BIT" .zp 0x24 2, add "BIT" .abs 0x2C 3,
  add "CPX" .imm 0xE0 2, add "CPX" .zp 0xE4 2, add "CPX" .abs 0xEC 3,
  add "CPY" .imm 0xC0 2, add "CPY" .zp 0xC4 2, add "CPY" .abs 0xCC 3,
  add "DEC" .zp 0xC6 2, add "DEC" .zpx 0xD6 2, add "DEC" .abs 0xCE 3, add "DEC" .absx 0xDE 3,
  add "INC" .zp 0xE6 2, add "INC" .zpx 0xF6 2, add "INC" .abs 0xEE 3, add "INC" .absx 0xFE 3,
  add "LDX" .imm 0xA2 2, add "LDX" .zp 0xA6 2, add "LDX" .zpy 0xB6 2, add "LDX" .abs 0xAE 3,
  add "LDX" .absy 0xBE 3, add "LDY" .imm 0xA0 2, add "LDY" .zp 0xA4 2, add "LDY" .zpx 0xB4 2,
  add "LDY" .abs 0xAC 3, add "LDY" .absx 0xBC 3,
  add "STX" .zp 0x86 2, add "STX" .zpy 0x96 2, add "STX" .abs 0x8E 3,
  add "STY" .zp 0x84 2, add "STY" .zpx 0x94 2, add "STY" .abs 0x8C 3,
  add "JMP" .abs 0x4C 3, add "JMP" .ind 0x6C 3, add "JSR" .abs 0x20 3,
  add "BCC" .rel 0x90 2, add "BCS" .rel 0xB0 2, add "BEQ" .rel 0xF0 2,
  add "BMI" .rel 0x30 2, add "BNE" .rel 0xD0 2, add "BPL" .rel 0x10 2,
  add "BVC" .rel 0x50 2, add "BVS" .rel 0x70 2,
  add "BRK" .imp 0x00 1, add "CLC" .imp 0x18 1, add "CLD" .imp 0xD8 1, add "CLI" .imp 0x58 1,
  add "CLV" .imp 0xB8 1, add "SEC" .imp 0x38 1, add "SED" .imp 0xF8 1, add "SEI" .imp 0x78 1,
  add "DEX" .imp 0xCA 1, add "DEY" .imp 0x88 1, add "INX" .imp 0xE8 1, add "INY" .imp 0xC8 1,
  add "TAX" .imp 0xAA 1, add "TAY" .imp 0xA8 1, add "TXA" .imp 0x8A 1, add "TYA" .imp 0x98 1,
  add "TSX" .imp 0xBA 1, add "TXS" .imp 0x9A 1, add "PHA" .imp 0x48 1, add "PHP" .imp 0x08 1,
  add "PLA" .imp 0x68 1, add "PLP" .imp 0x28 1, add "RTI" .imp 0x40 1, add "RTS" .imp 0x60 1,
  add "NOP" .imp 0xEA 1]

def illegalOpcodes : List Entry := List.flatten [
  add "SLO" .zp 0x07 2, add "SLO" .zpx 0x17 2, add "SLO" .abs 0x0F 3, add "SLO" .absx 0x1F 3,
  add "SLO" .absy 0x1B 3, add "SLO" .zpxind 0x03 2, add "SLO" .indzpy 0x13 2,
  add "RLA" .zp 0x27 2, add "RLA" .zpx 0x37 2, add "RLA" .abs 0x2F 3, add "RLA" .absx 0x3F 3,
  add "RLA" .absy 0x3B 3, add "RLA" .zpxind 0x23 2, add "RLA" .indzpy 0x33 2,
  add "SRE" .zp 0x47 2, add "SRE" .zpx 0x57 2, add "SRE" .abs 0x4F 3, add "SRE" .absx 0x5F 3,
  add "SRE" .absy 0x5B 3, add "SRE" .zpxind 0x43 2, add "SRE" .indzpy 0x53 2,
  add "RRA" .zp 0x67 2, add "RRA" .zpx 0x77 2, add "RRA" .abs 0x6F 3, add "RRA" .absx 0x7F 3,
  add "RRA" .absy 0x7B 3, add "RRA" .zpxind 0x63 2, add "RRA" .indzpy 0x73 2,
  add "SAX" .zp 0x87 2, add "SAX" .zpy 0x97 2, add "SAX" .abs 0x8F 3, add "SAX" .zpxind 0x83 2,
  add "LAX" .zp 0xA7 2, add "LAX" .zpy 0xB7 2, add "LAX" .abs 0xAF 3, add "LAX" .absy 0xBF 3,
  add "LAX" .zpxind 0xA3 2, add "LAX" .indzpy 0xB3 2,
  add "DCP" .zp 0xC7 2, add "DCP" .zpx 0xD7 2, add "DCP" .abs 0xCF 3, add "DCP" .absx 0xDF 3,
  add "DCP" .absy 0xDB 3, add "DCP" .zpxind 0xC3 2, add "DCP" .indzpy 0xD3 2,
  add "ISC" .zp 0xE7 2, add "ISC" .zpx 0xF7 2, add "ISC" .abs 0xEF 3, add "ISC" .absx 0xFF 3,
  add "ISC" .absy 0xFB 3, add "ISC" .zpxind 0xE3 2, add "ISC" .indzpy 0xF3 2]

def initTable (cmos : Bool) : List Entry :=
  standardOpcodes ++ if cmos then [] else illegalOpcodes

def bitInstructions : List Entry := List.flatten [
  add "RMB0" .zp 0x07 2, add "SMB0" .zp 0x87 2, add "BBR0" .zprel 0x0F 3, add "BBS0" .zprel 0x8F 3,
  add "RMB1" .zp 0x17 2, add "SMB1" .zp 0x97 2, add "BBR1" .zprel 0x1F 3, add "BBS1" .zprel 0x9F 3,
  add "RMB2" .zp 0x27 2, add "SMB2" .zp 0xA7 2, add "BBR2" .zprel 0x2F 3, add "BBS2" .zprel 0xAF 3,
  add "RMB3" .zp 0x37 2, add "SMB3" .zp 0xB7 2, add "BBR3" .zprel 0x3F 3, add "BBS3" .zprel 0xBF 3,
  add "RMB4" .zp 0x47 2, add "SMB4" .zp 0xC7 2, add "BBR4" .zprel 0x4F 3, add "BBS4" .zprel 0xCF 3,
  add "RMB5" .zp 0x57 2, add "SMB5" .zp 0xD7 2, add "BBR5" .zprel 0x5F 3, add "BBS5" .zprel 0xDF 3,
  add "RMB6" .zp 0x67 2, add "SMB6" .zp 0xE7 2, add "BBR6" .zprel 0x6F 3, add "BBS6" .zprel 0xEF 3,
  add "RMB7" .zp 0x77 2, add "SMB7" .zp 0xF7 2, add "BBR7" .zprel 0x7F 3, add "BBS7" .zprel 0xFF 3]

def initCmos : List Entry := List.flatten [
  add "ORA" .zpind 0x12 2, add "AND" .zpind 0x32 2, add "EOR" .zpind 0x52 2,
  add "ADC" .zpind 0x72 2, add "STA" .zpind 0x92 2, add "LDA" .zpind 0xB2 2,
  add "CMP" .zpind 0xD2 2, add "SBC" .zpind 0xF2 2,
  add "BIT" .imm 0x89 2, add "BIT" .zpx 0x34 2, add "BIT" .absx 0x3C 3,
  add "INC" .acc 0x1A 1, add "DEC" .acc 0x3A 1, add "INA" .imp 0x1A 1, add "DEA" .imp 0x3A 1,
  add "JMP" .absxind 0x7C 3, add "BRA" .rel 0x80 2,
  add "STZ" .zp 0x64 2, add "STZ" .zpx 0x74 2, add "STZ" .abs 0x9C 3, add "STZ" .absx 0x9E 3,
  add "TSB" .zp 0x04 2, add "TSB" .abs 0x0C 3, add "TRB" .zp 0x14 2, add "TRB" .abs 0x1C 3,
  add "PHY" .imp 0x5A 1, add "PLY" .imp 0x7A 1, add "PHX" .imp 0xDA 1, add "PLX" .imp 0xFA 1,
  add "WAI" .imp 0xCB 1, add "STP" .imp 0xDB 1] ++ bitInstructions

/-- Everything the constructor adds, in order. -/
def m_mnemonics (cmos : Bool) : List Entry :=
  initTable cmos ++ if cmos then initCmos else []

/-- `m_mnemonics[mnem][mode]`, where a later addition replaces an earlier one. -/
def lookup (cmos : Bool) (mnem : String) (mode : AsmMode) : Option OpcodeInfo :=
  ((m_mnemonics cmos).reverse.find? fun e => e.mode == mode && e.mnem == mnem).map (·.info)

/-! ## Text -/

abbrev Text := List Char

/-- The digits that `%X` prints and `std::stoul` reads in base 16. -/
def hexDigits : Digits Char 16 where
  glyph d := ['0', '1', '2', '3', '4', '5', '6', '7', '8', '9', 'A', 'B', 'C', 'D', 'E', 'F'].getD d '0'
  digit c := if c.isDigit then c.toNat - 48 else c.toNat - 55
  digit_glyph := by decide

def decimalDigits : Digits Char 10 where
  glyph := hexDigits.glyph
  digit c := c.toNat - 48
  digit_glyph := by decide

/-- `%0*X` of a number that fits the width, behind a dollar sign. -/
def dollar (width n : ℕ) : Text := '$' :: hexDigits.render width n

def isBlank (c : Char) : Bool := c == ' ' || c == '\t'

/-- `std::isspace` in the C locale. -/
def isspace (c : Char) : Bool :=
  c == ' ' || c == '\t' || c == '\n' || c == '\x0b' || c == '\x0c' || c == '\r'

def toupper (text : Text) : Text := text.map Char.toUpper

/-- The mnemonic and the operand of a line, as `>>` and `std::getline` take them from the
trimmed line. -/
def words (line : Text) : Text × Text :=
  let ss := (trim isBlank line).dropWhile isspace
  let rest := ss.dropWhile (!isspace ·)
  (toupper (ss.takeWhile (!isspace ·)), toupper (trim isBlank (rest.takeWhile (· != '\n'))))

/-! ## Operand expressions -/

def isHexDigit (c : Char) : Bool := c.isDigit || ('A' ≤ c && c ≤ 'F')

/-- The expression `\$[0-9A-F]+|[0-9]+`. -/
def isNumber : Text → Bool
  | '$' :: digits => digits ≠ [] && digits.all isHexDigit
  | digits => digits ≠ [] && digits.all Char.isDigit

/-- The operand expressions share one shape: fixed text around one number, which is the
capture. -/
def numberBetween (before after oper : Text) : Option Text :=
  let number := (oper.drop before.length).take (oper.length - before.length - after.length)
  if oper = before ++ number ++ after ∧ isNumber number then some number else none

def re_imm : Text → Option Text := numberBetween ['#'] []
def re_abs : Text → Option Text := numberBetween [] []
def re_absx : Text → Option Text := numberBetween [] [',', 'X']
def re_absy : Text → Option Text := numberBetween [] [',', 'Y']
def re_ind : Text → Option Text := numberBetween ['('] [')']
def re_indx : Text → Option Text := numberBetween ['('] [',', 'X', ')']
def re_indy : Text → Option Text := numberBetween ['('] [')', ',', 'Y']

/-- Two numbers with a comma between them. -/
def re_zprel (oper : Text) : Option (Text × Text) :=
  let first := oper.takeWhile (· != ',')
  let second := oper.drop (first.length + 1)
  if oper = first ++ ',' :: second ∧ isNumber first ∧ isNumber second then some (first, second)
  else none

/-- Why no bytes come out: the result -1, or the exception of `std::stoul`. -/
inductive Refusal where
  | rejected | outOfRange
  deriving DecidableEq, Repr

/-- The number an operand writes, whatever its size. -/
def numberOf : Text → ℕ
  | '$' :: digits => hexDigits.value digits
  | digits => decimalDigits.value digits

/-- `std::stoul` throws beyond 64 bits; the result is kept in 32. -/
def parseValue (s : Text) : Except Refusal (BitVec 32) :=
  if numberOf s < 2 ^ 64 then .ok (BitVec.ofNat 32 (numberOf s)) else .error .outOfRange

/-! ## Assembling a line -/

structure Selection where
  mode : AsmMode
  val : BitVec 32
  target : BitVec 32
  deriving DecidableEq, Repr

/-- The chain of expressions; `count` tells which modes the mnemonic has. -/
def selectMode (count : AsmMode → Bool) (oper : Text) : Except Refusal Selection :=
  if oper = [] then .ok ⟨.imp, 0, 0⟩
  else if oper = ['A'] then .ok ⟨.acc, 0, 0⟩
  else if let some number := re_imm oper then do
    return ⟨.imm, ← parseValue number, 0⟩
  else if let some (first, second) := if count .zprel then re_zprel oper else none then do
    return ⟨.zprel, ← parseValue first, ← parseValue second⟩
  else if let some number := re_indx oper then do
    return ⟨if count .absxind then .absxind else .zpxind, ← parseValue number, 0⟩
  else if let some number := re_indy oper then do
    return ⟨.indzpy, ← parseValue number, 0⟩
  else if let some number := re_ind oper then do
    return ⟨if count .zpind then .zpind else .ind, ← parseValue number, 0⟩
  else if let some number := re_absx oper then do
    let val ← parseValue number
    return ⟨if val ≤ 0xFF && count .zpx then .zpx else .absx, val, 0⟩
  else if let some number := re_absy oper then do
    let val ← parseValue number
    return ⟨if val ≤ 0xFF && count .zpy then .zpy else .absy, val, 0⟩
  else if let some number := re_abs oper then do
    let val ← parseValue number
    return ⟨if count .rel then .rel else if val ≤ 0xFF && count .zp then .zp else .abs, val, 0⟩
  else .error .rejected

/-- The accumulator forms may be written without their operand, and a zero-page mode the
mnemonic lacks falls back to the absolute one. -/
def settleMode (count : AsmMode → Bool) (mode : AsmMode) : AsmMode :=
  let mode := if mode = .imp && count .acc && !count .imp then .acc else mode
  if count mode then mode
  else match mode with
    | .zp => .abs
    | .zpx => .absx
    | .zpy => .absy
    | _ => mode

def inBranchRange (offset : BitVec 32) : Bool := -128 ≤ offset.toInt && offset.toInt ≤ 127

/-- The bytes of an instruction whose mode is settled. -/
def emit (info : OpcodeInfo) (mode : AsmMode) (val target currentAddr : BitVec 32) :
    Except Refusal (List (BitVec 8)) :=
  if mode = .zprel then
    let offset := target - (currentAddr + 3)
    if 0xFF < val then .error .rejected
    else if inBranchRange offset then .ok [info.opcode, val.setWidth 8, offset.setWidth 8]
    else .error .rejected
  else if mode = .zpind && 0xFF < val then .error .rejected
  else if mode = .rel then
    let offset := val - (currentAddr + 2)
    if inBranchRange offset then .ok [info.opcode, offset.setWidth 8] else .error .rejected
  else .ok (info.opcode :: [val.setWidth 8, val.extractLsb' 8 8].take (info.size - 1))

/-- The part behind the selection of a mode. -/
def assembleSelected (cmos : Bool) (mnem : String) (sel : Selection) (bufsz : ℕ)
    (currentAddr : BitVec 32) : Except Refusal (List (BitVec 8)) :=
  let mode := settleMode (fun mode => (lookup cmos mnem mode).isSome) sel.mode
  match lookup cmos mnem mode with
  | none => .error .rejected
  | some info =>
    if bufsz < info.size then .error .rejected
    else emit info mode sel.val sel.target currentAddr

/-- The bytes that a line leaves in the buffer; a blank line leaves none. -/
def assembleLine (cmos : Bool) (line : Text) (bufsz : ℕ) (currentAddr : BitVec 32) :
    Except Refusal (List (BitVec 8)) :=
  if trim isBlank line = [] then .ok []
  else
    let (mnem, oper) := words line
    if (m_mnemonics cmos).any fun e => e.mnem == String.ofList mnem then
      let mnem := String.ofList mnem
      selectMode (fun mode => (lookup cmos mnem mode).isSome) oper >>= fun sel =>
        assembleSelected cmos mnem sel bufsz currentAddr
    else .error .rejected

/-! ## Disassembly -/

/-- Opcodes that decodeEntry marks as undocumented. -/
def isIllegal (info : Opcode) (op : BitVec 8) : Bool :=
  match info.fn with
  | .KIL | .SLO | .RLA | .SRE | .RRA | .SAX | .LAX | .DCP | .ISC | .ANC | .ALR | .ARR | .XAA
  | .AHX | .TAS | .SHY | .SHX | .LAS | .AXS | .LXA => true
  | .NOP => op != 0xEA
  | .SBC => op == 0xEB
  | _ => false

/-- Where a relative operand leads, on the 16-bit address bus. -/
def branchTarget (next : BitVec 32) (rel : BitVec 8) : BitVec 16 :=
  (next + rel.signExtend 32).setWidth 16

/-- The operand text of an instruction at an address, from the two bytes behind its opcode. -/
def operandText (mode : Mode) (addr : BitVec 32) (lo hi : BitVec 8) : Text :=
  let byte := dollar 2 lo.toNat
  let word := dollar 4 (hi ++ lo).toNat
  match mode with
  | .imp => []
  | .acc => ['A']
  | .imm => '#' :: byte
  | .bp => byte
  | .bpx => byte ++ [',', 'X']
  | .bpy => byte ++ [',', 'Y']
  | .rel => dollar 4 (branchTarget (addr + 2) lo).toNat
  | .abs => word
  | .absx => word ++ [',', 'X']
  | .absy => word ++ [',', 'Y']
  | .ind => '(' :: word ++ [')']
  | .bpxind => '(' :: byte ++ [',', 'X', ')']
  | .indbpy => '(' :: byte ++ [')', ',', 'Y']
  | .bpind => '(' :: byte ++ [')']
  | .absxind => '(' :: word ++ [',', 'X', ')']
  | .bprel => byte ++ ',' :: dollar 4 (branchTarget (addr + 3) hi).toNat

/-- The text and the length of the instruction at an address; the text is `%-4s %s`. -/
def disassembleOne {ω : Type} [IBus ω] (cmos : Bool) (bus : ω) (addr : BitVec 32) : Text × ℕ :=
  let info := opcode cmos (IBus.peek8 bus addr)
  let operands := operandText info.mode addr (IBus.peek8 bus (addr + 1)) (IBus.peek8 bus (addr + 2))
  (info.mnemonic.toList.rightpad 4 ' ' ++ ' ' :: operands, instructionBytes info.mode)

end Mmemu.Source.Assembler6502
