import Mmemu.Source.CpuZ80Step
import Mmemu.Source.StdText

/-!
# Zilog Z80: the disassembler

Source: src/plugins/z80/main/disasm_z80.cpp. Memory is what `peek8` answers for the 64 KB; without
a bus it is zero.
-/
namespace Mmemu.Source.DisasmZ80
open Mmemu.Source.MemoryBus Mmemu.Source.CpuZ80 Mmemu.Source.StdText

def R8 : List String := ["B", "C", "D", "E", "H", "L", "(HL)", "A"]
def RP : List String := ["BC", "DE", "HL", "SP"]
def RP2 : List String := ["BC", "DE", "HL", "AF"]
def CC : List String := ["NZ", "Z", "NC", "C", "PO", "PE", "P", "M"]
def ALU : List String := ["ADD A,", "ADC A,", "SUB ", "SBC A,", "AND ", "XOR ", "OR ", "CP "]
def ROT : List String := ["RLC", "RRC", "RL", "RR", "SLA", "SRA", "SLL", "SRL"]
def ROTA : List String := ["RLCA", "RRCA", "RLA", "RRA", "DAA", "CPL", "SCF", "CCF"]

def hex2 (v : BitVec 8) : String := "$" ++ hex 2 v.toNat
def hex4 (v : BitVec 16) : String := "$" ++ hex 4 v.toNat

structure Dis where
  mem : BitVec 16 → BitVec 8
  pc : BitVec 16
  len : ℕ
  prefix_ : Prefix
  dispRead : Bool
  disp : BitVec 8

abbrev Decode := StateM Dis

def byte : Decode (BitVec 8) := fun d =>
  (d.mem (d.pc + BitVec.ofNat 16 d.len), { d with len := d.len + 1 })

def word : Decode (BitVec 16) := do
  let lo ← byte
  let hi ← byte
  return hi ++ lo

def Dis.hlName (d : Dis) : String :=
  match d.prefix_ with
  | .ix => "IX"
  | .iy => "IY"
  | .none => "HL"

/-- `%c$%02X` of a displacement. -/
def signedText (disp : BitVec 8) : String :=
  if disp.toInt < 0 then "-$" ++ hex 2 (-disp).toNat else "+$" ++ hex 2 disp.toNat

def memHl : Decode String := do
  if (← get).prefix_ = .none then return "(HL)"
  else
    if !(← get).dispRead then
      let disp ← byte
      modify fun d => { d with disp, dispRead := true }
    return "(" ++ (← get).hlName ++ signedText (← get).disp ++ ")"

def r8 (r : ℕ) (plainHl : Bool) : Decode String := do
  let d ← get
  if r = 6 then memHl
  else if d.prefix_ ≠ .none ∧ !plainHl ∧ (r = 4 ∨ r = 5) then
    return d.hlName ++ if r = 4 then "H" else "L"
  else return R8.getD r ""

def Dis.rp (d : Dis) (p : ℕ) : String := if p = 2 then d.hlName else RP.getD p ""

def Dis.rp2 (d : Dis) (p : ℕ) : String := if p = 2 then d.hlName else RP2.getD p ""

/-- Where a relative jump leads. -/
def target : Decode (BitVec 16) := do
  let disp ← byte
  let d ← get
  return d.pc + BitVec.ofNat 16 d.len + disp.signExtend 16

def rel : Decode String := do
  let dest ← target
  return hex4 dest

/-- A text with a word in it. -/
def withWord (before after : String) : Decode String := do
  let w ← word
  return before ++ hex4 w ++ after

def withByte (before after : String) : Decode String := do
  let b ← byte
  return before ++ hex2 b ++ after

def withRel (before : String) : Decode String := do
  let r ← rel
  return before ++ r

def withR8 (before : String) (r : ℕ) : Decode String := do
  let name ← r8 r false
  return before ++ name

def mainX0 (op : BitVec 8) : Decode String := do
  let d ← get
  let y := opY op
  match opZ op with
  | 0 => match y with
    | 0 => return "NOP"
    | 1 => return "EX AF,AF'"
    | 2 => withRel "DJNZ "
    | 3 => withRel "JR "
    | y => withRel ("JR " ++ CC.getD (y - 4) "" ++ ",")
  | 1 =>
    if !opQ op then withWord ("LD " ++ d.rp (opP op) ++ ",") ""
    else return "ADD " ++ d.hlName ++ "," ++ d.rp (opP op)
  | 2 => match y with
    | 0 => return "LD (BC),A"
    | 1 => return "LD A,(BC)"
    | 2 => return "LD (DE),A"
    | 3 => return "LD A,(DE)"
    | 4 => withWord "LD (" (")," ++ d.hlName)
    | 5 => withWord ("LD " ++ d.hlName ++ ",(") ")"
    | 6 => withWord "LD (" "),A"
    | _ => withWord "LD A,(" ")"
  | 3 => return (if opQ op then "DEC " else "INC ") ++ d.rp (opP op)
  | 4 => withR8 "INC " y
  | 5 => withR8 "DEC " y
  | 6 =>
    let dest ← r8 y false
    withByte ("LD " ++ dest ++ ",") ""
  | _ => return ROTA.getD y ""

/-- Beside (IX+d), H and L are the plain ones. -/
def mainX1 (y z : ℕ) : Decode String := do
  if y = 6 ∧ z = 6 then return "HALT"
  else
    let mem := y = 6 ∨ z = 6
    let dest ← r8 y mem
    let from_ ← r8 z mem
    return "LD " ++ dest ++ "," ++ from_

def mainX3 (op : BitVec 8) : Decode String := do
  let d ← get
  let y := opY op
  match opZ op with
  | 0 => return "RET " ++ CC.getD y ""
  | 1 =>
    if !opQ op then return "POP " ++ d.rp2 (opP op)
    else match opP op with
      | 0 => return "RET"
      | 1 => return "EXX"
      | 2 => return "JP (" ++ d.hlName ++ ")"
      | _ => return "LD SP," ++ d.hlName
  | 2 => withWord ("JP " ++ CC.getD y "" ++ ",") ""
  | 3 => match y with
    | 0 => withWord "JP " ""
    | 2 => withByte "OUT (" "),A"
    | 3 => withByte "IN A,(" ")"
    | 4 => return "EX (SP)," ++ d.hlName
    | 5 => return "EX DE,HL"
    | 6 => return "DI"
    | _ => return "EI"
  | 4 => withWord ("CALL " ++ CC.getD y "" ++ ",") ""
  | 5 =>
    if !opQ op then return "PUSH " ++ d.rp2 (opP op)
    else withWord "CALL " ""
  | 6 => withByte (ALU.getD y "") ""
  | _ => return "RST " ++ hex2 (BitVec.ofNat 8 (y * 8))

def main (op : BitVec 8) : Decode String :=
  match opX op with
  | 0 => mainX0 op
  | 1 => mainX1 (opY op) (opZ op)
  | 2 => withR8 (ALU.getD (opY op) "") (opZ op)
  | _ => mainX3 op

def cb : Decode String := do
  let indexed := (← get).prefix_ ≠ .none
  if indexed then let _ ← memHl
  let op ← byte
  let y := opY op
  let z := opZ op
  let operand ← if indexed then memHl else r8 z false
  if opX op = 1 then return "BIT " ++ toString y ++ "," ++ operand
  else
    let m := match opX op with
      | 0 => ROT.getD y "" ++ " " ++ operand
      | 2 => "RES " ++ toString y ++ "," ++ operand
      | _ => "SET " ++ toString y ++ "," ++ operand
    -- the undocumented copy
    return if indexed ∧ z ≠ 6 then m ++ "," ++ R8.getD z "" else m

def blockNames : List (List String) :=
  [["LDI", "CPI", "INI", "OUTI"], ["LDD", "CPD", "IND", "OUTD"],
    ["LDIR", "CPIR", "INIR", "OTIR"], ["LDDR", "CPDR", "INDR", "OTDR"]]

def ed : Decode String := do
  let op ← byte
  let y := opY op
  if opX op = 1 then
    match opZ op with
    | 0 => return if y = 6 then "IN (C)" else "IN " ++ R8.getD y "" ++ ",(C)"
    | 1 => return if y = 6 then "OUT (C),0" else "OUT (C)," ++ R8.getD y ""
    | 2 => return (if opQ op then "ADC HL," else "SBC HL,") ++ RP.getD (opP op) ""
    | 3 =>
      if opQ op then withWord ("LD " ++ RP.getD (opP op) "" ++ ",(") ")"
      else withWord "LD (" (")," ++ RP.getD (opP op) "")
    | 4 => return "NEG"
    | 5 => return if y = 1 then "RETI" else "RETN"
    | 6 => return "IM " ++ ["0", "0", "1", "2", "0", "0", "1", "2"].getD y ""
    | _ => return ["LD I,A", "LD R,A", "LD A,I", "LD A,R", "RRD", "RLD", "NOP", "NOP"].getD y ""
  else if opX op = 2 ∧ 4 ≤ y ∧ opZ op ≤ 3 then return (blockNames.getD (y - 4) []).getD (opZ op) ""
  else return "NOP"

/-- The prefix loop. Nothing where the rounds run out. -/
def prefixes : ℕ → BitVec 8 → Dis → Option (BitVec 8 × Dis)
  | rounds, op, d =>
    if isPrefix op then
      match rounds with
      | 0 => none
      | rounds + 1 =>
        let (next, d) := byte { d with prefix_ := if op = 0xDD then .ix else .iy }
        prefixes rounds next d
    else some (op, d)

/-- The text behind the prefixes. -/
def text (op : BitVec 8) : Decode String := do
  if op = 0xCB then cb
  else if op = 0xED then
    modify fun d => { d with prefix_ := .none }
    ed
  else main op

/-- The length of an instruction and its text in a buffer of `bufsz` characters, with the rounds
the prefix loop may take. -/
def disassembleOne (rounds : ℕ) (mem : BitVec 16 → BitVec 8) (addr : BitVec 16) (bufsz : ℕ) :
    Option (ℕ × String) :=
  let (first, d) := byte ⟨mem, addr, 0, .none, false, 0⟩
  (prefixes rounds first d).map fun (op, d) =>
    let (s, d) := text op d
    (d.len, s.take (bufsz - 1) |>.copy)

/-! ## The step with the entry it shows -/

section Shown
variable {ω : Type} [PortBus ω]

/-- The 64 KB that the core's bus shows. -/
def shownMemory (bus : ω) (a : BitVec 16) : BitVec 8 := IBus.peek8 bus (a.setWidth 32)

/-- An observer that needs it is given the disassembly. -/
def observeEntry (w : Wiring ω) (rounds : ℕ) (c : Z80 ω) : Option (Bool × Z80 ω) :=
  match w.observer with
  | none => some (observe w c)
  | some obs =>
    if obs.needsDisasm then
      (disassembleOne rounds (shownMemory c.context.bus) c.context.regs.pc 64).map fun _ => observe w c
    else some (observe w c)

/-- A step in which also the decoding of the entry may run out of rounds. -/
def stepEntry (w : Wiring ω) (rounds : ℕ) (c : Z80 ω) : Option (ℕ × Z80 ω) :=
  let (served, c) := intercept w c
  if served then some (4, c.addCycles 4)
  else if c.interrupted then some c.enter
  else if c.context.regs.halted then some (4, (c.sampled.withRegs (·.incR)).addCycles 4)
  else (observeEntry w rounds c.sampled).bind fun (cont, c) =>
    if cont then (execute rounds c.context).map c.after else some (1, c)

end Shown

end Mmemu.Source.DisasmZ80
