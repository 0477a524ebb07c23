import Mmemu.Library.CountedLoop
import Mmemu.Source.Debugger
import Mmemu.Source.StdText

/-!
# The VICE monitor protocol

`vice_monitor_protocol.cpp`: a command line in, a text out. The machine behind it is a
parameter. A reply also says which addresses the loop over a range has read; a handler whose
loop is given too little fuel does not come to one.
-/
namespace Mmemu.Source.ViceMonitor
open Mmemu.Library.CountedLoop Mmemu.Source.StdText
open Mmemu.Source.Assembler6502 (Text)

/-! ## Addresses -/

def parseAddress (str : Text) : Option (BitVec 32) :=
  match str with
  | [] => none
  | '$' :: rest => (stoul16 rest).map (·.setWidth 32)
  | _ =>
    if str.take 2 = ['0', 'x'] ∨ str.take 2 = ['0', 'X'] then
      (stoul16 (str.drop 2)).map (·.setWidth 32)
    else if str.getLast? = some 'h' ∨ str.getLast? = some 'H' then
      (stoul16 str.dropLast).map (·.setWidth 32)
    else if str.all Char.isDigit then (stoul10 str).map (·.setWidth 32)
    else if str.all isxdigit then (stoul16 str).map (·.setWidth 32)
    else none

/-! ## The machine -/

variable {σ : Type}

structure ICore (σ : Type) where
  pc : σ → BitVec 32
  sp : σ → BitVec 32
  regIndexByName : String → Option ℕ
  regRead : σ → ℕ → BitVec 32
  step : σ → σ

structure IBus (σ : Type) where
  peek8 : σ → BitVec 32 → BitVec 8
  write8 : σ → BitVec 32 → BitVec 8 → σ

structure DebugContext (σ : Type) where
  addExec : σ → BitVec 32 → ℤ × σ

structure ViceMonitorProtocol (σ : Type) where
  m_cpu : Option (ICore σ)
  m_bus : Option (IBus σ)
  m_dbg : Option (DebugContext σ)

/-- A reply, the machine after the command, and the addresses its range loop has read. -/
structure Reply (σ : Type) where
  text : String
  state : σ
  visited : List (BitVec 32)

/-- What a handler comes to: a reply, or the exception of `std::stoi`. -/
inductive Outcome (σ : Type) where
  | reply (reply : Reply σ)
  | threw

def Outcome.visited : Outcome σ → List (BitVec 32)
  | .reply r => r.visited
  | .threw => []

/-- An answer that no range was read for. -/
def say (s : σ) (text : String) : Outcome σ := .reply ⟨text, s, []⟩

namespace ViceMonitorProtocol
variable (m : ViceMonitorProtocol σ) (s : σ)

def getVersion : String := "VICE emulation disabled (mmemu VICE protocol adapter v1.0)"

def registersText (cpu : ICore σ) : String :=
  let byte name := match cpu.regIndexByName name with
    | some i => (cpu.regRead s i &&& 0xFF).toNat
    | none => 0
  "  PC = " ++ hex 4 (cpu.pc s).toNat ++ "   SR = " ++ hex 2 (byte "P") ++ "   AC = " ++
    hex 2 (byte "A") ++ "   XR = " ++ hex 2 (byte "X") ++ "   YR = " ++ hex 2 (byte "Y") ++
    "   SP = " ++ hex 2 (cpu.sp s &&& 0xFF).toNat

def cmd_registers : Outcome σ :=
  match m.m_cpu with
  | none => say s "? No CPU"
  | some cpu => say s (registersText s cpu)

/-! ### The range commands -/

/-- The range that `mem` reads. Without a blank the one address is both its ends. -/
def memoryRange (args : Text) : Option (BitVec 32 × BitVec 32) := do
  let start ← parseAddress (args.takeWhile (· != ' '))
  let rest := if ' ' ∈ args then (args.dropWhile (· != ' ')).drop 1 else args
  let last := if rest = [] then 0xFF else (parseAddress rest).getD (start + 15)
  return (start, last)

def rowText (bus : IBus σ) (last addr : BitVec 32) : String :=
  hex 4 addr.toNat ++ ": " ++
    String.join ((stretch 16 last addr).map fun a => hex 2 (bus.peek8 s a).toNat ++ " ") ++ "\n"

def cmd_memory (fuel : ℕ) (args : Text) : Option (Outcome σ) :=
  match m.m_bus with
  | none => some (say s "? No memory bus")
  | some bus =>
    match memoryRange args with
    | none => some (say s "? INVALID ADDRESS")
    | some (start, last) => do
      let rows ← upTo 16 last fuel start
      return .reply ⟨String.join (rows.map (rowText s bus last)), s, rows.flatMap (stretch 16 last)⟩

/-- The range that `checksum` sums up, by default the first 64K. -/
def checksumRange (args : Text) : Option (BitVec 32 × BitVec 32) :=
  let (start_str, ss) := word args
  let (end_str, _) := word ss
  if start_str = [] ∨ end_str = [] then some (0, 0xFFFF)
  else do return (← parseAddress start_str, ← parseAddress end_str)

def cmd_checksum (fuel : ℕ) (args : Text) : Option (Outcome σ) :=
  match m.m_bus with
  | none => some (say s "? No memory bus")
  | some bus =>
    match checksumRange args with
    | none => some (say s "? INVALID ADDRESS")
    | some (start, last) => do
      let addrs ← upTo 1 last fuel start
      let checksum := addrs.foldl
        (fun (sum : BitVec 32) a => (sum + (bus.peek8 s a).setWidth 32) &&& 0xFFFFFF) 0
      return .reply ⟨"Checksum: " ++ hex 6 checksum.toNat, s, addrs⟩

/-! ### The other commands -/

def cmd_setmem (args : Text) : Outcome σ :=
  match m.m_bus with
  | none => say s "? No memory bus"
  | some bus =>
    let (addr_str, ss) := word args
    let (val_str, _) := word ss
    if addr_str = [] ∨ val_str = [] then say s "? SYNTAX: setmem <address> <value>"
    else match parseAddress addr_str with
      | none => say s ("? INVALID ADDRESS: " ++ String.ofList addr_str)
      | some addr => match parseAddress val_str with
        | none => say s ("? INVALID VALUE: " ++ String.ofList val_str)
        | some value => say (bus.write8 s addr (value.setWidth 8)) "OK"

/-- So many lines from an address on. -/
def disasmLines (bus : IBus σ) : ℕ → BitVec 32 → String
  | 0, _ => ""
  | n + 1, addr =>
    let opcode := bus.peek8 s addr
    let (name, length) := match opcode.toNat with
      | 0xEA => ("NOP", 1)
      | 0x60 => ("RTS", 1)
      | 0xA9 => ("LDA #$" ++ hex 2 (bus.peek8 s (addr + 1)).toNat, 2)
      | _ => ("???", 1)
    hex 4 addr.toNat ++ " " ++ hex 2 opcode.toNat ++ "    " ++ name ++ "\n" ++
      disasmLines bus n (addr + length)

def cmd_disassemble (args : Text) : Outcome σ :=
  match m.m_cpu, m.m_bus with
  | some cpu, some bus =>
    let (addr_str, ss) := word args
    if addr_str = [] then say s (disasmLines s bus 10 (cpu.pc s))
    else match parseAddress addr_str with
      | none => say s ("? INVALID ADDRESS: " ++ String.ofList addr_str)
      | some addr => say s (disasmLines s bus (count ss 10).toNat addr)
  | _, _ => say s "? No CPU or memory bus"

def cmd_breakpoint (args : Text) : Outcome σ :=
  match m.m_dbg with
  | none => say s "? No debug context"
  | some dbg =>
    match parseAddress args with
    | none => say s ("? INVALID ADDRESS: " ++ String.ofList args)
    | some addr =>
      let (bp_id, s) := dbg.addExec s addr
      if 0 ≤ bp_id then say s ("BREAKPOINT " ++ hex 4 addr.toNat)
      else say s "? FAILED TO SET BREAKPOINT"

def cmd_step (args : Text) : Outcome σ :=
  match if args = [] then some 1 else stoi args with
  | none => .threw
  | some steps =>
    match m.m_cpu with
    | none => say s "? No CPU"
    | some cpu => m.cmd_registers (cpu.step^[steps.toNat] s)

def cmd_backtrace : Outcome σ :=
  match m.m_dbg, m.m_cpu with
  | some _, some cpu =>
    say s ("Call Stack: (simplified)\n" ++ "PC = " ++ hex 4 (cpu.pc s).toNat ++ "\n")
  | _, _ => say s "? No debug context or CPU"

def helpText : String := "
VICE Monitor Protocol Help (mmemu implementation)

Commands:
  reg [name] [value]      - Show/set registers
  mem start [end]         - Read memory range
  setmem addr value       - Write memory byte
  disasm [start] [count]  - Disassemble instructions
  break [addr]            - Set breakpoint
  delete [num]            - Delete breakpoint
  continue                - Resume execution
  step [count]            - Step instructions
  next [count]            - Step over
  checksum start end      - Compute memory checksum
  version                 - Show version
  help [topic]            - Show this help
  exit/quit               - Disconnect

Address formats: $XXXX, 0xXXXX, decimal
"

/-! ### A command line -/

inductive Command where
  | registers | memory | setmem | disassemble | breakpoint | delete_breakpoint | continue_
  | step | stepover | checkpoint | checksum | help | version | drive | file | load | dump
  | backtrace | exit

def dispatch : String → Option Command
  | "reg" | "registers" => some .registers
  | "mem" | "memory" => some .memory
  | "setmem" => some .setmem
  | "disasm" | "disassemble" => some .disassemble
  | "break" | "breakpoint" => some .breakpoint
  | "delete" => some .delete_breakpoint
  | "cont" | "continue" => some .continue_
  | "step" => some .step
  | "next" | "stepover" => some .stepover
  | "checkpoint" => some .checkpoint
  | "checksum" => some .checksum
  | "help" | "?" => some .help
  | "version" => some .version
  | "drive" => some .drive
  | "file" => some .file
  | "load" => some .load
  | "dump" => some .dump
  | "backtrace" => some .backtrace
  | "exit" | "quit" => some .exit
  | _ => none

def subcmd (cmd : Text) : String := String.ofList ((word cmd).1.map Char.toLower)

/-- What is left after as many characters as the first word has, less one blank. -/
def arguments (cmd : Text) : Text :=
  match cmd.drop (word cmd).1.length with
  | ' ' :: args => args
  | args => args

def run (fuel : ℕ) (args : Text) : Command → Option (Outcome σ)
  | .registers => some (m.cmd_registers s)
  | .memory => m.cmd_memory s fuel args
  | .setmem => some (m.cmd_setmem s args)
  | .disassemble => some (m.cmd_disassemble s args)
  | .breakpoint => some (m.cmd_breakpoint s args)
  | .step | .stepover => some (m.cmd_step s args)
  | .checksum => m.cmd_checksum s fuel args
  | .help => some (say s helpText)
  | .version => some (say s getVersion)
  | .backtrace => some (m.cmd_backtrace s)
  | .exit => some (say s "EXIT")
  | .delete_breakpoint | .continue_ | .checkpoint | .drive | .file | .load | .dump =>
    some (say s "OK")

def executeCommand (fuel : ℕ) (cmd : Text) : Option (Outcome σ) :=
  if cmd = [] then some (say s "")
  else match dispatch (subcmd cmd) with
    | some command => m.run s fuel (arguments cmd) command
    | none => some (say s ("? UNKNOWN COMMAND: " ++ subcmd cmd))

end ViceMonitorProtocol

end Mmemu.Source.ViceMonitor

/-!
# GDB server: breakpoint packets

`gdb_server.cpp` and `breakpoint_list.cpp`: what `Z` and `z` packets do to the list of
breakpoints that all front ends share. What comes behind the letter is `type,addr,kind`.
-/
namespace Mmemu.Source.GdbServer
open Mmemu.Source.Assembler6502 (Text)
open Mmemu.Source.Debugger Mmemu.Source.StdText

structure BreakpointList where
  m_breakpoints : List Breakpoint
  m_nextId : ℕ

namespace BreakpointList

def empty : BreakpointList := ⟨[], 1⟩

/-- A breakpoint without a condition, behind the others. -/
def add (l : BreakpointList) (addr : BitVec 32) (type : BreakpointType) : BreakpointList where
  m_breakpoints := l.m_breakpoints ++
    [{ addr, type, condition := fun _ _ => true, hitCount := 0, enabled := true, id := l.m_nextId }]
  m_nextId := l.m_nextId + 1

def remove (l : BreakpointList) (id : ℕ) : BreakpointList :=
  { l with m_breakpoints := l.m_breakpoints.eraseP fun b => b.id == id }

/-- The loop that finds and removes the breakpoint at an address: the first one goes. -/
def removeExec (l : BreakpointList) (addr : BitVec 32) : BreakpointList :=
  match l.m_breakpoints.find? fun b => b.addr == addr && b.type == .exec with
  | some bp => l.remove bp.id
  | none => l

end BreakpointList

/-- The type and the address of the parameters, if there are two commas. -/
def fields (params : Text) : Option (Text × Text) :=
  match params.dropWhile (· != ',') with
  | [] => none
  | _ :: rest =>
    match rest.dropWhile (· != ',') with
    | [] => none
    | _ => some (params.takeWhile (· != ','), rest.takeWhile (· != ','))

/-- A reply and the list after it; `none` is the exception of a malformed number. -/
abbrev Handled := Option (String × Option BreakpointList)

/-- What the two packets share: only software breakpoints are supported, and without a debug
context there is nothing to change. -/
def handleBreakpoint (change : BitVec 32 → BreakpointList → BreakpointList)
    (m_dbg : Option BreakpointList) (params : Text) : Handled :=
  match fields params with
  | none => some ("E01", m_dbg)
  | some (typeText, addrText) => do
    let type ← stoi typeText
    if type ≠ 0 then return ("", m_dbg)
    let addr ← stoul16 addrText
    return ("OK", m_dbg.map (change (addr.setWidth 32)))

def handleInsertBreakpoint : Option BreakpointList → Text → Handled :=
  handleBreakpoint fun addr l => l.add addr .exec

def handleRemoveBreakpoint : Option BreakpointList → Text → Handled :=
  handleBreakpoint fun addr l => l.removeExec addr

end Mmemu.Source.GdbServer
