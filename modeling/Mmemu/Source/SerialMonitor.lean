import Mmemu.Source.Monitors

/-!
# The MEGA65 serial monitor

`serial_monitor_server.cpp`: a command line in, a text out. The processor, the bus and the trace
are parameters; the list of breakpoints is the one that all front ends share. What the machine
does while a command runs may hit breakpoints, which counts the hits and changes nothing else of
them. A line that divides by zero has no outcome.
-/
namespace Mmemu.Source.SerialMonitor
open Mmemu.Library.Numerals
open Mmemu.Source.Assembler6502 (Text hexDigits)
open Mmemu.Source.Debugger Mmemu.Source.GdbServer Mmemu.Source.StdText

/-! ## Operands -/

/-- An `0x` in front of a number is read over, digits behind it or not. -/
def behindPrefix (text : Text) : Text :=
  match text with
  | '0' :: x :: rest => if x == 'x' || x == 'X' then rest else text
  | _ => text

/-- `>> std::hex >>` into a `uint32_t`: the number and what is left, or the failure of a text that
no number begins or whose number is out of range. -/
def hexOperand (ss : Text) : Option (BitVec 32 × Text) :=
  let (negative, rest) := signed ss
  let rest := behindPrefix rest
  let number := rest.takeWhile isxdigit
  let n := hexDigits.value (number.map Char.toUpper)
  if number = [] ∨ 2 ^ 32 ≤ n then none
  else some (if negative then -BitVec.ofNat 32 n else BitVec.ofNat 32 n, rest.dropWhile isxdigit)

/-- Two numbers, one behind the other. -/
def hexOperands (ss : Text) : Option (BitVec 32 × BitVec 32) := do
  let (first, ss) ← hexOperand ss
  let (second, _) ← hexOperand ss
  return (first, second)

/-- `>>` into a string fails where nothing is left. -/
def wordOperand (ss : Text) : Option String :=
  let (text, _) := word ss
  if text = [] then none else some (String.ofList text)

/-! ## The list of breakpoints -/

/-- `removeByAddress`: the first entry at the address goes, whatever its kind. -/
def removeByAddress (l : BreakpointList) (addr : BitVec 32) : BreakpointList :=
  { l with m_breakpoints := l.m_breakpoints.eraseP fun b => b.addr == addr }

/-- The hits that the machine makes are counted. -/
def countHits (hits : Breakpoint → ℕ) (l : BreakpointList) : BreakpointList :=
  { l with m_breakpoints := l.m_breakpoints.map fun b => { b with hitCount := b.hitCount + hits b } }

/-! ## The machine -/

variable {σ : Type}

structure RegDescriptor where
  name : String
  wide : Bool
  internal : Bool

structure ICore (σ : Type) where
  pc : σ → BitVec 32
  setPc : σ → BitVec 32 → σ
  regDescriptors : List RegDescriptor
  regRead : σ → ℕ → BitVec 32
  regWrite : σ → ℕ → BitVec 32 → σ
  /-- An instruction, with the hits of breakpoints on the way. -/
  step : σ → σ × (Breakpoint → ℕ)
  /-- The text at an address and where the next instruction begins. -/
  disassembleEntry : σ → BitVec 32 → String × BitVec 32

structure IBus (σ : Type) where
  addrBits : ℕ
  peek8 : σ → BitVec 32 → BitVec 8
  write8 : σ → BitVec 32 → BitVec 8 → σ × (Breakpoint → ℕ)

structure TraceEntry where
  addr : BitVec 32
  mnemonic : String
  a : Option (BitVec 32)
  cycles : BitVec 64

structure SerialMonitorServer (σ : Type) where
  m_cpu : Option (ICore σ)
  m_bus : Option (IBus σ)
  trace : σ → List TraceEntry

/-- What a command line may change. Without a debug context there is no list. -/
structure Session (σ : Type) where
  machine : σ
  m_dbg : Option BreakpointList
  m_lastMemAddr : BitVec 32
  m_uartDivisor : BitVec 32

namespace Session

/-- What the machine has done, with its hits counted. -/
def ran (s : Session σ) (done : σ × (Breakpoint → ℕ)) : Session σ :=
  { s with machine := done.1, m_dbg := s.m_dbg.map (countHits done.2) }

end Session

/-- A text and the session after the line; `none` is the signal of a division by zero. -/
abbrev Outcome (σ : Type) := Option (String × Session σ)

namespace SerialMonitorServer
variable (m : SerialMonitorServer σ) (s : Session σ)

/-- A number in lower-case hexadecimal, filled up with zeros. -/
def hexLower (width n : ℕ) : String :=
  let digits := Nat.toDigits 16 n
  String.ofList (List.replicate (width - digits.length) '0' ++ digits)

def formatAddr (addr : BitVec 32) : String :=
  match m.m_bus with
  | none => hex 4 (addr &&& 0xFFFF).toNat
  | some bus => hex ((bus.addrBits + 3) / 4) addr.toNat

/-! ## Registers and memory -/

def cmd_registers : String :=
  match m.m_cpu with
  | none => "ERROR: No CPU"
  | some cpu =>
    "PC=" ++ m.formatAddr (cpu.pc s.machine) ++ " " ++
      String.join (cpu.regDescriptors.zipIdx.map fun (desc, i) =>
        if desc.internal then ""
        else desc.name ++ "=" ++
          hex (if desc.wide then 4 else 2) (cpu.regRead s.machine i).toNat ++ " ")

/-- The printable character of a byte. -/
def printable (byte : BitVec 8) : String :=
  if 0x20 ≤ byte ∧ byte < 0x7F then (Char.ofNat byte.toNat).toString else "."

def memoryLine (bus : IBus σ) (lineAddr : BitVec 32) : String :=
  let bytes := (List.range 16).map fun col => bus.peek8 s.machine (lineAddr + BitVec.ofNat 32 col)
  m.formatAddr lineAddr ++ ": " ++ String.join (bytes.map fun byte => hex 2 byte.toNat ++ " ") ++
    " " ++ String.join (bytes.map printable) ++ "\n"

/-- The address `0xFFFFFFFF` stands for the one behind the last dump. -/
def cmd_memory (addr : BitVec 32) : String × Session σ :=
  match m.m_bus with
  | none => ("ERROR: No bus", s)
  | some bus =>
    let addr := if addr = 0xFFFFFFFF then s.m_lastMemAddr + 256 else addr
    (String.join ((List.range 16).map fun line =>
      m.memoryLine s bus (addr + BitVec.ofNat 32 (line * 16))), { s with m_lastMemAddr := addr })

def cmd_memory_raw (addr size : BitVec 32) : String :=
  match m.m_bus with
  | none => "ERROR: No bus"
  | some bus => " ".intercalate ((List.range size.toNat).map fun i =>
      hex 2 (bus.peek8 s.machine (addr + BitVec.ofNat 32 i)).toNat)

def cmd_setmemory (addr : BitVec 32) (value : BitVec 8) : String × Session σ :=
  match m.m_bus with
  | none => ("ERROR: No bus", s)
  | some bus => ("OK", s.ran (bus.write8 s.machine addr value))

/-- So many lines from an address on. -/
def disassembly (cpu : ICore σ) : ℕ → BitVec 32 → String
  | 0, _ => ""
  | n + 1, pc =>
    let (complete, next) := cpu.disassembleEntry s.machine pc
    m.formatAddr pc ++ " " ++ complete ++ "\n" ++ disassembly cpu n next

def cmd_disassemble (addr : BitVec 32) : String :=
  match m.m_cpu, m.m_bus with
  | some cpu, some _ => m.disassembly s cpu 16 addr
  | _, _ => "ERROR: No CPU or bus"

/-- The range is only checked and announced: its bytes do not come over this connection. -/
def cmd_loadmemory (start last : BitVec 32) : String :=
  match m.m_bus with
  | none => "ERROR: No bus"
  | some _ =>
    if last ≤ start then "ERROR: start >= end"
    else if 65536 < last - start then "ERROR: Range too large (max 64KB)"
    else "LOAD " ++ m.formatAddr start ++ "-" ++ m.formatAddr (last - 1) ++ " (" ++
      toString (last - start).toNat ++ " bytes) ready for data"

/-! ## Execution -/

def cmd_setpc (addr : BitVec 32) : String × Session σ :=
  match m.m_cpu with
  | none => ("ERROR: No CPU", s)
  | some cpu => ("OK", { s with machine := cpu.setPc s.machine addr })

def steps (cpu : ICore σ) : ℕ → Session σ → Session σ
  | 0, s => s
  | n + 1, s => steps cpu n (s.ran (cpu.step s.machine))

def cmd_step (count : BitVec 32) : String × Session σ :=
  match m.m_cpu with
  | none => ("ERROR: No CPU", s)
  | some cpu =>
    let s := steps cpu count.toNat s
    ("OK PC=" ++ hexLower 4 (cpu.pc s.machine).toNat, s)

/-- The entries of the trace from the last so many on. -/
def lastEntries (count : ℕ) : List TraceEntry :=
  let trace := m.trace s.machine
  trace.drop (if count < trace.length then trace.length - count else 0)

/-- The accumulator of an entry, where the trace has it. -/
def accumulator (entry : TraceEntry) : String :=
  match entry.a with
  | some a => " A=" ++ hexLower 2 a.toNat
  | none => ""

def cmd_trace (mode : String) : String :=
  match s.m_dbg, m.m_cpu with
  | some _, some cpu =>
    if mode = "on" ∨ mode = "1" then "Trace ON at PC=" ++ m.formatAddr (cpu.pc s.machine)
    else if mode = "off" ∨ mode = "0" then "Trace OFF"
    else if mode = "dump" then
      "Trace buffer (last 16 instructions):\n" ++ String.join ((m.lastEntries s 16).map fun entry =>
        m.formatAddr entry.addr ++ " " ++ entry.mnemonic ++ accumulator entry ++ "\n")
    else "ERROR: T <on|off|dump>"
  | _, _ => "ERROR: No debug context"

/-- The lines of the history: once an accumulator has been printed, the stream stays in
hexadecimal and prints the cycles so. -/
def historyLines (hexed : Bool) : List TraceEntry → String
  | [] => ""
  | entry :: rest =>
    let cycles := if hexed then hexLower 0 entry.cycles.toNat else toString entry.cycles.toNat
    m.formatAddr entry.addr ++ " " ++ entry.mnemonic ++ " Cycles=" ++ cycles ++
      accumulator entry ++ "\n" ++ historyLines (hexed || entry.a.isSome) rest

def cmd_history : String :=
  match s.m_dbg, m.m_cpu with
  | some _, some _ =>
    if (m.trace s.machine).length = 0 then "No history available"
    else "CPU History (last 32 instructions):\n" ++ m.historyLines false (m.lastEntries s 32)
  | _, _ => "ERROR: No debug context"

/-! ## Breakpoints and watchpoints -/

/-- The address `0xFFFFFFFF` stands for no address. -/
def cmd_breakpoint (addr : BitVec 32) : String × Session σ :=
  match s.m_dbg with
  | none => ("ERROR: No debug context", s)
  | some l =>
    if addr = 0xFFFFFFFF then
      let toRemove := l.m_breakpoints.map (·.id)
      ("OK", { s with m_dbg := some (toRemove.foldl BreakpointList.remove l) })
    else ("OK", { s with m_dbg := some (l.add addr .exec) })

def cmd_watchpoint (addr : BitVec 32) : String × Session σ :=
  match s.m_dbg with
  | none => ("ERROR: No debug context", s)
  | some l =>
    if addr = 0xFFFFFFFF then ("OK", { s with m_dbg := some (removeByAddress l addr) })
    else ("OK", { s with m_dbg := some (l.add addr .writeWatch) })

/-! ## The line rate, flags and interrupts -/

/-- The division is made in 32 bits, where the divisor's successor may be zero. -/
def cmd_uart_divisor (divisor : BitVec 32) : Outcome σ :=
  let s := { s with m_uartDivisor := divisor }
  if divisor + 1 = 0 then none
  else
    let baudRate : BitVec 32 := 40500000 / (divisor + 1)
    some ("UART Divisor: " ++ hexLower 0 divisor.toNat ++ " (" ++ toString baudRate.toNat ++ " bps)",
      s)

def flagOf : Char → Option (BitVec 32 × String)
  | 'N' => some (0x80, "Negative")
  | 'V' => some (0x40, "Overflow")
  | 'B' => some (0x10, "Break")
  | 'D' => some (0x08, "Decimal")
  | 'I' => some (0x04, "Interrupt")
  | 'Z' => some (0x02, "Zero")
  | 'C' => some (0x01, "Carry")
  | _ => none

/-- The index of the status register. -/
def statusRegister (cpu : ICore σ) : Option ℕ := cpu.regDescriptors.findIdx? (·.name == "P")

def cmd_flagwatch (flag : String) : String :=
  match m.m_cpu with
  | none => "ERROR: No CPU"
  | some cpu =>
    match flag.toList.map Char.toUpper with
    | [c] =>
      match flagOf c with
      | none => "ERROR: Unknown flag '" ++ c.toString ++ "'"
      | some (flagValue, flagName) =>
        match statusRegister cpu with
        | none => "ERROR: Status register not found"
        | some pReg =>
          flagName ++ " (" ++ c.toString ++ ") = " ++
            if cpu.regRead s.machine pReg &&& flagValue ≠ 0 then "SET" else "CLEAR"
    | _ => "ERROR: E <flag> (N,V,B,D,I,Z,C)"

/-- What the three interrupt commands share: they need the status register. -/
def withStatus (cpu : ICore σ) (act : ℕ → String × Session σ) : String × Session σ :=
  match statusRegister cpu with
  | none => ("ERROR: Status register not found", s)
  | some pReg => act pReg

def cmd_interrupts (cmd : String) : String × Session σ :=
  match m.m_cpu with
  | none => ("ERROR: No CPU", s)
  | some cpu =>
    if cmd = "on" ∨ cmd = "enable" then
      withStatus s cpu fun pReg => ("Interrupts ENABLED", { s with
        machine := cpu.regWrite s.machine pReg (cpu.regRead s.machine pReg &&& ~~~0x04) })
    else if cmd = "off" ∨ cmd = "disable" then
      withStatus s cpu fun pReg => ("Interrupts DISABLED", { s with
        machine := cpu.regWrite s.machine pReg (cpu.regRead s.machine pReg ||| 0x04) })
    else if cmd = "status" then
      withStatus s cpu fun pReg => ("Interrupts: " ++
        (if cpu.regRead s.machine pReg &&& 0x04 ≠ 0 then "DISABLED (I flag set)"
          else "ENABLED (I flag clear)"), s)
    else ("ERROR: I <on|off|status>", s)

def cmd_cpu_memory : String :=
  match m.m_bus with
  | none => "ERROR: No bus"
  | some bus =>
    let pc := match m.m_cpu with
      | some cpu => cpu.pc s.machine
      | none => 0
    let width := if bus.addrBits = 16 then "16-bit (64KB)"
      else if bus.addrBits = 28 then "28-bit (256MB MEGA65)"
      else toString bus.addrBits ++ "-bit"
    "CPU View:\nPC=" ++ m.formatAddr pc ++ "\nMemory configuration:\n  Address space: " ++ width ++
      "\n"

def helpText : String :=
  "MEGA65 Serial Monitor Server v1.0\n" ++
  "Commands: R M S D G B ? L T W Z + @ E I\n" ++
  "R=Registers, M=Memory, S=SetMem, D=Disasm, G=SetPC\n" ++
  "B=Break, ?=Help, L=LoadMem, T=Trace, W=Watch"

/-! ## A command line -/

/-- What a command letter asks for, with the operands behind it. -/
def dispatch (cmd : Char) (ss : Text) : Outcome σ :=
  match cmd with
  | 'R' => some (m.cmd_registers s, s)
  | 'M' =>
    match hexOperand ss with
    | some (addr, _) => some (m.cmd_memory { s with m_lastMemAddr := addr } addr)
    | none => some (m.cmd_memory s 0xFFFFFFFF)
  | 'X' =>
    match hexOperands ss with
    | some (addr, size) => some (m.cmd_memory_raw s addr size, s)
    | none => some ("ERROR: X <addr> <size>", s)
  | 'S' =>
    match hexOperands ss with
    | some (addr, value) => some (m.cmd_setmemory s addr (value.setWidth 8))
    | none => some ("ERROR: S <addr> <value>", s)
  | 'D' =>
    match hexOperand ss with
    | some (addr, _) => some (m.cmd_disassemble s addr, s)
    | none => some ("ERROR: D [addr]", s)
  | 'G' =>
    match hexOperand ss with
    | some (addr, _) => some (m.cmd_setpc s addr)
    | none => some ("ERROR: G <addr>", s)
  | 'N' =>
    match hexOperand ss with
    | some (count, _) => some (m.cmd_step s count)
    | none => some (m.cmd_step s 1)
  | 'B' =>
    match hexOperand ss with
    | some (addr, _) => some (cmd_breakpoint s addr)
    | none => some (cmd_breakpoint s 0xFFFFFFFF)
  | '?' | 'H' => some (helpText, s)
  | 'L' =>
    match hexOperands ss with
    | some (start, last) => some (m.cmd_loadmemory start last, s)
    | none => some ("ERROR: L <start> <end>", s)
  | 'T' =>
    match wordOperand ss with
    | some mode => some (m.cmd_trace s mode, s)
    | none => some ("ERROR: T <mode>", s)
  | 'W' =>
    match hexOperand ss with
    | some (addr, _) => some (cmd_watchpoint s addr)
    | none => some (cmd_watchpoint s 0xFFFFFFFF)
  | 'Z' => some (m.cmd_history s, s)
  | '+' =>
    match hexOperand ss with
    | some (divisor, _) => cmd_uart_divisor s divisor
    | none => some ("ERROR: + <divisor>", s)
  | '@' => some (m.cmd_cpu_memory s, s)
  | 'E' =>
    match wordOperand ss with
    | some flag => some (m.cmd_flagwatch s flag, s)
    | none => some ("ERROR: E <flag>", s)
  | 'I' =>
    match wordOperand ss with
    | some subcmd => some (m.cmd_interrupts s subcmd)
    | none => some ("ERROR: I <cmd>", s)
  | _ => some ("ERROR: Unknown command '" ++ cmd.toString ++ "'", s)

/-- The letter of a line and what is behind it. A line of blanks leaves the variable for the
letter as it was found, and nothing can be read any more. -/
def letter (found : Char) (cmdLine : Text) : Char × Text :=
  match cmdLine.dropWhile Assembler6502.isspace with
  | [] => (found.toUpper, [])
  | cmd :: ss => (cmd.toUpper, ss)

def executeCommand (found : Char) (cmdLine : Text) : Outcome σ :=
  if cmdLine = [] then some ("", s)
  else
    let (cmd, ss) := letter found cmdLine
    m.dispatch s cmd ss

end SerialMonitorServer

end Mmemu.Source.SerialMonitor
