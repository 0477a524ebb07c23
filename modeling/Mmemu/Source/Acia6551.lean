import Mmemu.Source.MemoryBus

/-!
# MOS 6551 ACIA

Source: src/plugins/devices/acia6551/main/acia6551.cpp and acia6551.h. The far end is outside:
what is given to `send` is logged, and a poll of the TCP client is given the bytes that it finds.
The cycles of a number of bits at a bit rate, which the source takes by floating point, are a
parameter.
-/
namespace Mmemu.Source.Acia6551

abbrev Byte := BitVec 8

def SR_OVERRUN : Byte := 0x04
def SR_RDRF : Byte := 0x08
def SR_TDRE : Byte := 0x10
def SR_DCD : Byte := 0x20
def SR_DSR : Byte := 0x40
def SR_ERRORS : Byte := 0x07
def CMD_DTR : Byte := 0x01
def CMD_RX_IRQ_OFF : Byte := 0x02
def CMD_TX_MASK : Byte := 0x0C
def CMD_TX_IRQ : Byte := 0x04
def CMD_PARITY_ON : Byte := 0x20

inductive TxState where
  | NONE | STARTED | DR_WRITTEN
  deriving DecidableEq, Repr

def TxState.before : TxState → TxState
  | .DR_WRITTEN => .STARTED
  | _ => .NONE

inductive Link where
  | None | Loopback | Tcp
  deriving DecidableEq, Repr

structure Acia where
  m_base : BitVec 32
  m_clockHz : BitVec 32
  m_cmd : Byte
  m_ctrl : Byte
  m_status : Byte
  m_txData : Byte
  m_rxData : Byte
  m_dataMask : Byte
  m_irq : Bool
  m_inTx : TxState
  m_charCycles : BitVec 64
  m_txActive : Bool
  m_rxActive : Bool
  m_txCountdown : BitVec 64
  m_rxCountdown : BitVec 64
  m_rxQueue : List Byte
  m_link : Link
  m_pollCountdown : BitVec 64
  /-- What was given to `send`, the oldest first. -/
  sent : List Byte

/-- The cycles that so many bits take at a clock and a bit rate of the control register. -/
abbrev BitTime := BitVec 32 → BitVec 4 → ℕ → BitVec 64

namespace Acia
variable (time : BitTime)

def dataBits (s : Acia) : ℕ := 8 - (s.m_ctrl >>> 5 &&& 3).toNat

def updateCharTime (s : Acia) : Acia :=
  let bits := s.dataBits + 1 + (if s.m_cmd &&& CMD_PARITY_ON ≠ 0 then 1 else 0) +
    if s.m_ctrl &&& 0x80 ≠ 0 then 2 else 1
  let cycles := time s.m_clockHz (s.m_ctrl.setWidth 4) bits
  { s with
    m_dataMask := BitVec.ofNat 8 (0xFF >>> (8 - s.dataBits))
    m_charCycles := if cycles = 0 then 1 else cycles }

def setIrq (s : Acia) (on : Bool) : Acia := { s with m_irq := on }

def reset (s : Acia) : Acia :=
  { s with
    m_cmd := CMD_RX_IRQ_OFF, m_ctrl := 0, m_status := SR_TDRE, m_inTx := .NONE
    m_txActive := false, m_rxActive := false, m_rxQueue := [], m_irq := false }.updateCharTime time

def new (base clockHz : BitVec 32) (link : Link) : Acia :=
  { m_base := base, m_clockHz := clockHz, m_cmd := 0x02, m_ctrl := 0, m_status := 0x10, m_txData := 0
    m_rxData := 0, m_dataMask := 0xFF, m_irq := false, m_inTx := .NONE, m_charCycles := 1
    m_txActive := false, m_rxActive := false, m_txCountdown := 0, m_rxCountdown := 0, m_rxQueue := []
    m_link := link, m_pollCountdown := 0, sent := [] : Acia }.reset time

/-! ## Registers -/

def decodes (s : Acia) (addr : BitVec 32) : Bool := addr &&& ~~~0x0F = s.m_base

def ioPeek (s : Acia) (connected : Bool) (addr : BitVec 32) : Option Byte :=
  if s.decodes addr then
    match (addr &&& 3).toNat with
    | 0 => some s.m_rxData
    | 1 => some (s.m_status ||| (if connected then 0 else SR_DCD ||| SR_DSR) |||
        if s.m_irq then 0x80 else 0)
    | 2 => some s.m_cmd
    | _ => some s.m_ctrl
  else none

def ioRead (s : Acia) (connected : Bool) (addr : BitVec 32) : Option Byte × Acia :=
  if s.decodes addr then
    (s.ioPeek connected addr,
      match (addr &&& 3).toNat with
      | 0 => { s with m_status := s.m_status &&& ~~~(SR_ERRORS ||| SR_RDRF) }
      | 1 => s.setIrq false
      | _ => s)
  else (none, s)

def dtr (s : Acia) : Bool := s.m_cmd &&& CMD_DTR ≠ 0

def txOn (s : Acia) : Bool := s.m_cmd &&& CMD_TX_MASK ≠ 0

def transmit (s : Acia) (val : Byte) : Acia :=
  let s := { s with m_txData := val }
  if s.dtr then
    let s := { s with m_inTx := .DR_WRITTEN }
    let s := if s.m_txActive then s else { s with m_txActive := true, m_txCountdown := 1 }
    { s with m_status := s.m_status &&& ~~~SR_TDRE }
  else s

def programmedReset (s : Acia) : Acia :=
  { s with
    m_status := s.m_status &&& ~~~SR_OVERRUN
    m_cmd := s.m_cmd &&& 0xE0
    m_inTx := .NONE, m_txActive := false, m_rxActive := false }.setIrq false

def command (s : Acia) (val : Byte) : Acia :=
  let s := { s with m_cmd := val }.updateCharTime time
  if s.dtr && s.txOn then
    let s := if s.m_rxActive then s else { s with m_rxActive := true, m_rxCountdown := s.m_charCycles }
    if s.m_txActive then s else { s with m_txActive := true, m_txCountdown := s.m_charCycles }
  else
    let s := { s with m_rxActive := false }
    if !s.dtr || !s.txOn then { s with m_txActive := false } else s

def ioWrite (s : Acia) (addr : BitVec 32) (val : Byte) : Acia :=
  if s.decodes addr then
    match (addr &&& 3).toNat with
    | 0 => s.transmit val
    | 1 => s.programmedReset
    | 2 => s.command time val
    | _ => { s with m_ctrl := val }.updateCharTime time
  else s

/-! ## Time -/

/-- A byte on the line: on an idle line the receiver starts with it. -/
def pushRx (s : Acia) (b : Byte) : Acia :=
  let s := if s.m_rxQueue = [] then { s with m_rxCountdown := s.m_charCycles } else s
  { s with m_rxQueue := s.m_rxQueue ++ [b] }

def send (s : Acia) (b : Byte) : Acia :=
  let s := { s with sent := s.sent ++ [b] }
  match s.m_link with
  | .Loopback => s.pushRx b
  | _ => s

/-- A written byte goes into the shift register. -/
def shiftOut (s : Acia) : Acia :=
  if s.m_inTx = .DR_WRITTEN then
    let s := s.send (s.m_txData &&& s.m_dataMask)
    { s with m_status := s.m_status ||| SR_TDRE }
  else s

def txEvent (s : Acia) : Acia :=
  let s := s.shiftOut
  let irq := s.m_cmd &&& CMD_TX_MASK = CMD_TX_IRQ
  let s := if irq then s.setIrq true else s
  let s := { s with m_inTx := s.m_inTx.before }
  if s.m_inTx ≠ .NONE ∨ irq then { s with m_txCountdown := s.m_charCycles }
  else { s with m_txActive := false }

def rxEvent (s : Acia) : Acia :=
  let s := { s with m_rxCountdown := s.m_charCycles }
  match s.m_rxQueue with
  | [] => s
  | b :: rest =>
    let s := { s with m_rxQueue := rest }
    let s :=
      if s.m_status &&& SR_RDRF = 0 then { s with m_rxData := b &&& s.m_dataMask }
      else { s with m_status := s.m_status ||| SR_OVERRUN }
    let s := { s with m_status := s.m_status ||| SR_RDRF }
    if s.m_cmd &&& CMD_RX_IRQ_OFF = 0 then s.setIrq true else s

/-- A poll takes 64 bytes at most of those that the client has sent. -/
def pollTcp (s : Acia) (incoming : List Byte) : Acia :=
  if 256 < s.m_rxQueue.length then s else (incoming.take 64).foldl pushRx s

def tick (s : Acia) (cycles : BitVec 64) (incoming : List Byte) : Acia :=
  let s :=
    if s.m_link = .Tcp then
      if s.m_pollCountdown ≤ cycles then
        { s.pollTcp incoming with m_pollCountdown := s.m_clockHz.setWidth 64 / 1000 + 1 }
      else { s with m_pollCountdown := s.m_pollCountdown - cycles }
    else s
  let s :=
    if s.m_txActive then
      if s.m_txCountdown ≤ cycles then s.txEvent
      else { s with m_txCountdown := s.m_txCountdown - cycles }
    else s
  if s.m_rxActive then
    if s.m_rxCountdown ≤ cycles then s.rxEvent
    else { s with m_rxCountdown := s.m_rxCountdown - cycles }
  else s

end Acia
end Mmemu.Source.Acia6551
