import Mathlib.Data.BitVec
import Mathlib.Logic.Function.Basic

/-!
# X16 I2C bus

Source: src/plugins/machines/x16/main/x16_i2c.cpp and x16_i2c.h: the bus state machine, the
SMC with the mouse, and the real-time clock. What the SMC asks of the
machine is collected; `state` is none where `m_state` is -1.
-/
namespace Mmemu.Source.X16I2c

abbrev Byte := BitVec 8

def DEVICE_SMC : Byte := 0x42
def DEVICE_RTC : Byte := 0x6F
def SMC_VERSION_MAJOR : Byte := 47
def SMC_VERSION_MINOR : Byte := 0
def SMC_VERSION_PATCH : Byte := 0
def MSE_SIZE : ℕ := 16
def KBD_SIZE : ℕ := 16

/-! ## SMC -/

inductive Request where
  | powerOff | reset | nmi
  deriving DecidableEq, Repr

structure Smc where
  mse : ℕ → Byte
  mseHead : ℕ
  mseTail : ℕ
  mseCount : ℕ
  mouseId : Byte
  kbd : ℕ → Byte
  kbdHead : ℕ
  kbdTail : ℕ
  buffer : ℕ → Byte
  pos : ℕ
  defaultReadOp : Byte
  defaultReadState : Byte
  activityLed : Byte
  requests : List Request

namespace Smc

/-- Freshly constructed and reset. -/
def new : Smc where
  mse _ := 0
  mseHead := 0
  mseTail := 0
  mseCount := 0
  mouseId := 3
  kbd _ := 0
  kbdHead := 0
  kbdTail := 0
  buffer := Function.update (fun _ => 0) 0 0x41
  pos := 0
  defaultReadOp := 0x41
  defaultReadState := 0
  activityLed := 0
  requests := []

/-- A byte written after the register number. -/
def data (s : Smc) (v : Byte) : Smc :=
  if s.pos < 16 then { s with buffer := Function.update s.buffer s.pos v, pos := s.pos + 1 } else s

def kbdNext (s : Smc) : Byte × Smc :=
  if s.kbdHead = s.kbdTail then (0, s)
  else (s.kbd s.kbdTail, { s with kbdTail := (s.kbdTail + 1) % KBD_SIZE })

/-- A byte for a full buffer is dropped. -/
def keyAdd (s : Smc) (code : Byte) : Smc :=
  let next := (s.kbdHead + 1) % KBD_SIZE
  if next = s.kbdTail then s
  else { s with kbd := Function.update s.kbd s.kbdHead code, kbdHead := next }

def mseAdd (s : Smc) (v : Byte) : Smc :=
  let next := (s.mseHead + 1) % MSE_SIZE
  if next = s.mseTail then s
  else { s with mse := Function.update s.mse s.mseHead v, mseHead := next }

def mseNext (s : Smc) : Byte × Smc :=
  if s.mseHead = s.mseTail then (0, s)
  else (s.mse s.mseTail, { s with mseTail := (s.mseTail + 1) % MSE_SIZE })

/-- `mseCount()`: the bytes queued. -/
def mseQueued (s : Smc) : ℕ := (MSE_SIZE + s.mseHead - s.mseTail) % MSE_SIZE

def mousePacketSize (s : Smc) : ℕ := if s.mouseId = 3 ∨ s.mouseId = 4 then 4 else 3

def setMouseId (s : Smc) (id : Byte) : Smc :=
  { s with
    mouseId := if id = 0 ∨ id = 3 then id else if id = 4 then 3 else 0
    mseHead := 0, mseTail := 0 }

/-- One packet byte per read; a single 0 when no whole packet is queued. -/
def readMouse (s : Smc) : Byte × Smc :=
  let size := s.mousePacketSize
  if s.mseCount = 0 ∧ size ≤ s.mseQueued then { s with mseCount := s.mseCount + 1 }.mseNext
  else if 0 < s.mseCount then
    let s := { s with mseCount := (s.mseCount + 1) % 256 }
    let s := if s.mseCount = size then { s with mseCount := 0, defaultReadState := 0 } else s
    s.mseNext
  else (0, { s with defaultReadState := 0 })

/-- A read transaction. -/
def read (s : Smc) : Byte × Smc :=
  let (ret, s) : Byte × Smc :=
    match (s.buffer 0).toNat with
    | 0x43 => if s.defaultReadState = 0 then { s with defaultReadState := 1 }.kbdNext else s.readMouse
    | 0x42 | 0x21 => s.readMouse
    | 0x41 => { s with defaultReadState := 0 }.kbdNext
    | 0x07 => s.kbdNext
    | 0x09 => (0, s)
    | 0x22 => (s.mouseId, s)
    | 0x30 => (SMC_VERSION_MAJOR, s)
    | 0x31 => (SMC_VERSION_MINOR, s)
    | 0x32 => (SMC_VERSION_PATCH, s)
    | _ => (0xFF, s)
  (ret, { s with buffer := Function.update s.buffer 0 s.defaultReadOp, pos := 0 })

def request (s : Smc) (r : Request) : Smc := { s with requests := s.requests ++ [r] }

/-- A write transaction ends. -/
def write (s : Smc) : Smc :=
  let v := s.buffer 1
  let s :=
    match (s.buffer 0).toNat with
    | 0x01 => if v = 0 then s.request .powerOff else if v = 1 then s.request .reset else s
    | 0x02 => if v = 0 then s.request .reset else s
    | 0x03 => if v = 0 then s.request .nmi else s
    | 0x05 => { s with activityLed := if 128 ≤ v then 255 else 0 }
    | 0x20 => s.setMouseId v
    | 0x40 => { s with defaultReadOp := v, defaultReadState := 0 }
    | _ => s
  { s with buffer := Function.update s.buffer 0 s.defaultReadOp, pos := 0 }

end Smc

/-- A flag at a bit of a byte. -/
def bitAt (on : Bool) (n : ℕ) : Byte := if on then 1 <<< n else 0

/-! ## Mouse -/

/-- The SMC with what the host has reported and not sent yet. -/
structure Mouse extends Smc where
  mouseDx : ℤ
  mouseDy : ℤ
  mouseButtons : Byte
  wheel : Byte

namespace Mouse

def new : Mouse where
  toSmc := .new
  mouseDx := 0
  mouseDy := 0
  mouseButtons := 0
  wheel := 0

/-- Down is positive for the host and negative for the mouse. -/
def mouseMove (m : Mouse) (dx dy : ℤ) : Mouse :=
  { m with mouseDx := m.mouseDx + dx, mouseDy := m.mouseDy - dy }

def pressButtons (m : Mouse) (buttons : Byte) : Mouse := { m with mouseButtons := buttons &&& 7 }

def mouseWheel (m : Mouse) (y : ℤ) : Mouse :=
  if m.mouseId ≠ 3 ∧ m.mouseId ≠ 4 then m
  else { m with wheel := BitVec.ofInt 8 (if y < -7 then 7 else if 8 < y then -8 else -y) }

/-- Bit 9 of an int. -/
def sign (x : ℤ) : Bool := (x >>> (9 : ℕ)) % 2 = 1

/-- A PS/2 packet: byte 0 is the Y sign (bit 5), the X sign (bit 4), 1 (bit 3) and the buttons. A
packet that does not fit is dropped. -/
def mouseSend (m : Mouse) (x y : ℤ) (b w : Byte) : Mouse :=
  let size := m.mousePacketSize
  if MSE_SIZE - size ≤ m.mseQueued then m
  else
    let s := m.mseAdd (bitAt (sign y) 5 ||| bitAt (sign x) 4 ||| bitAt true 3 ||| b)
    let s := s.mseAdd (BitVec.ofInt 8 x)
    let s := s.mseAdd (BitVec.ofInt 8 y)
    { m with toSmc := if size = 4 then s.mseAdd w else s }

/-- `std::clamp(d, -256, 255)` -/
def clamp (d : ℤ) : ℤ := max (-256) (min d 255)

/-- One round of the loop of `sendMouseState`. -/
def sendOne (m : Mouse) : Mouse :=
  let dx := clamp m.mouseDx
  let dy := clamp m.mouseDy
  let m := m.mouseSend dx dy m.mouseButtons m.wheel
  { m with mouseDx := m.mouseDx - dx, mouseDy := m.mouseDy - dy, wheel := 0 }

def sendRounds : ℕ → Mouse → Mouse
  | 0, m => m
  | rounds + 1, m =>
    let m := m.sendOne
    if m.mouseDx ≠ 0 ∧ m.mouseDy ≠ 0 then m.sendRounds rounds else m

/-- Each round leaves less of the movement, so the loop ends before the rounds do. -/
def sendMouseState (m : Mouse) : Mouse := m.sendRounds (m.mouseDx.natAbs + 1)

end Mouse

/-! ## RTC -/

/-- MCP7940N: time registers 0-6 and 64 bytes of NVRAM at $20-$5F. -/
structure Rtc where
  running : Bool
  vbaten : Bool
  h24 : Bool
  clocks : BitVec 64
  sec : ℕ
  min : ℕ
  hour : ℕ
  dow : ℕ
  day : ℕ
  month : ℕ
  year : ℕ
  nvram : ℕ → Byte
  buffer : ℕ → Byte
  pos : ℕ

def bcd (v : ℕ) : Byte := BitVec.ofNat 8 (v / 10 * 16 + v % 10)
def unbcd (v : Byte) : ℕ := v.toNat / 16 * 10 + v.toNat % 16

namespace Rtc

/-- Constructed, with the clock stopped. -/
def new : Rtc where
  running := false
  vbaten := true
  h24 := true
  clocks := 0
  sec := 0
  min := 0
  hour := 0
  dow := 1
  day := 1
  month := 1
  year := 0
  nvram _ := 0
  buffer _ := 0
  pos := 0

def leap (r : Rtc) : Bool := r.year % 4 = 0

def data (r : Rtc) (v : Byte) : Rtc :=
  if r.pos < 16 then { r with buffer := Function.update r.buffer r.pos v, pos := r.pos + 1 } else r

/-- The hours register, of 12 or 24 hours. -/
def hourRegister (r : Rtc) : Byte :=
  if r.h24 then bcd r.hour
  else
    let pm := decide (12 ≤ r.hour)
    let h := if pm then r.hour - 12 else r.hour
    bcd (if h = 0 then 12 else h) ||| bitAt pm 5 ||| bitAt true 6

/-- What register `reg` reads as. -/
def register (r : Rtc) (reg : Byte) : Byte :=
  match reg.toNat with
  | 0 => bcd r.sec ||| bitAt r.running 7
  | 1 => bcd r.min
  | 2 => r.hourRegister
  | 3 => BitVec.ofNat 8 r.dow ||| bitAt r.vbaten 3 ||| bitAt r.running 5
  | 4 => bcd r.day
  | 5 => bcd r.month ||| bitAt r.leap 5
  | 6 => bcd r.year
  | _ => if 0x20 ≤ reg ∧ reg < 0x60 then r.nvram (reg.toNat - 0x20) else if 0x60 ≤ reg then 0xFF else 0

def read (r : Rtc) : Byte × Rtc := (r.register (r.buffer 0), { r with pos := 0 })

/-- The hour that is written: 12-hour times are kept as 24-hour ones. -/
def setHour (r : Rtc) (v : Byte) : Rtc :=
  let h24 := !v.getLsbD 6
  let pm := !h24 && v.getLsbD 5
  let hh := unbcd (if h24 then v &&& 0x3F else v &&& 0x1F)
  let hh := if !h24 && decide (hh = 12) then 0 else hh
  { r with h24 := h24, hour := if pm then hh + 12 else hh }

/-- Store a value in register `reg`. -/
def setRegister (r : Rtc) (reg v : Byte) : Rtc :=
  match reg.toNat with
  | 0 => { r with running := v.getLsbD 7, sec := unbcd (v &&& 0x7F) }
  | 1 => { r with min := unbcd v }
  | 2 => r.setHour v
  | 3 => { r with dow := (v &&& 7).toNat, vbaten := v.getLsbD 5 }
  | 4 => { r with day := unbcd v }
  | 5 => { r with month := unbcd v }
  | 6 => { r with year := unbcd v }
  | _ =>
    if 0x20 ≤ reg ∧ reg < 0x60 then { r with nvram := Function.update r.nvram (reg.toNat - 0x20) v }
    else r

def write (r : Rtc) : Rtc := { r.setRegister (r.buffer 0) (r.buffer 1) with pos := 0 }

def dpm : List ℕ := [31, 28, 31, 30, 31, 30, 31, 31, 30, 31, 30, 31]

/-- `dpm[m_month - 1]`; none outside of the table. -/
def monthLength (month : ℕ) : Option ℕ := if month = 0 then none else dpm[month - 1]?

/-- A step that does not return, or reads outside of the days table. -/
inductive Fault where
  | endless | table
  deriving DecidableEq, Repr

/-- A second passes. -/
def second (r : Rtc) : Except Fault Rtc :=
  if r.sec + 1 < 60 then .ok { r with sec := r.sec + 1 }
  else if r.min + 1 < 60 then .ok { r with sec := 0, min := r.min + 1 }
  else if r.hour + 1 < 24 then .ok { r with sec := 0, min := 0, hour := r.hour + 1 }
  else
    let r := { r with sec := 0, min := 0, hour := 0, dow := if 7 < r.dow + 1 then 1 else r.dow + 1 }
    match monthLength r.month with
    | none => .error .table
    | some n =>
      let days := n + if r.month = 2 ∧ r.leap = true then 1 else 0
      if r.day + 1 ≤ days then .ok { r with day := r.day + 1 }
      else if r.month + 1 ≤ 12 then .ok { r with day := 1, month := r.month + 1 }
      else .ok { r with day := 1, month := 1, year := if r.year + 1 = 100 then 0 else r.year + 1 }

/-- The loop of `step`, for so many rounds at most. -/
def seconds (cpuHz : BitVec 64) : ℕ → Rtc → Except Fault Rtc
  | 0, _ => .error .endless
  | rounds + 1, r =>
    if cpuHz ≤ r.clocks then
      match { r with clocks := r.clocks - cpuHz }.second with
      | .ok r => r.seconds cpuHz rounds
      | .error fault => .error fault
    else .ok r

/-- Cycles pass. Each round takes some of them, unless `cpuHz` is 0. -/
def step (r : Rtc) (cpuCycles cpuHz : BitVec 64) : Except Fault Rtc :=
  if r.running then
    let r := { r with clocks := r.clocks + cpuCycles }
    r.seconds cpuHz (r.clocks.toNat + 1)
  else .ok r

end Rtc

/-! ## I2C bus -/

structure I2cBus where
  smc : Smc
  rtc : Rtc
  clkIn : Bool
  dataIn : Bool
  dataOut : Bool
  oldClk : Bool
  oldData : Bool
  state : Option ℕ
  readMode : Bool
  value : Byte
  count : ℕ
  device : Byte

namespace I2cBus

/-- Both lines released. -/
def new (smc : Smc) (rtc : Rtc) : I2cBus where
  smc := smc
  rtc := rtc
  clkIn := true
  dataIn := true
  dataOut := true
  oldClk := true
  oldData := true
  state := none
  readMode := false
  value := 0
  count := 0
  device := 0

/-- The byte a device answers with. -/
def fetch (b : I2cBus) : I2cBus :=
  if b.device = DEVICE_SMC then
    let (v, smc) := b.smc.read
    { b with value := v, smc := smc }
  else if b.device = DEVICE_RTC then
    let (v, rtc) := b.rtc.read
    { b with value := v, rtc := rtc }
  else { b with value := 0xFF }

/-- A data bit, in or out. -/
def bit (b : I2cBus) (n : ℕ) : I2cBus :=
  let b :=
    if b.readMode then
      let b := if n = 0 then b.fetch else b
      { b with dataOut := b.value.msb, value := b.value <<< 1 }
    else { b with value := b.value <<< 1 ||| if b.dataIn then 1 else 0 }
  { b with state := some (n + 1) }

/-- The first byte is the address, later ones go to the device. -/
def byte (b : I2cBus) : Bool × I2cBus :=
  if b.count = 0 then
    let device := b.value >>> 1
    (decide (device = DEVICE_SMC ∨ device = DEVICE_RTC),
      { b with device := device, readMode := b.value.getLsbD 0 })
  else if b.device = DEVICE_SMC then
    let smc := b.smc.data b.value
    (true, { b with smc := if 1 < b.count then smc.write else smc })
  else if b.device = DEVICE_RTC then
    let rtc := b.rtc.data b.value
    (true, { b with rtc := if 1 < b.count then rtc.write else rtc })
  else (true, b)

/-- The acknowledge bit. -/
def ack (b : I2cBus) : I2cBus :=
  let b :=
    if b.readMode then if b.dataIn then { b with count := 0, readMode := false } else b
    else
      let (acked, b) := b.byte
      if acked then { b with dataOut := false, count := b.count + 1 }
      else { b with count := 0, readMode := false }
  { b with state := some 0 }

/-- A rising clock edge between START and STOP. -/
def rise (b : I2cBus) : I2cBus :=
  match b.state with
  | none => b
  | some n =>
    let b := { b with dataOut := true }
    if n < 8 then b.bit n else b.ack

def step (b : I2cBus) : I2cBus :=
  if b.oldClk = b.clkIn ∧ b.oldData = b.dataIn then b
  else
    let b := if b.state = none ∧ b.clkIn = false ∧ b.dataIn = false then { b with state := some 0 } else b
    let b :=
      if b.state = some 1 ∧ b.clkIn = true ∧ b.dataIn = true ∧ b.oldData = false then
        { b with state := none, count := 0, readMode := false }
      else b
    let b := if b.clkIn = true ∧ b.oldClk = false then b.rise else b
    { b with oldClk := b.clkIn, oldData := b.dataIn }

/-- The lines as the master leaves them; released is true. -/
def setMaster (b : I2cBus) (clk data : Bool) : I2cBus :=
  { b with clkIn := clk, dataIn := data }.step

/-- The data line as the slave drives it. -/
def slaveData (b : I2cBus) : Bool := b.dataOut

end I2cBus

end Mmemu.Source.X16I2c
