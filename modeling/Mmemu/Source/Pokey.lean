import Mathlib.Data.BitVec
import Mathlib.Data.Int.Notation
import Mathlib.Logic.Function.Basic

/-!
# POKEY: timers, interrupts and the serial transmitter

Source: src/plugins/devices/pokey/main/pokey.cpp, without the audio samples, which nothing else
depends on. Where the chip calls out, to its interrupt line or to the serial output, what is called
may act on the chip before it returns, and its actions may make it call out again: a reply says
what is done. The line takes its level before anything acts on it.
-/
namespace Mmemu.Source.Pokey

abbrev Byte := BitVec 8

def AUDF1 : ℕ := 0x00
def AUDC1 : ℕ := 0x01
def AUDF2 : ℕ := 0x02
def AUDF3 : ℕ := 0x04
def AUDF4 : ℕ := 0x06
def AUDCTL : ℕ := 0x08
def STIMER : ℕ := 0x09
def SKRES : ℕ := 0x0A
def SEROUT : ℕ := 0x0D
def IRQEN : ℕ := 0x0E
def SKCTL : ℕ := 0x0F
def ALLPOT : ℕ := 0x08
def KBCODE : ℕ := 0x09
def RANDOM : ℕ := 0x0A
def SERIN : ℕ := 0x0D
def IRQST : ℕ := 0x0E
def SKSTAT : ℕ := 0x0F

def CTL_POLY9 : Byte := 0x80
def CTL_CLK1_17 : Byte := 0x40
def CTL_CLK3_17 : Byte := 0x20
def CTL_CH12_16 : Byte := 0x10
def CTL_CH34_16 : Byte := 0x08
def CTL_FILT13 : Byte := 0x04
def CTL_FILT24 : Byte := 0x02
def CTL_CLK_15 : Byte := 0x01

def IRQ_TIMER1 : Byte := 0x01
def IRQ_TIMER2 : Byte := 0x02
def IRQ_TIMER4 : Byte := 0x04
def IRQ_SERDONE : Byte := 0x08
def IRQ_SEROUT : Byte := 0x10
def IRQ_SERIN : Byte := 0x20
def IRQ_KEY : Byte := 0x40
def IRQ_BREAK : Byte := 0x80

structure Channel where
  counter : ℤ := 1
  output : Bool := false

structure POKEY where
  m_regs : ℕ → Byte
  m_ch : ℕ → Channel
  m_filterLatch : ℕ → Bool
  m_div28 : ℕ
  m_div114 : ℕ
  m_poly4 : BitVec 32
  m_poly5 : BitVec 32
  m_poly9 : BitVec 32
  m_poly17 : BitVec 32
  m_irqst : Byte
  m_irqen : Byte
  m_kbcode : Byte
  m_skstat : Byte
  m_serin : Byte
  m_txBusy : Bool
  m_txBits : ℕ
  m_txShift : Byte
  m_txBufFull : Bool
  m_txBuf : Byte
  m_txHalf : Bool
  m_txLoading : Bool

/-- What can be done to the chip from outside, but for its clock. -/
inductive Action where
  | ioWrite (addr : BitVec 32) (val : Byte)
  | keyDown (code : Byte)
  | keyUp
  | setShift (down : Bool)
  | breakKey
  | receiveSerial (byte : Byte)

/-- What is done to the chip before a call returns: nothing more, or an action, with the reply to the
call that it makes, and then the rest. -/
inductive Reply where
  | done
  | act (action : Action) (inside rest : Reply)

/-- The chip and what is connected to it: the level of the line, the bytes that the serial output was
given, and the replies of those that are called. The last three record what a run has done: the
bytes written to SEROUT, whether one was written while the buffer was full, and the underflows of
channel 4 since one was written. -/
structure Machine where
  pokey : POKEY
  line : Bool
  sent : List Byte
  replies : List Reply
  written : List Byte
  overrun : Bool
  since : ℕ

/-! ## Registers -/

namespace POKEY
variable (p : POKEY)

def ioRead (addr : BitVec 32) : Byte :=
  let r := (addr &&& 0x0F).toNat
  if r < 8 then 228
  else if r = ALLPOT then 0x00
  else if r = KBCODE then p.m_kbcode
  else if r = RANDOM then
    if p.m_regs SKCTL &&& 0x03 = 0 then 0xFF
    else if p.m_regs AUDCTL &&& CTL_POLY9 ≠ 0 then (p.m_poly9 &&& 0xFF).setWidth 8
    else (p.m_poly17 >>> 9 &&& 0xFF).setWidth 8
  else if r = SERIN then p.m_serin
  else if r = IRQST then
    if !p.m_txBusy && p.m_irqen &&& IRQ_SERDONE != 0 then p.m_irqst &&& ~~~IRQ_SERDONE
    else p.m_irqst ||| IRQ_SERDONE
  else if r = SKSTAT then p.m_skstat
  else 0xFF

def counter (ch : ℕ) (n : ℤ) : POKEY :=
  { p with m_ch := Function.update p.m_ch ch { p.m_ch ch with counter := n } }

def output (ch : ℕ) (on : Bool) : POKEY :=
  { p with m_ch := Function.update p.m_ch ch { p.m_ch ch with output := on } }

def reloadChannel (ch : ℕ) : POKEY :=
  let ctl := p.m_regs AUDCTL
  let reg (r : ℕ) : ℤ := (p.m_regs r).toNat
  match ch with
  | 0 => p.counter 0 (reg AUDF1 + if ctl &&& CTL_CLK1_17 ≠ 0 then 4 else 1)
  | 1 => p.counter 1 (if ctl &&& CTL_CH12_16 ≠ 0
      then reg AUDF1 + reg AUDF2 * 256 + (if ctl &&& CTL_CLK1_17 ≠ 0 then 7 else 1) else reg AUDF2 + 1)
  | 2 => p.counter 2 (reg AUDF3 + if ctl &&& CTL_CLK3_17 ≠ 0 then 4 else 1)
  | _ => p.counter 3 (if ctl &&& CTL_CH34_16 ≠ 0
      then reg AUDF3 + reg AUDF4 * 256 + (if ctl &&& CTL_CLK3_17 ≠ 0 then 7 else 1) else reg AUDF4 + 1)

def resetPolys : POKEY :=
  { p with m_poly4 := 0x0F, m_poly5 := 0x1F, m_poly9 := 0x1FF, m_poly17 := 0x1FFFF }

def clockPolys : POKEY :=
  let b4 := (p.m_poly4 >>> 3 ^^^ p.m_poly4 >>> 2) &&& 1
  let b5 := (p.m_poly5 >>> 4 ^^^ p.m_poly5 >>> 2) &&& 1
  let b9 := (p.m_poly9 >>> 8 ^^^ p.m_poly9 >>> 4) &&& 1
  let b17 := (p.m_poly17 >>> 16 ^^^ p.m_poly17 >>> 11) &&& 1
  { p with
    m_poly4 := (p.m_poly4 <<< 1 ||| b4) &&& 0x0F
    m_poly5 := (p.m_poly5 <<< 1 ||| b5) &&& 0x1F
    m_poly9 := (p.m_poly9 <<< 1 ||| b9) &&& 0x1FF
    m_poly17 := (p.m_poly17 <<< 1 ||| b17) &&& 0x1FFFF }

/-- The interrupts that are pending and enabled. -/
def pending : Byte :=
  let pending := ~~~p.m_irqst &&& p.m_irqen
  if !p.m_txBusy && p.m_irqen &&& IRQ_SERDONE != 0 then pending ||| IRQ_SERDONE else pending

end POKEY

/-! ## Interrupts -/

namespace Machine

/-- The line is set to its level, and who watches it replies. -/
def updateIrqs (reply : Machine → Machine) (m : Machine) : Machine :=
  reply { m with line := m.pokey.pending != 0 }

def raiseIrq (reply : Machine → Machine) (bit : Byte) (m : Machine) : Machine :=
  if m.pokey.m_irqen &&& bit ≠ 0 then
    updateIrqs reply { m with pokey := { m.pokey with m_irqst := m.pokey.m_irqst &&& ~~~bit } }
  else m

/-- What a write to SEROUT does before the line is set. An idle transmitter takes the byte at the
next boundary of a bit. -/
def writeSerout (val : Byte) (m : Machine) : Machine :=
  let p := m.pokey
  { m with
    pokey := if !p.m_txBusy then
        { p with m_txBusy := true, m_txLoading := true, m_txBuf := val, m_txBufFull := true, m_txHalf := false }
      else { p with m_txBuf := val, m_txBufFull := true }
    written := m.written ++ [val]
    overrun := m.overrun || p.m_txBufFull
    since := 0 }

def ioWrite (reply : Machine → Machine) (addr : BitVec 32) (val : Byte) (m : Machine) : Machine :=
  let r := (addr &&& 0x0F).toNat
  let p := { m.pokey with m_regs := Function.update m.pokey.m_regs r val }
  if r = STIMER then
    { m with pokey := (List.range 4).foldl (fun p ch => (p.reloadChannel ch).output ch false) p }
  else if r = SKRES then { m with pokey := { p with m_skstat := p.m_skstat ||| 0xE0 } }
  else if r = SEROUT then updateIrqs reply (writeSerout val { m with pokey := p })
  else if r = IRQEN then
    updateIrqs reply { m with pokey := { p with m_irqen := val, m_irqst := p.m_irqst ||| ~~~val } }
  else if r = SKCTL then { m with pokey := if val &&& 0x03 = 0 then p.resetPolys else p }
  else { m with pokey := p }

/-! ## Keyboard and serial port -/

def keyDown (reply : Machine → Machine) (code : Byte) (m : Machine) : Machine :=
  if m.pokey.m_regs SKCTL &&& 0x02 = 0 then m
  else raiseIrq reply IRQ_KEY
    { m with pokey := { m.pokey with m_kbcode := code, m_skstat := m.pokey.m_skstat &&& ~~~0x04 } }

def keyUp (m : Machine) : Machine :=
  { m with pokey := { m.pokey with m_skstat := m.pokey.m_skstat ||| 0x04 } }

def setShift (down : Bool) (m : Machine) : Machine :=
  { m with pokey := { m.pokey with
      m_skstat := if down then m.pokey.m_skstat &&& ~~~0x08 else m.pokey.m_skstat ||| 0x08 } }

def breakKey (reply : Machine → Machine) (m : Machine) : Machine := raiseIrq reply IRQ_BREAK m

def receiveSerial (reply : Machine → Machine) (byte : Byte) (m : Machine) : Machine :=
  raiseIrq reply IRQ_SERIN { m with pokey := { m.pokey with m_serin := byte } }

/-- An action, with the reply to the call that it makes. -/
def perform (reply : Machine → Machine) : Action → Machine → Machine
  | .ioWrite addr val => ioWrite reply addr val
  | .keyDown code => keyDown reply code
  | .keyUp => keyUp
  | .setShift down => setShift down
  | .breakKey => breakKey reply
  | .receiveSerial byte => receiveSerial reply byte

/-- The actions of a reply, one after another. -/
def answer : Reply → Machine → Machine
  | .done, m => m
  | .act action inside rest, m => answer rest (perform (answer inside) action m)

/-- The reply to a call that the chip makes on its own is the next one; none is left for a call that
nobody acts on. -/
def called (m : Machine) : Machine :=
  match m.replies with
  | [] => m
  | reply :: rest => answer reply { m with replies := rest }

/-! ## The transmitter -/

/-- The next byte is in the shift register. -/
def loadShift (m : Machine) : Machine :=
  raiseIrq called IRQ_SEROUT
    { m with pokey := { m.pokey with m_txShift := m.pokey.m_txBuf, m_txBufFull := false, m_txBits := 10 } }

/-- The byte has been shifted out. -/
def byteSent (m : Machine) : Machine :=
  let m := called { m with sent := m.sent ++ [m.pokey.m_txShift] }
  let m := if m.pokey.m_txBufFull then loadShift m else { m with pokey := { m.pokey with m_txBusy := false } }
  updateIrqs called m

def serialBit (m : Machine) : Machine :=
  let m := { m with since := m.since + 1 }
  if !m.pokey.m_txBusy then m
  else
    let m := { m with pokey := { m.pokey with m_txHalf := !m.pokey.m_txHalf } }
    if m.pokey.m_txHalf then m
    else if m.pokey.m_txLoading then loadShift { m with pokey := { m.pokey with m_txLoading := false } }
    else
      let m := { m with pokey := { m.pokey with m_txBits := m.pokey.m_txBits - 1 } }
      if m.pokey.m_txBits > 0 then m else byteSent m

/-! ## Timers -/

/-- The distortion of a channel, and the latches of the high-pass filters. -/
def distort (ch : ℕ) (p : POKEY) : POKEY :=
  let audc := p.m_regs (AUDC1 + ch * 2)
  let p := if audc &&& 0x80 ≠ 0 ∨ p.m_poly5 &&& 1 ≠ 0 then
      p.output ch (if audc &&& 0x20 ≠ 0 then !(p.m_ch ch).output
        else if audc &&& 0x40 ≠ 0 then p.m_poly4 &&& 1 != 0
        else (if p.m_regs AUDCTL &&& CTL_POLY9 ≠ 0 then p.m_poly9 else p.m_poly17) &&& 1 != 0)
    else p
  if ch = 2 ∧ p.m_regs AUDCTL &&& CTL_FILT13 ≠ 0 then
    { p with m_filterLatch := Function.update p.m_filterLatch 0 (p.m_ch 0).output }
  else if ch = 3 ∧ p.m_regs AUDCTL &&& CTL_FILT24 ≠ 0 then
    { p with m_filterLatch := Function.update p.m_filterLatch 1 (p.m_ch 1).output }
  else p

def underflow (ch : ℕ) (m : Machine) : Machine :=
  let m := if ch = 0 then raiseIrq called IRQ_TIMER1 m
    else if ch = 1 then raiseIrq called IRQ_TIMER2 m
    else if ch = 3 then raiseIrq called IRQ_TIMER4 m
    else m
  let m := { m with pokey := distort ch m.pokey }
  if ch = 3 then serialBit m else m

/-- A clock of a channel's counter, which starts again where it ends. -/
def clockChannel (clock : Bool) (ch : ℕ) (m : Machine) : Machine :=
  if clock then
    let m := { m with pokey := m.pokey.counter ch ((m.pokey.m_ch ch).counter - 1) }
    if (m.pokey.m_ch ch).counter ≤ 0 then underflow ch { m with pokey := m.pokey.reloadChannel ch } else m
  else m

/-- A cycle of a tick that began with these settings. -/
def cycle (ctl : Byte) (running : Bool) (m : Machine) : Machine :=
  let p := if running then m.pokey.clockPolys else m.pokey
  let tick64 := p.m_div28 + 1 ≥ 28
  let tick15 := p.m_div114 + 1 ≥ 114
  let p := { p with
    m_div28 := if tick64 then 0 else p.m_div28 + 1
    m_div114 := if tick15 then 0 else p.m_div114 + 1 }
  let base : Bool := if ctl &&& CTL_CLK_15 ≠ 0 then tick15 else tick64
  let clk1 := ctl &&& CTL_CLK1_17 != 0 || base
  let m := { m with pokey := p }
  let m := if ctl &&& CTL_CH12_16 ≠ 0 then clockChannel clk1 1 m else clockChannel base 1 (clockChannel clk1 0 m)
  let clk3 := ctl &&& CTL_CLK3_17 != 0 || base
  if ctl &&& CTL_CH34_16 ≠ 0 then clockChannel clk3 3 m else clockChannel base 3 (clockChannel clk3 2 m)

def cycles (ctl : Byte) (running : Bool) : ℕ → Machine → Machine
  | 0, m => m
  | n + 1, m => cycles ctl running n (cycle ctl running m)

def tick (n : ℕ) (m : Machine) : Machine :=
  cycles (m.pokey.m_regs AUDCTL) (m.pokey.m_regs SKCTL &&& 0x03 != 0) n m

end Machine

/-- The chip as `reset` leaves it; what is not reset is 0 from the start. -/
def POKEY.initial : POKEY where
  m_regs _ := 0
  m_ch _ := {}
  m_filterLatch _ := false
  m_div28 := 0
  m_div114 := 0
  m_poly4 := 0x0F
  m_poly5 := 0x1F
  m_poly9 := 0x1FF
  m_poly17 := 0x1FFFF
  m_irqst := 0xFF
  m_irqen := 0
  m_kbcode := 0xFF
  m_skstat := 0xFF
  m_serin := 0xFF
  m_txBusy := false
  m_txBits := 0
  m_txShift := 0
  m_txBufFull := false
  m_txBuf := 0
  m_txHalf := false
  m_txLoading := false

def Machine.initial : Machine := ⟨POKEY.initial, false, [], [], [], false, 0⟩

end Mmemu.Source.Pokey
