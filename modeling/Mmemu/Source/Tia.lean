import Mmemu.Source.TiaObjects

/-!
# TIA: registers and clock

Source: src/plugins/devices/tia/main/tia.cpp and tia.h. The picture, the sound and the shadow
registers are left out, and of the frame manager all but VBLANK: nothing that a program can read
depends on them. What is set from outside stays apart from what the chip does.
-/
namespace Mmemu.Source.TiaCore

def VBLANK : ℕ := 0x01
def WSYNC : ℕ := 0x02
def RSYNC : ℕ := 0x03
def NUSIZ0 : ℕ := 0x04
def NUSIZ1 : ℕ := 0x05
def CTRLPF : ℕ := 0x0A
def REFP0 : ℕ := 0x0B
def REFP1 : ℕ := 0x0C
def PF0 : ℕ := 0x0D
def PF1 : ℕ := 0x0E
def PF2 : ℕ := 0x0F
def RESP0 : ℕ := 0x10
def RESP1 : ℕ := 0x11
def RESM0 : ℕ := 0x12
def RESM1 : ℕ := 0x13
def RESBL : ℕ := 0x14
def GRP0 : ℕ := 0x1B
def GRP1 : ℕ := 0x1C
def ENAM0 : ℕ := 0x1D
def ENAM1 : ℕ := 0x1E
def ENABL : ℕ := 0x1F
def HMP0 : ℕ := 0x20
def HMP1 : ℕ := 0x21
def HMM0 : ℕ := 0x22
def HMM1 : ℕ := 0x23
def HMBL : ℕ := 0x24
def VDELP0 : ℕ := 0x25
def VDELP1 : ℕ := 0x26
def VDELBL : ℕ := 0x27
def RESMP0 : ℕ := 0x28
def RESMP1 : ℕ := 0x29
def HMOVE : ℕ := 0x2A
def HMCLR : ℕ := 0x2B
def CXCLR : ℕ := 0x2C
def SHUFFLE_P0 : ℕ := 0xF0
def SHUFFLE_P1 : ℕ := 0xF1
def SHUFFLE_BL : ℕ := 0xF2

inductive Standard where
  | NTSC | PAL | SECAM
  deriving DecidableEq, Repr

/-- What is set from outside: the standard, the fire buttons and the paddles. -/
structure Pins where
  m_std : Standard
  m_buttons : Bool × Bool := (false, false)
  m_analogConnections : ℕ → Connection := fun _ => {}

/-- What the chip itself changes. `lines` records the lines that have begun. -/
structure Chip where
  m_delayQueue : DelayQueue
  m_playfield : Playfield
  m_missile0 : Missile
  m_missile1 : Missile
  m_player0 : Player
  m_player1 : Player
  m_ball : Ball
  m_vblank : Bool
  m_analogReadouts : ℕ → AnalogReadout
  m_input0 : LatchedInput
  m_input1 : LatchedInput
  m_hblank : Bool
  m_hctr : ℕ
  m_hctrDelta : ℤ
  m_collisionMask : Mask
  m_movementClock : ℕ
  m_movementInProgress : Bool
  m_extendedHblank : Bool
  m_timestamp : ℕ
  m_halt : Bool
  lines : ℕ

structure Tia where
  pins : Pins
  chip : Chip

namespace Chip

/-- The power-on state: every variable is set. -/
def reset (pins : Pins) : Chip where
  m_delayQueue := .reset
  m_playfield := .reset
  m_missile0 := .reset cmask.MISSILE0
  m_missile1 := .reset cmask.MISSILE1
  m_player0 := .reset cmask.PLAYER0
  m_player1 := .reset cmask.PLAYER1
  m_ball := .reset cmask.BALL
  m_vblank := false
  m_analogReadouts i := (AnalogReadout.reset 0 (pins.m_std ≠ .NTSC)).update 0 (pins.m_analogConnections i)
  m_input0 := .reset
  m_input1 := .reset
  m_hblank := true
  m_hctr := 0
  m_hctrDelta := 0
  m_collisionMask := 0
  m_movementClock := 0
  m_movementInProgress := false
  m_extendedHblank := false
  m_timestamp := 0
  m_halt := false
  lines := 0

variable (t : Chip)

/-! ## Reads -/

/-- The bits of two pairs of objects that have collided. -/
def pairBits (a b a' b' : Mask) : Byte :=
  (if t.m_collisionMask &&& a &&& b ≠ 0 then 0x40 else 0) |||
    if t.m_collisionMask &&& a' &&& b' ≠ 0 then 0x80 else 0

def collisionBits (reg : ℕ) : Byte :=
  open cmask in
  match reg with
  | 0x00 => t.pairBits MISSILE0 PLAYER0 MISSILE0 PLAYER1
  | 0x01 => t.pairBits MISSILE1 PLAYER1 MISSILE1 PLAYER0
  | 0x02 => t.pairBits PLAYER0 BALL PLAYER0 PLAYFIELD
  | 0x03 => t.pairBits PLAYER1 BALL PLAYER1 PLAYFIELD
  | 0x04 => t.pairBits MISSILE0 BALL MISSILE0 PLAYFIELD
  | 0x05 => t.pairBits MISSILE1 BALL MISSILE1 PLAYFIELD
  | 0x06 => if t.m_collisionMask &&& BALL &&& PLAYFIELD ≠ 0 then 0x80 else 0
  | 0x07 => t.pairBits MISSILE0 MISSILE1 PLAYER0 PLAYER1
  | _ => 0

/-- A register read with its side effects. -/
def readRegister (pins : Pins) (reg : ℕ) : Byte × Chip :=
  if reg ≤ 0x07 then (t.collisionBits reg, t)
  else if reg ≤ 0x0B then
    let (v, a) := (t.m_analogReadouts (reg - 0x08)).inpt t.m_timestamp
    (v &&& 0x80, { t with m_analogReadouts := Function.update t.m_analogReadouts (reg - 0x08) a })
  else if reg = 0x0C then
    let (v, i) := t.m_input0.inpt pins.m_buttons.1
    (v &&& 0x80, { t with m_input0 := i })
  else if reg = 0x0D then
    let (v, i) := t.m_input1.inpt pins.m_buttons.2
    (v &&& 0x80, { t with m_input1 := i })
  else (0, t)

def peekRegister (pins : Pins) (reg : ℕ) : Byte :=
  if reg ≤ 0x07 then t.collisionBits reg
  else if reg ≤ 0x0B then (t.m_analogReadouts (reg - 0x08)).peek t.m_timestamp &&& 0x80
  else if reg = 0x0C then t.m_input0.peek pins.m_buttons.1 &&& 0x80
  else if reg = 0x0D then t.m_input1.peek pins.m_buttons.2 &&& 0x80
  else 0

/-! ## Writes -/

def push (address : ℕ) (value : Byte) (delay : ℕ) : Chip :=
  { t with m_delayQueue := t.m_delayQueue.push address value delay }

def resxCounter : ℕ := if t.m_hblank then if t.m_hctr ≥ 73 then 158 else 159 else 157

/-- The line starts again 3 clocks before its end. -/
def applyRsync : Chip :=
  { t with m_hctrDelta := H_CLOCKS - 3 - t.m_hctr, m_hctr := H_CLOCKS - 3 }

def write (address : ℕ) (value : Byte) : Chip :=
  if address = WSYNC then { t with m_halt := true }
  else if address = RSYNC then t.applyRsync
  else if address = VBLANK then
    { t with
      m_input0 := t.m_input0.vblank value
      m_input1 := t.m_input1.vblank value
      m_analogReadouts := fun i => (t.m_analogReadouts i).vblank t.m_timestamp value }.push VBLANK value 1
  else if address = HMOVE then t.push HMOVE value 6
  else if address = CTRLPF then
    { t with m_playfield := t.m_playfield.ctrlpf value, m_ball := t.m_ball.ctrlpf value }
  else if address = PF0 ∨ address = PF1 ∨ address = PF2 then t.push address value 2
  else if address = ENAM0 ∨ address = ENAM1 ∨ address = ENABL then t.push address value 1
  else if address = RESM0 then { t with m_missile0 := t.m_missile0.resm t.resxCounter t.m_hblank }
  else if address = RESM1 then { t with m_missile1 := t.m_missile1.resm t.resxCounter t.m_hblank }
  else if address = RESMP0 then { t with m_missile0 := t.m_missile0.resmp cmask.MISSILE0 value }
  else if address = RESMP1 then { t with m_missile1 := t.m_missile1.resmp cmask.MISSILE1 value }
  else if address = NUSIZ0 then
    { t with m_missile0 := t.m_missile0.nusiz value, m_player0 := t.m_player0.nusiz value t.m_hblank }
  else if address = NUSIZ1 then
    { t with m_missile1 := t.m_missile1.nusiz value, m_player1 := t.m_player1.nusiz value t.m_hblank }
  else if address = HMM0 ∨ address = HMM1 ∨ address = HMP0 ∨ address = HMP1 ∨ address = HMBL ∨
      address = HMCLR then
    t.push address value 2
  else if address = GRP0 then (t.push GRP0 value 1).push SHUFFLE_P1 0 1
  else if address = GRP1 then ((t.push GRP1 value 1).push SHUFFLE_P0 0 1).push SHUFFLE_BL 0 1
  else if address = RESP0 then { t with m_player0 := t.m_player0.resp t.resxCounter }
  else if address = RESP1 then { t with m_player1 := t.m_player1.resp t.resxCounter }
  else if address = REFP0 ∨ address = REFP1 then t.push address value 1
  else if address = VDELP0 then { t with m_player0 := t.m_player0.vdelp cmask.PLAYER0 value }
  else if address = VDELP1 then { t with m_player1 := t.m_player1.vdelp cmask.PLAYER1 value }
  else if address = RESBL then { t with m_ball := t.m_ball.resbl t.resxCounter }
  else if address = VDELBL then { t with m_ball := t.m_ball.vdelbl cmask.BALL value }
  else if address = CXCLR then { t with m_collisionMask := 0 }
  else t

/-- HMOVE begins: every object may move, and the blank is longer. -/
def startMovement : Chip :=
  { t with
    m_movementClock := 0
    m_movementInProgress := true
    m_extendedHblank := true
    m_missile0 := { t.m_missile0 with isMoving := true }
    m_missile1 := { t.m_missile1 with isMoving := true }
    m_player0 := { t.m_player0 with isMoving := true }
    m_player1 := { t.m_player1 with isMoving := true }
    m_ball := { t.m_ball with isMoving := true } }

/-- A write that was delayed and is due. -/
def delayedWrite (e : Entry) : Chip :=
  let value := e.value
  if e.address = VBLANK then { t with m_vblank := value.getLsbD 1 }
  else if e.address = HMOVE then t.startMovement
  else if e.address = PF0 then { t with m_playfield := t.m_playfield.pf0 value }
  else if e.address = PF1 then { t with m_playfield := t.m_playfield.pf1 value }
  else if e.address = PF2 then { t with m_playfield := t.m_playfield.pf2 value }
  else if e.address = HMM0 then { t with m_missile0 := t.m_missile0.hmm value }
  else if e.address = HMM1 then { t with m_missile1 := t.m_missile1.hmm value }
  else if e.address = HMCLR then
    { t with
      m_missile0 := t.m_missile0.hmm 0
      m_missile1 := t.m_missile1.hmm 0
      m_player0 := t.m_player0.hmp 0
      m_player1 := t.m_player1.hmp 0
      m_ball := t.m_ball.hmbl 0 }
  else if e.address = GRP0 then { t with m_player0 := t.m_player0.grp cmask.PLAYER0 value }
  else if e.address = GRP1 then { t with m_player1 := t.m_player1.grp cmask.PLAYER1 value }
  else if e.address = SHUFFLE_P0 then { t with m_player0 := t.m_player0.shufflePatterns cmask.PLAYER0 }
  else if e.address = SHUFFLE_P1 then { t with m_player1 := t.m_player1.shufflePatterns cmask.PLAYER1 }
  else if e.address = SHUFFLE_BL then { t with m_ball := t.m_ball.shuffleStatus cmask.BALL }
  else if e.address = HMP0 then { t with m_player0 := t.m_player0.hmp value }
  else if e.address = HMP1 then { t with m_player1 := t.m_player1.hmp value }
  else if e.address = HMBL then { t with m_ball := t.m_ball.hmbl value }
  else if e.address = REFP0 then { t with m_player0 := t.m_player0.refp cmask.PLAYER0 value }
  else if e.address = REFP1 then { t with m_player1 := t.m_player1.refp cmask.PLAYER1 value }
  else if e.address = ENABL then { t with m_ball := t.m_ball.enabl cmask.BALL value }
  else if e.address = ENAM0 then { t with m_missile0 := t.m_missile0.enam cmask.MISSILE0 value }
  else if e.address = ENAM1 then { t with m_missile1 := t.m_missile1.enam cmask.MISSILE1 value }
  else t

/-! ## The clock -/

def executeDelayed : Chip :=
  let (due, q) := t.m_delayQueue.execute
  due.foldl delayedWrite { t with m_delayQueue := q }

def tickMovement : Chip :=
  if t.m_movementInProgress && t.m_hctr &&& 0x03 == 0 then
    let counter := if t.m_movementClock > 15 then 0 else t.m_movementClock
    let t := { t with
      m_missile0 := t.m_missile0.movementTick cmask.MISSILE0 counter t.m_hctr t.m_hblank
      m_missile1 := t.m_missile1.movementTick cmask.MISSILE1 counter t.m_hctr t.m_hblank
      m_player0 := t.m_player0.movementTick cmask.PLAYER0 counter t.m_hblank
      m_player1 := t.m_player1.movementTick cmask.PLAYER1 counter t.m_hblank
      m_ball := t.m_ball.movementTick cmask.BALL counter t.m_hblank }
    { t with
      m_movementInProgress := t.m_missile0.isMoving || t.m_missile1.isMoving || t.m_player0.isMoving ||
        t.m_player1.isMoving || t.m_ball.isMoving
      m_movementClock := t.m_movementClock + 1 }
  else t

def tickHblank : Chip :=
  let t := { t with
    m_missile0 := t.m_missile0.latch cmask.MISSILE0
    m_missile1 := t.m_missile1.latch cmask.MISSILE1
    m_player0 := t.m_player0.updateCollisionFromState cmask.PLAYER0
    m_player1 := t.m_player1.updateCollisionFromState cmask.PLAYER1
    m_ball := t.m_ball.latch cmask.BALL }
  let t :=
    if t.m_hctr = 0 then { t with m_extendedHblank := false }
    else if t.m_hctr = H_BLANK_CLOCKS - 1 then
      if t.m_extendedHblank then t else { t with m_hblank := false }
    else if t.m_hctr = H_BLANK_CLOCKS + 7 then
      if t.m_extendedHblank then { t with m_hblank := false } else t
    else t
  if t.m_extendedHblank && (t.m_hctr : ℤ) - t.m_hctrDelta > H_BLANK_CLOCKS - 1 then
    { t with m_playfield :=
        t.m_playfield.tick cmask.PLAYFIELD (BitVec.ofInt 32 (t.m_hctr - H_BLANK_CLOCKS - t.m_hctrDelta)) }
  else t

def tickHframe : Chip :=
  let player0 := t.m_player0.tick cmask.PLAYER0
  let player1 := t.m_player1.tick cmask.PLAYER1
  { t with
    m_playfield := t.m_playfield.tick cmask.PLAYFIELD (BitVec.ofInt 32 (t.m_hctr - H_BLANK_CLOCKS - t.m_hctrDelta))
    m_player0 := player0
    m_player1 := player1
    m_missile0 := t.m_missile0.tickWith cmask.MISSILE0 t.m_hctr player0
    m_missile1 := t.m_missile1.tickWith cmask.MISSILE1 t.m_hctr player1
    m_ball := t.m_ball.tick cmask.BALL true }

def collide : Chip :=
  if t.m_vblank then t
  else
    { t with m_collisionMask := t.m_collisionMask |||
        t.m_player0.collision &&& t.m_player1.collision &&& t.m_missile0.collision &&&
          t.m_missile1.collision &&& t.m_ball.collision &&& t.m_playfield.collision }

def nextLine : Chip :=
  { t with
    m_hctr := 0
    m_hblank := true
    m_hctrDelta := 0
    m_missile0 := t.m_missile0.latch cmask.MISSILE0
    m_missile1 := t.m_missile1.latch cmask.MISSILE1
    m_player0 := t.m_player0.updateCollisionFromState cmask.PLAYER0
    m_player1 := t.m_player1.updateCollisionFromState cmask.PLAYER1
    m_ball := t.m_ball.latch cmask.BALL
    m_playfield := t.m_playfield.nextLine cmask.PLAYFIELD
    m_halt := false
    lines := t.lines + 1 }

def cycleOne : Chip :=
  let t := t.executeDelayed.tickMovement
  let t := if t.m_hblank then t.tickHblank else t.tickHframe
  let t := t.collide
  let t := if t.m_hctr + 1 ≥ H_CLOCKS then t.nextLine else { t with m_hctr := t.m_hctr + 1 }
  { t with m_timestamp := t.m_timestamp + 1 }

def clock : ℕ → Chip → Chip
  | 0, t => t
  | n + 1, t => clock n t.cycleOne

/-- The colour clocks until the line ends. -/
def clocksToLineEnd : ℕ := (H_CLOCKS - t.m_hctr) % H_CLOCKS

end Chip

namespace Tia
variable (t : Tia)

def new (std : Standard) : Tia := ⟨{ m_std := std }, .reset { m_std := std }⟩

def reset : Tia := { t with chip := .reset t.pins }

def clock (colorClocks : ℕ) : Tia := { t with chip := t.chip.clock colorClocks }

/-- The bits that the chip does not drive are those of the last byte on the bus. -/
def read (reg : ℕ) (dataBus : Byte) : Byte × Tia :=
  let (v, chip) := t.chip.readRegister t.pins reg
  (v ||| dataBus &&& 0x3F, { t with chip := chip })

def peek (reg : ℕ) : Byte := t.chip.peekRegister t.pins reg

def write (reg : ℕ) (value : Byte) : Tia := { t with chip := t.chip.write reg value }

def setButton (port : ℕ) (pressed : Bool) : Tia :=
  { t with pins := { t.pins with
      m_buttons := (if port = 0 then pressed else t.pins.m_buttons.1, if port = 1 then pressed else t.pins.m_buttons.2) } }

end Tia
end Mmemu.Source.TiaCore
