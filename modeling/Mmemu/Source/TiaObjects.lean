import Mathlib.Data.BitVec
import Mathlib.Data.Int.Notation
import Mathlib.Logic.Function.Basic

/-!
# TIA: its objects

Source: src/plugins/devices/tia/main/tia_objects.h and tia_objects.cpp, without the colours, the sound
and the frame, which nothing that a program can read depends on. An object's mask is an argument.
-/
namespace Mmemu.Source.TiaCore

abbrev Byte := BitVec 8
abbrev Mask := BitVec 16

def H_PIXEL : ℕ := 160
def H_CLOCKS : ℕ := 228
def H_BLANK_CLOCKS : ℕ := 68

namespace cmask
def PLAYER0 : Mask := 0b0111110000000000
def PLAYER1 : Mask := 0b0100001111000000
def MISSILE0 : Mask := 0b0010001000111000
def MISSILE1 : Mask := 0b0001000100100110
def BALL : Mask := 0b0000100010010101
def PLAYFIELD : Mask := 0b0000010001001011
def VISIBLE : Mask := 0x8000
def ALL : Mask := 0xFFFF

/-- The mask of an object that is not drawn. -/
def disabled (self : Mask) : Mask := ~~~self &&& ~~~VISIBLE

def draw (self : Mask) (on : Bool) : Mask := if on then ALL else disabled self
end cmask

/-- The table that a mode of NUSIZ uses: three modes share one. -/
def decodesOf (value : Byte) : ℕ :=
  let mode := (value &&& 0x07).toNat
  if mode = 5 ∨ mode = 7 then 0 else mode

/-- The copy that a counter starts, 0 for none. -/
def decode (table counter : ℕ) : ℕ :=
  if counter = 156 then 1
  else if counter = 12 ∧ (table = 1 ∨ table = 3) then 2
  else if counter = 28 ∧ table = 3 then 3
  else if counter = 28 ∧ (table = 2 ∨ table = 6) then 2
  else if counter = 60 ∧ table = 6 then 3
  else if counter = 60 ∧ table = 4 then 2
  else 0

/-- A position counter one clock on. -/
def advance (counter : ℕ) : ℕ := if counter + 1 ≥ H_PIXEL then 0 else counter + 1

def hmmClocksOf (value : Byte) : ℕ := (value >>> 4 ^^^ 0x08).toNat

/-- The width that a register's bits 4 and 5 select. -/
def widthOf (value : Byte) : ℤ := 2 ^ ((value &&& 0x30) >>> 4).toNat

/-! ## The delay queue -/

structure Entry where
  address : ℕ
  value : Byte
  deriving DecidableEq, Repr

/-- A ring of slots, each with the writes that are due when it is current. -/
structure DelayQueue where
  m_members : ℕ → List Entry
  m_index : ℕ
  m_pendingCount : ℕ

namespace DelayQueue

def LENGTH : ℕ := 16
def CAPACITY : ℕ := 16

def reset : DelayQueue := ⟨fun _ => [], 0, 0⟩

def push (q : DelayQueue) (address : ℕ) (value : Byte) (delay : ℕ) : DelayQueue :=
  let slot := (q.m_index + delay) % LENGTH
  if delay ≥ LENGTH ∨ (q.m_members slot).length = CAPACITY then q
  else
    { q with
      m_members := Function.update q.m_members slot (q.m_members slot ++ [⟨address, value⟩])
      m_pendingCount := q.m_pendingCount + 1 }

/-- The writes that are due, and the queue after them. -/
def execute (q : DelayQueue) : List Entry × DelayQueue :=
  if q.m_pendingCount = 0 then ([], q)
  else
    let due := q.m_members q.m_index
    (due, ⟨Function.update q.m_members q.m_index [], (q.m_index + 1) % LENGTH, q.m_pendingCount - due.length⟩)

end DelayQueue

/-! ## Players -/

structure Player where
  collision : Mask
  isMoving : Bool
  m_hmmClocks : ℕ
  m_counter : ℕ
  m_isRendering : Bool
  m_renderCounter : ℤ
  m_renderCounterTripPoint : ℤ
  m_copy : ℕ
  m_divider : ℕ
  m_dividerPending : ℕ
  m_sampleCounter : ℕ
  m_dividerChangeCounter : ℤ
  m_decodes : ℕ
  m_patternOld : Byte
  m_patternNew : Byte
  m_pattern : Byte
  m_isReflected : Bool
  m_isDelaying : Bool

def reverseBits (p : Byte) : Byte :=
  (p &&& 0x01) <<< 7 ||| (p &&& 0x02) <<< 5 ||| (p &&& 0x04) <<< 3 ||| (p &&& 0x08) <<< 1 |||
    (p &&& 0x10) >>> 1 ||| (p &&& 0x20) >>> 3 ||| (p &&& 0x40) >>> 5 ||| (p &&& 0x80) >>> 7

namespace Player

def RENDER_COUNTER_OFFSET : ℤ := -5

def reset (self : Mask) : Player where
  collision := cmask.disabled self
  isMoving := false
  m_hmmClocks := 0
  m_counter := 0
  m_isRendering := false
  m_renderCounter := 0
  m_renderCounterTripPoint := 0
  m_copy := 1
  m_divider := 1
  m_dividerPending := 0
  m_sampleCounter := 0
  m_dividerChangeCounter := -1
  m_decodes := 0
  m_patternOld := 0
  m_patternNew := 0
  m_pattern := 0
  m_isReflected := false
  m_isDelaying := false

variable (self : Mask) (p : Player)

def setDivider (divider : ℕ) : Player :=
  { p with m_divider := divider, m_renderCounterTripPoint := if divider = 1 then 0 else 1 }

def updateCollisionFromState : Player :=
  { p with collision :=
      if !p.m_isRendering || p.m_renderCounter < p.m_renderCounterTripPoint then cmask.disabled self
      else cmask.draw self (p.m_pattern.getLsbD p.m_sampleCounter) }

def updatePattern : Player :=
  let pattern := if p.m_isDelaying then p.m_patternOld else p.m_patternNew
  let pattern := if p.m_isReflected then pattern else reverseBits pattern
  { p with
    m_pattern := pattern
    collision :=
      if p.m_isRendering && p.m_renderCounter ≥ p.m_renderCounterTripPoint then
        cmask.draw self (pattern.getLsbD p.m_sampleCounter)
      else p.collision }

/-- A change of the divider that waits comes one clock nearer. -/
def countDividerChange : Player :=
  if p.m_dividerChangeCounter ≥ 0 then
    let due := p.m_dividerChangeCounter = 0
    let p := { p with m_dividerChangeCounter := p.m_dividerChangeCounter - 1 }
    if due then p.setDivider p.m_dividerPending else p
  else p

def tick : Player :=
  let p := p.updateCollisionFromState self
  let copy := decode p.m_decodes p.m_counter
  let p :=
    if copy ≠ 0 then
      { p with
        m_isRendering := true
        m_sampleCounter := 0
        m_renderCounter := RENDER_COUNTER_OFFSET
        m_copy := copy }
    else if p.m_isRendering then
      let p := { p with m_renderCounter := p.m_renderCounter + 1 }
      let p :=
        if p.m_divider = 1 then
          let p := if p.m_renderCounter > 0 then { p with m_sampleCounter := p.m_sampleCounter + 1 } else p
          if p.m_renderCounter ≥ 0 then p.countDividerChange else p
        else
          let p := if p.m_renderCounter > 1 ∧ (p.m_renderCounter - 1).toNat &&& (p.m_divider - 1) = 0
            then { p with m_sampleCounter := p.m_sampleCounter + 1 } else p
          if p.m_renderCounter > 0 then p.countDividerChange else p
      { p with m_isRendering := p.m_sampleCounter ≤ 7 }
    else p
  { p with m_counter := advance p.m_counter }

def movementTick (clock : ℕ) (hblank : Bool) : Player :=
  if !p.isMoving then p
  else if clock = p.m_hmmClocks then { p with isMoving := false }
  else if hblank then p.tick self
  else p

def grp (pattern : Byte) : Player :=
  let old := p.m_patternNew
  let p := { p with m_patternNew := pattern }
  if !p.m_isDelaying && pattern != old then p.updatePattern self else p

def hmp (value : Byte) : Player := { p with m_hmmClocks := hmmClocksOf value }

/-- How a new divider takes effect while the player is drawn. -/
def changeDivider (hblank : Bool) : Player :=
  let delta := p.m_renderCounter - RENDER_COUNTER_OFFSET
  match p.m_divider, p.m_dividerPending with
  | 1, 2 | 1, 4 =>
    if hblank then
      if delta < 4 then p.setDivider p.m_dividerPending
      else { p with m_dividerChangeCounter := if delta < 5 then 1 else 0 }
    else if delta < 3 then p.setDivider p.m_dividerPending
    else { p with m_dividerChangeCounter := 1 }
  | 2, 1 | 4, 1 =>
    if delta < (if hblank then 4 else 3) then p.setDivider p.m_dividerPending
    else if delta < (if hblank then 6 else 5) then
      { p.setDivider p.m_dividerPending with m_renderCounter := p.m_renderCounter - 1 }
    else { p with m_dividerChangeCounter := if hblank then 0 else 1 }
  | 4, 2 | 2, 4 =>
    if p.m_renderCounter < 1 ∨ hblank ∧ p.m_renderCounter.tmod p.m_divider = 1 then p.setDivider p.m_dividerPending
    else { p with m_dividerChangeCounter := p.m_divider - (p.m_renderCounter - 1).tmod p.m_divider }
  | _, _ => p.setDivider p.m_dividerPending

def nusiz (value : Byte) (hblank : Bool) : Player :=
  let offset := (value &&& 0x07).toNat
  let oldDecodes := p.m_decodes
  let p := { p with
    m_dividerPending := if offset = 5 then 2 else if offset = 7 then 4 else 1
    m_decodes := decodesOf value }
  -- a decode of the clock before
  let copy := decode p.m_decodes ((p.m_counter + H_PIXEL - 1) % H_PIXEL)
  let p := if !p.m_isRendering && copy != 0 then
      { p with
        m_isRendering := true
        m_sampleCounter := 0
        m_renderCounter := RENDER_COUNTER_OFFSET
        m_copy := copy }
    else p
  let start := (p.m_counter - p.m_renderCounter + RENDER_COUNTER_OFFSET + H_PIXEL - 1).toNat % H_PIXEL
  let p := if p.m_decodes ≠ oldDecodes ∧ p.m_isRendering ∧ p.m_renderCounter - RENDER_COUNTER_OFFSET < 2 ∧
      decode p.m_decodes start = 0
    then { p with m_isRendering := false } else p
  if p.m_dividerPending = p.m_divider then p
  else if p.m_isRendering then p.changeDivider hblank
  else p.setDivider p.m_dividerPending

def resp (counter : ℕ) : Player :=
  { p with
    m_counter := counter
    m_renderCounter :=
      if p.m_isRendering && p.m_renderCounter - RENDER_COUNTER_OFFSET < 4 then
        RENDER_COUNTER_OFFSET + (counter - 157)
      else p.m_renderCounter }

def refp (value : Byte) : Player :=
  let old := p.m_isReflected
  let p := { p with m_isReflected := value.getLsbD 3 }
  if old ≠ p.m_isReflected then p.updatePattern self else p

def vdelp (value : Byte) : Player :=
  let old := p.m_isDelaying
  let p := { p with m_isDelaying := value.getLsbD 0 }
  if old ≠ p.m_isDelaying then p.updatePattern self else p

def shufflePatterns : Player :=
  let old := p.m_patternOld
  let p := { p with m_patternOld := p.m_patternNew }
  if p.m_isDelaying && p.m_patternOld != old then p.updatePattern self else p

def isDrawingMainCopyAt4 : Bool := p.m_isRendering && p.m_sampleCounter == 4 && p.m_copy == 1

def getRespClock : ℕ :=
  match p.m_divider with
  | 2 => (p.m_counter + H_PIXEL - 8) % H_PIXEL
  | 4 => (p.m_counter + H_PIXEL - 12) % H_PIXEL
  | _ => (p.m_counter + H_PIXEL - 5) % H_PIXEL

end Player

/-! ## Missiles -/

structure Missile where
  collision : Mask
  isMoving : Bool
  m_isEnabled : Bool
  m_enam : Bool
  m_resmp : Byte
  m_hmmClocks : ℕ
  m_counter : ℕ
  m_width : ℤ
  m_effectiveWidth : ℤ
  m_isRendering : Bool
  m_isVisible : Bool
  m_renderCounter : ℤ
  m_decodes : ℕ

/-- The width of an object that a movement clock reaches while it begins to be drawn. -/
def starfieldWidth (phase : ℕ) (width : ℤ) : ℤ :=
  if phase = 3 then if width = 1 then 2 else width
  else if phase = 2 then 0
  else width

namespace Missile

def RENDER_COUNTER_OFFSET : ℤ := -4

def reset (self : Mask) : Missile where
  collision := cmask.disabled self
  isMoving := false
  m_isEnabled := false
  m_enam := false
  m_resmp := 0
  m_hmmClocks := 0
  m_counter := 0
  m_width := 1
  m_effectiveWidth := 1
  m_isRendering := false
  m_isVisible := false
  m_renderCounter := 0
  m_decodes := 0

variable (self : Mask) (m : Missile)

def updateCollision : Missile := { m with collision := cmask.draw self (m.m_isVisible && m.m_isEnabled) }

def updateEnabled : Missile := { m with m_isEnabled := m.m_enam && m.m_resmp == 0 }.updateCollision self

/-- The start of a line, and a clock in the blank. -/
def latch : Missile :=
  { m with m_isVisible := m.m_isRendering && m.m_renderCounter ≥ 0 }.updateCollision self

def tick (hclock : ℕ) (isReceivingRegularClock : Bool) : Missile :=
  let phase := (hclock + 1) % 4
  let starfield := m.isMoving && isReceivingRegularClock
  let m := { m with m_isVisible := m.m_isRendering &&
    (m.m_renderCounter ≥ 0 || starfield && m.m_renderCounter == -1 && m.m_width < 4 && phase == 3) }
  let m := m.updateCollision self
  let m :=
    if decode m.m_decodes m.m_counter ≠ 0 ∧ m.m_resmp = 0 then
      { m with m_isRendering := true, m_renderCounter := RENDER_COUNTER_OFFSET }
    else if m.m_isRendering then
      let m := if m.m_renderCounter = -1 then
          { m with
            m_effectiveWidth := if starfield then starfieldWidth phase m.m_width else m.m_width
            m_renderCounter := if starfield && phase == 3 && m.m_width < 4 then 0 else -1 }
        else m
      let m := { m with m_renderCounter := m.m_renderCounter + 1 }
      if m.m_renderCounter ≥ (if m.isMoving then m.m_effectiveWidth else m.m_width)
        then { m with m_isRendering := false } else m
    else m
  { m with m_counter := advance m.m_counter }

/-- A clock of the visible line, with the lock to the player. -/
def tickWith (hclock : ℕ) (player : Player) : Missile :=
  let m := m.tick self hclock true
  if m.m_resmp ≠ 0 ∧ player.isDrawingMainCopyAt4 then { m with m_counter := player.getRespClock } else m

def movementTick (clock hclock : ℕ) (hblank : Bool) : Missile :=
  if !m.isMoving then m
  else if clock = m.m_hmmClocks then { m with isMoving := false }
  else if hblank then m.tick self hclock false
  else m

def enam (value : Byte) : Missile :=
  let old := m.m_enam
  let m := { m with m_enam := value.getLsbD 1 }
  if old ≠ m.m_enam then m.updateEnabled self else m

def hmm (value : Byte) : Missile := { m with m_hmmClocks := hmmClocksOf value }

def resm (counter : ℕ) (hblank : Bool) : Missile :=
  let m := { m with m_counter := counter }
  if !m.m_isRendering then m
  else if m.m_renderCounter < 0 then { m with m_renderCounter := RENDER_COUNTER_OFFSET + (counter - 157) }
  else if m.m_width = 8 then
    { m with m_renderCounter := (counter - 157) + if m.m_renderCounter ≥ 4 then 4 else 0 }
  else if m.m_width = 4 then { m with m_renderCounter := counter - 157 }
  else if m.m_width = 2 then
    if hblank then { m with m_isRendering := m.m_renderCounter > 1 }
    else if m.m_renderCounter = 0 then { m with m_renderCounter := 1 }
    else m
  else if hblank then { m with m_isRendering := m.m_renderCounter > 0 }
  else m

def resmp (value : Byte) : Missile :=
  let r := value &&& 0x02
  if r = m.m_resmp then m else { m with m_resmp := r }.updateEnabled self

def nusiz (value : Byte) : Missile :=
  let m := { m with m_width := widthOf value, m_decodes := decodesOf value }
  if m.m_isRendering && m.m_renderCounter ≥ m.m_width then { m with m_isRendering := false } else m

end Missile

/-! ## The ball -/

structure Ball where
  collision : Mask
  isMoving : Bool
  m_isEnabledOld : Bool
  m_isEnabledNew : Bool
  m_isEnabled : Bool
  m_isDelaying : Bool
  m_signalActive : Bool
  m_hmmClocks : ℕ
  m_counter : ℕ
  m_width : ℤ
  m_effectiveWidth : ℤ
  m_lastMovementTick : ℕ
  m_isRendering : Bool
  m_renderCounter : ℤ

namespace Ball

def RENDER_COUNTER_OFFSET : ℤ := -4

def reset (self : Mask) : Ball where
  collision := cmask.disabled self
  isMoving := false
  m_isEnabledOld := false
  m_isEnabledNew := false
  m_isEnabled := false
  m_isDelaying := false
  m_signalActive := false
  m_hmmClocks := 0
  m_counter := 0
  m_width := 1
  m_effectiveWidth := 1
  m_lastMovementTick := 0
  m_isRendering := false
  m_renderCounter := 0

variable (self : Mask) (b : Ball)

def updateCollision : Ball := { b with collision := cmask.draw self (b.m_signalActive && b.m_isEnabled) }

def updateEnabled : Ball :=
  { b with m_isEnabled := if b.m_isDelaying then b.m_isEnabledOld else b.m_isEnabledNew }.updateCollision self

/-- The start of a line, and a clock in the blank. -/
def latch : Ball :=
  { b with m_signalActive := b.m_isRendering && b.m_renderCounter ≥ 0 }.updateCollision self

def tick (isReceivingRegularClock : Bool) : Ball :=
  let b := b.latch self
  let starfieldEffect := b.isMoving && isReceivingRegularClock
  let b :=
    if b.m_counter = 156 then
      let starfieldDelta := (b.m_counter + H_PIXEL - b.m_lastMovementTick) % 4
      { b with
        m_isRendering := true
        m_renderCounter := RENDER_COUNTER_OFFSET +
          if starfieldEffect && starfieldDelta == 3 && b.m_width < 4 then 1 else 0
        m_effectiveWidth := starfieldWidth starfieldDelta b.m_width }
    else if b.m_isRendering then
      let b := { b with m_renderCounter := b.m_renderCounter + 1 }
      if b.m_renderCounter ≥ (if starfieldEffect then b.m_effectiveWidth else b.m_width)
        then { b with m_isRendering := false } else b
    else b
  { b with m_counter := advance b.m_counter }

def movementTick (clock : ℕ) (hblank : Bool) : Ball :=
  let b := { b with m_lastMovementTick := b.m_counter }
  if !b.isMoving then b
  else if clock = b.m_hmmClocks then { b with isMoving := false }
  else if hblank then b.tick self false
  else b

def enabl (value : Byte) : Ball :=
  let old := b.m_isEnabledNew
  let b := { b with m_isEnabledNew := value.getLsbD 1 }
  if b.m_isEnabledNew != old && !b.m_isDelaying then b.updateEnabled self else b

def hmbl (value : Byte) : Ball := { b with m_hmmClocks := hmmClocksOf value }

def resbl (counter : ℕ) : Ball :=
  { b with
    m_counter := counter
    m_isRendering := true
    m_renderCounter := RENDER_COUNTER_OFFSET + (counter - 157) }

def ctrlpf (value : Byte) : Ball := { b with m_width := widthOf value }

def vdelbl (value : Byte) : Ball :=
  let old := b.m_isDelaying
  let b := { b with m_isDelaying := value.getLsbD 0 }
  if old ≠ b.m_isDelaying then b.updateEnabled self else b

def shuffleStatus : Ball :=
  let old := b.m_isEnabledOld
  let b := { b with m_isEnabledOld := b.m_isEnabledNew }
  if b.m_isEnabledOld != old && b.m_isDelaying then b.updateEnabled self else b

end Ball

/-! ## The playfield -/

structure Playfield where
  collision : Mask
  m_pattern : BitVec 32
  m_reflected : Bool
  m_refp : Bool
  m_pf0 : Byte
  m_pf1 : Byte
  m_pf2 : Byte

namespace Playfield

def reset : Playfield := ⟨0, 0, false, false, 0, 0, 0⟩

variable (f : Playfield)

def nextLine (self : Mask) : Playfield := { f with collision := cmask.disabled self }

def tick (self : Mask) (x : BitVec 32) : Playfield :=
  let f := { f with m_refp := if x = 79 ∨ x = 0 then f.m_reflected else f.m_refp }
  if x &&& 0x03 ≠ 0 then f
  else
    let col := (x >>> 2).toNat
    let currentPixel :=
      if f.m_pattern = 0 then false
      else if x < 79 then f.m_pattern.getLsbD col
      else if f.m_refp then decide (col ≤ 39) && f.m_pattern.getLsbD (39 - col)
      else f.m_pattern.getLsbD (col - 20)
    { f with collision := cmask.draw self currentPixel }

def pf0 (value : Byte) : Playfield :=
  { f with
    m_pattern := if f.m_pf0 = value >>> 4 then f.m_pattern
      else f.m_pattern &&& 0x000FFFF0 ||| (value >>> 4).setWidth 32
    m_pf0 := value >>> 4 }

def pf1 (value : Byte) : Playfield :=
  let v : BitVec 32 := value.setWidth 32
  { f with
    m_pattern := if f.m_pf1 = value then f.m_pattern
      else f.m_pattern &&& 0x000FF00F ||| (v &&& 0x80) >>> 3 ||| (v &&& 0x40) >>> 1 ||| (v &&& 0x20) <<< 1 |||
        (v &&& 0x10) <<< 3 ||| (v &&& 0x08) <<< 5 ||| (v &&& 0x04) <<< 7 ||| (v &&& 0x02) <<< 9 |||
        (v &&& 0x01) <<< 11
    m_pf1 := value }

def pf2 (value : Byte) : Playfield :=
  { f with
    m_pattern := if f.m_pf2 = value then f.m_pattern
      else f.m_pattern &&& 0x00000FFF ||| value.setWidth 32 <<< 12
    m_pf2 := value }

def ctrlpf (value : Byte) : Playfield := { f with m_reflected := value.getLsbD 0 }

end Playfield

/-! ## Inputs -/

structure LatchedInput where
  m_modeLatched : Bool
  m_latchedValue : Byte

namespace LatchedInput

def reset : LatchedInput := ⟨false, 0⟩

variable (i : LatchedInput)

def vblank (value : Byte) : LatchedInput :=
  if value.getLsbD 6 then { i with m_modeLatched := true } else ⟨false, 0x80⟩

def inpt (pinState : Bool) : Byte × LatchedInput :=
  let value : Byte := if pinState then 0 else 0x80
  if i.m_modeLatched then (i.m_latchedValue &&& value, { i with m_latchedValue := i.m_latchedValue &&& value })
  else (value, i)

def peek (pinState : Bool) : Byte :=
  let value : Byte := if pinState then 0 else 0x80
  if i.m_modeLatched then i.m_latchedValue &&& value else value

end LatchedInput

inductive ConnectionType where
  | GROUND | VCC | DISCONNECTED
  deriving DecidableEq, Repr

structure Connection where
  type : ConnectionType := .DISCONNECTED
  resistance : ℕ := 0

def Connection.same (c o : Connection) : Bool :=
  if c.type = .DISCONNECTED then o.type = .DISCONNECTED
  else c.type = o.type && c.resistance = o.resistance

structure AnalogReadout where
  m_uThresh : Float
  m_u : Float
  m_connection : Connection
  m_timestamp : ℕ
  m_clockFreq : Float
  m_isDumped : Bool

namespace AnalogReadout

def R0 : Float := 1.8e3
def C : Float := 68e-9
def R_DUMP : Float := 50
def U_SUPP : Float := 5
def TRIPPOINT_LINES : Float := 379
def MAX_POT_RESISTANCE : ℕ := 1000000

def clockFreq (pal : Bool) : Float := if pal then 50.0 * 228 * 312 else 60.0 * 228 * 262

def reset (timestamp : ℕ) (pal : Bool) : AnalogReadout where
  m_uThresh := U_SUPP * (1.0 - Float.exp
    (-TRIPPOINT_LINES * 228 / clockFreq pal / (.ofNat MAX_POT_RESISTANCE + R0) / C))
  m_u := 0
  m_connection := {}
  m_timestamp := timestamp
  m_clockFreq := clockFreq pal
  m_isDumped := false

variable (a : AnalogReadout) (timestamp : ℕ)

def chargeAt : Float :=
  let dt := Float.ofNat (timestamp - a.m_timestamp)
  if a.m_isDumped then a.m_u * Float.exp (-dt / R_DUMP / C / a.m_clockFreq)
  else
    let decay := Float.exp (-dt / (.ofNat a.m_connection.resistance + R0) / C / a.m_clockFreq)
    match a.m_connection.type with
    | .VCC => U_SUPP * (1 - (1 - a.m_u / U_SUPP) * decay)
    | .GROUND => a.m_u * decay
    | .DISCONNECTED => a.m_u

def updateCharge : AnalogReadout := { a with m_u := a.chargeAt timestamp, m_timestamp := timestamp }

def vblank (value : Byte) : AnalogReadout := { a.updateCharge timestamp with m_isDumped := value.getLsbD 7 }

def inpt : Byte × AnalogReadout :=
  let a := a.updateCharge timestamp
  (if !a.m_isDumped && a.m_u > a.m_uThresh then 0x80 else 0, a)

def peek : Byte := if !a.m_isDumped && a.chargeAt timestamp > a.m_uThresh then 0x80 else 0

def update (connection : Connection) : AnalogReadout :=
  if connection.same a.m_connection then a
  else { a.updateCharge timestamp with m_connection := connection }

end AnalogReadout
end Mmemu.Source.TiaCore
