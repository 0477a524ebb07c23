import Mathlib.Data.Rat.Defs
import Mathlib.Algebra.Order.Ring.Unbundled.Rat
import Mmemu.Source.CbmImageDos

/-!
# The IEC disk drive at the line level

Source: src/plugins/devices/iec_drive/main/iec_drive.cpp and iec_drive.h, with a disk image
mounted. Lines are true when asserted. `us` turns cycles into microseconds, as a division by
`m_cyclesPerUs` does, and `sent` is what went through the fast serial callback.
-/
namespace Mmemu.Source.IecBus
open Mmemu.Source.CbmDos

def BIT_SETUP_US : ℚ := 80
def BIT_VALID_US : ℚ := 80
def TBB_US : ℚ := 100
def EOI_US : ℚ := 200
def EOI_ACK_US : ℚ := 60
def FRAME_US : ℚ := 1000

inductive St where
  | idle | rxWaitReady | rxWaitStart | rxEoiAck | rxBits | rxFrameEnd
  | turnaround | txStart | txWaitListener | txEoiWait | txEoiRelease | txBitSetup | txBitValid
  | txFrame | silent | burstArm | burstOut | burstIn | burstStatus | burstDone
  deriving DecidableEq, Repr

structure IecDrive (δ : Type) where
  us : ℕ → ℚ
  now : ℕ
  t0 : ℕ
  st : St
  cAtn : Bool
  cClk : Bool
  cData : Bool
  dClk : Bool
  dData : Bool
  prevAtn : Bool
  prevClk : Bool
  byte : Byte
  bits : ℕ
  eoi : Bool
  underAtn : Bool
  dos : CbmImageDos δ
  listener : Bool
  talker : Bool
  lastWasOurListen : Bool
  lastWasOurTalk : Bool
  hasPending : Bool
  pendingByte : Byte
  pendingStatus : ℤ
  pendingChannel : Option (Fin 16)
  txByte : Byte
  txLast : Bool
  /-- `setFastSerial` was called. -/
  fastToHost : Bool
  sent : Bytes
  fastAnnounce : Bool
  hostFast : Bool
  burstClk : Bool

namespace IecDrive
variable {δ : Type} [CbmSectorDisk δ]

section Lines
omit [CbmSectorDisk δ]

def busClk (d : IecDrive δ) : Bool := d.cClk || d.dClk

def busData (d : IecDrive δ) : Bool := d.cData || d.dData

def fast (d : IecDrive δ) : Bool := d.fastToHost && d.hostFast

def enter (d : IecDrive δ) (st : St) : IecDrive δ := { d with st := st, t0 := d.now }

/-- `us()` -/
def elapsed (d : IecDrive δ) : ℚ := d.us (d.now - d.t0)

/-- A byte through the fast serial callback. -/
def toHost (d : IecDrive δ) (b : Byte) : IecDrive δ := { d with sent := d.sent ++ [b] }

/-- The next byte of the burst queue goes to the computer. -/
def sendBurst (d : IecDrive δ) : IecDrive δ :=
  match d.dos.burstOut with
  | [] => d
  | b :: rest => { d with dos := { d.dos with burstOut := rest } }.toHost b

def startBurstSector (d : IecDrive δ) : IecDrive δ := { d with dClk := true }.enter .burstIn

end Lines

/-! ## Burst fastload -/

/-- The bytes the loop of `fastload` reads in so many rounds. -/
def fastloadBytes : ℕ → CbmImageDos δ → Bytes × CbmImageDos δ
  | 0, dos => ([], dos)
  | guard + 1, dos =>
    let (st, b, dos) := dos.acptr
    if st < 0 ∨ st.toNat &&& 0x02 ≠ 0 then ([], dos)
    else if st.toNat &&& 0x40 ≠ 0 then ([b], dos)
    else
      let (rest, dos) := fastloadBytes guard dos
      (b :: rest, dos)

/-- The blocks of the burst queue from an offset on. -/
def fastloadBlocks (data : Bytes) : ℕ → ℕ → Bytes
  | 0, _ => []
  | fuel + 1, start =>
    if start < data.length then
      let n := min 254 (data.length - start)
      let status :=
        if data.length ≤ start + n then
          [0x1F, BitVec.ofNat 8 (if start = 0 then n - 2 else n)]
        else [0x00]
      status ++ (data.drop start).take n ++ fastloadBlocks data fuel (start + 254)
    else []

def fastload (dos : CbmImageDos δ) (name : Bytes) : CbmImageDos δ :=
  let u := BitVec.ofNat 8 dos.unit
  let dos := (dos.listen (0x20 ||| u)).2
  let dos := (dos.second 0xF0).2
  let dos := name.foldl (fun dos c => (dos.ciout c).2) dos
  let dos := (dos.unlsn).2
  let dos := (dos.talk (0x40 ||| u)).2
  let dos := (dos.tksa 0x60).2
  let (data, dos) := fastloadBytes (2 ^ 24) dos
  let dos := (dos.untlk).2
  let dos := (dos.listen (0x20 ||| u)).2
  let dos := (dos.second 0xE0).2
  let dos := (dos.unlsn).2
  { dos with
    burstOut := if data.length < 2 then [0x02] else fastloadBlocks data data.length 0 }

/-! ## The protocol -/

omit [CbmSectorDisk δ] in
def atnStart (d : IecDrive δ) : IecDrive δ :=
  let d := { d with
    hostFast := d.fastToHost && d.fastAnnounce
    fastAnnounce := false
    dos := d.dos.burstCancel
    dClk := false
    dData := true
    underAtn := true }
  { d with prevClk := d.busClk }.enter .rxWaitReady

/-- A fastload is served before the bus goes on. -/
def serveFastload (d : IecDrive δ) : IecDrive δ :=
  if d.fastToHost then
    match d.dos.takeFastload with
    | (some name, dos) => { d with dos := fastload dos name }
    | (none, dos) => { d with dos := dos }
  else d

omit [CbmSectorDisk δ] in
/-- Where the drive goes when ATN is released. -/
def resume (d : IecDrive δ) : IecDrive δ :=
  if d.fastToHost && (!d.dos.burstOut.isEmpty || d.dos.burstWriting) then
    { d with dClk := false, dData := false }.enter .burstArm
  else if d.talker then d.enter .turnaround
  else if d.listener then { d with dData := true }.enter .rxWaitReady
  else { d with dClk := false, dData := false }.enter .idle

def atnEnd (d : IecDrive δ) : IecDrive δ := { d with underAtn := false }.serveFastload.resume

/-- A command byte under ATN. -/
def command (d : IecDrive δ) (b : Byte) : IecDrive δ :=
  let unit := d.dos.unit
  if 0x20 ≤ b ∧ b ≤ 0x3E then
    let ours : Bool := (b &&& 0x1F).toNat = unit
    let d := { d with lastWasOurListen := ours, lastWasOurTalk := false }
    let d :=
      if ours then
        let (handled, dos) := d.dos.listen b
        { d with dos := dos, listener := if handled ≠ -2 then true else d.listener }
      else d
    if d.talker && ours then { d with dos := (d.dos.untlk).2, talker := false } else d
  else if b = 0x3F then
    let d := if d.listener then { d with dos := (d.dos.unlsn).2, listener := false } else d
    { d with lastWasOurListen := false, lastWasOurTalk := false }
  else if 0x40 ≤ b ∧ b ≤ 0x5E then
    let ours : Bool := (b &&& 0x1F).toNat = unit
    let d :=
      if ours then
        let (handled, dos) := d.dos.talk b
        { d with dos := dos, talker := if handled ≠ -2 then true else d.talker }
      else if d.talker then { d with dos := (d.dos.untlk).2, talker := false }
      else d
    { d with lastWasOurTalk := ours, lastWasOurListen := false }
  else if b = 0x5F then
    let d := if d.talker then { d with dos := (d.dos.untlk).2, talker := false } else d
    { d with lastWasOurListen := false, lastWasOurTalk := false }
  else if 0x60 ≤ b then
    -- a secondary address: `$6x` data, `$Ex` close, `$Fx` open
    if d.lastWasOurListen then { d with dos := (d.dos.second b).2, hasPending := false }
    else if d.lastWasOurTalk then
      let d :=
        if some (channelOf b) ≠ d.pendingChannel then { d with hasPending := false } else d
      { d with pendingChannel := some (channelOf b), dos := (d.dos.tksa b).2 }
    else d
  else d

def received (d : IecDrive δ) (b : Byte) : IecDrive δ :=
  if d.listener then { d with dos := (d.dos.ciout b).2 } else d

/-- The listener is there: the byte kept, or the next one, is offered. -/
def offer (d : IecDrive δ) : IecDrive δ :=
  let (s, b, dos) :=
    if d.hasPending then (d.pendingStatus, d.pendingByte, d.dos) else d.dos.acptr
  let d := { d with dos := dos }
  if s = -2 ∨ s = 0x42 then { d with hasPending := false }.enter .silent
  else
    { d with
      hasPending := true
      pendingByte := b
      pendingStatus := s
      txByte := b
      txLast := s.toNat &&& 0x40 ≠ 0
      dClk := false }.enter .txWaitListener

omit [CbmSectorDisk δ] in
/-- CLK low and the bit on DATA. -/
def putBit (d : IecDrive δ) : IecDrive δ :=
  { d with dClk := true, dData := !d.txByte.getLsbD d.bits }

omit [CbmSectorDisk δ] in
/-- The byte goes out in one piece over the shift register. -/
def sendFast (d : IecDrive δ) : IecDrive δ :=
  ({ d with dClk := true, dData := false }.toHost d.txByte).enter .txFrame

/-- What the drive does in its state; `clkRose` is an edge of CLK just seen. -/
def react (d : IecDrive δ) (clkRose : Bool) : IecDrive δ :=
  let clk := d.busClk
  match d.st with
  | .idle | .silent => { d with dClk := false, dData := false }
  | .rxWaitReady =>
    let d := { d with dData := true }
    if clkRose then
      let d := { d with dData := false, eoi := false }.enter .rxWaitStart
      if d.fast then d.toHost 0x00 else d
    else d
  | .rxWaitStart =>
    if clk then { d with bits := 0, byte := 0 }.enter .rxBits
    else if !d.eoi ∧ EOI_US < d.elapsed then { d with eoi := true, dData := true }.enter .rxEoiAck
    else d
  | .rxEoiAck =>
    if EOI_ACK_US ≤ d.elapsed then { d with dData := false }.enter .rxWaitStart else d
  | .rxBits =>
    if clkRose then
      let d := { d with
        byte := d.byte >>> 1 ||| (if d.busData then 0x00 else 0x80)
        bits := d.bits + 1 }
      if d.bits = 8 then d.enter .rxFrameEnd else d
    else d
  | .rxFrameEnd =>
    if clk then
      let d := { d with dData := true }.enter .rxWaitReady
      if d.underAtn then d.command d.byte else d.received d.byte
    else d
  | .burstArm =>
    let d := { d with dClk := false, dData := false }
    if !d.cClk then
      let d := { d with burstClk := false }
      if d.dos.burstWriting then d.startBurstSector else d.enter .burstOut
    else d
  | .burstOut =>
    if d.cClk ≠ d.burstClk then { d with burstClk := d.cClk }.sendBurst else d
  | .burstIn => d
  | .burstStatus =>
    if d.cClk then ({ d with dos := d.dos.burstFinishSector }.sendBurst).enter .burstDone else d
  | .burstDone =>
    let d := { d with dClk := false }
    if !d.cClk then
      if d.dos.burstWriting then d.startBurstSector else d.enter .silent
    else d
  | .turnaround =>
    if !d.cClk then { d with dClk := true, dData := false }.enter .txStart else d
  | .txStart =>
    let d := { d with dClk := true, dData := false }
    if d.busData ∧ TBB_US ≤ d.elapsed then d.offer else d
  | .txWaitListener =>
    if !d.busData then
      let d := { d with bits := 0 }
      if d.txLast then d.enter .txEoiWait
      else if d.fast then ({ d with dClk := true }.toHost d.txByte).enter .txFrame
      else d.enter .txBitSetup
    else d
  | .txEoiWait => if d.busData then d.enter .txEoiRelease else d
  | .txEoiRelease =>
    if !d.busData then
      let d := { d with bits := 0 }
      if d.fast then d.sendFast else d.enter .txBitSetup
    else d
  | .txBitSetup =>
    let d := d.putBit
    if BIT_SETUP_US ≤ d.elapsed then { d with dClk := false }.enter .txBitValid else d
  | .txBitValid =>
    if BIT_VALID_US ≤ d.elapsed then
      let d := { d with bits := d.bits + 1 }
      if d.bits = 8 then { d with dClk := true, dData := false }.enter .txFrame
      else (d.enter .txBitSetup).putBit
    else d
  | .txFrame =>
    if d.busData then
      let d := { d with hasPending := false }
      if d.txLast then { d with dClk := false, dData := false }.enter .silent
      else d.enter .txStart
    else if FRAME_US < d.elapsed then
      -- not taken: the byte is kept for next time
      { d with dClk := false, dData := false }.enter .silent
    else d

/-- Follow an edge of ATN. -/
def followAtn (d : IecDrive δ) : IecDrive δ :=
  if d.cAtn ≠ d.prevAtn then
    let d := { d with prevAtn := d.cAtn }
    if d.cAtn then d.atnStart else d.atnEnd
  else d

def step (d : IecDrive δ) : IecDrive δ :=
  let d := d.followAtn
  { d with prevClk := d.busClk }.react (d.prevClk && !d.busClk)

def setComputerLines (d : IecDrive δ) (atn clk data : Bool) : IecDrive δ :=
  { d with cAtn := atn, cClk := clk, cData := data }.step

def tick (d : IecDrive δ) (cycles : ℕ) : IecDrive δ := { d with now := d.now + cycles }.step

/-- A byte the computer shifted out on fast serial. -/
def fastByteFromHost (d : IecDrive δ) (b : Byte) : IecDrive δ :=
  if !d.fastToHost then d
  else if d.st = .burstIn then
    let (complete, dos) := d.dos.burstWriteByte b
    let d := { d with dos := dos }
    if complete then d.enter .burstStatus else { d with dClk := !d.dClk }
  else if d.hostFast ∧ !d.cAtn ∧ d.listener ∧ (d.st = .rxWaitStart ∨ d.st = .rxBits) then
    ({ d with dData := true }.enter .rxWaitReady).received b
  else { d with fastAnnounce := true }

omit [CbmSectorDisk δ] in
/-- A drive as constructed and reset, serving an image. -/
def mounted (us : ℕ → ℚ) (fastToHost : Bool) (dos : CbmImageDos δ) : IecDrive δ where
  us := us
  now := 0
  t0 := 0
  st := .idle
  cAtn := false
  cClk := false
  cData := false
  dClk := false
  dData := false
  prevAtn := false
  prevClk := false
  byte := 0
  bits := 0
  eoi := false
  underAtn := false
  dos := dos
  listener := false
  talker := false
  lastWasOurListen := false
  lastWasOurTalk := false
  hasPending := false
  pendingByte := 0
  pendingStatus := 0
  pendingChannel := none
  txByte := 0
  txLast := false
  fastToHost := fastToHost
  sent := []
  fastAnnounce := false
  hostFast := false
  burstClk := false

end IecDrive

end Mmemu.Source.IecBus
