import Mathlib.Data.BitVec
import Mathlib.Logic.Function.Basic

/-!
# Audio DMA

`audio_dma.cpp`: four channels that play samples from memory or a sine into a ring of
interleaved left and right samples, from which the host pulls stereo frames. An index of the
ring is a number; a bus read is a look at the memory a tick finds.
-/
namespace Mmemu.Source.AudioDma

/-! ## The ring of samples -/

structure SampleBuffer where
  m_sampleBuffer : ℕ → Float32
  size : ℕ
  m_sampleWriteIndex : ℕ
  m_sampleReadIndex : ℕ

namespace SampleBuffer

/-- Two seconds at 44.1 kHz in floats, as the constructor sizes it; `setSampleRate` does not. -/
def new : SampleBuffer := ⟨fun _ => 0.0, 44100 * 2, 0, 0⟩

def nextIndex (b : SampleBuffer) : ℕ :=
  if b.size ≤ b.m_sampleWriteIndex + 2 then b.m_sampleWriteIndex + 2 - b.size
  else b.m_sampleWriteIndex + 2

/-- A frame that would close the ring is skipped. -/
def pushSample (b : SampleBuffer) (left right : Float32) : SampleBuffer :=
  if b.nextIndex = b.m_sampleReadIndex then b
  else
    { b with
      m_sampleBuffer := Function.update (Function.update b.m_sampleBuffer b.m_sampleWriteIndex left)
        ((b.m_sampleWriteIndex + 1) % b.size) right
      m_sampleWriteIndex := b.nextIndex }

def samples_available (b : SampleBuffer) : ℕ :=
  if b.m_sampleReadIndex < b.m_sampleWriteIndex then b.m_sampleWriteIndex - b.m_sampleReadIndex
  else if b.m_sampleWriteIndex < b.m_sampleReadIndex then
    b.size - b.m_sampleReadIndex + b.m_sampleWriteIndex
  else 0

/-- `std::min(samples_available / 2, maxSamples * 2) / 2` over 32-bit integers. -/
def samples_to_pull (b : SampleBuffer) (maxSamples : BitVec 32) : ℤ :=
  (min ((b.samples_available / 2 : ℕ) : ℤ) (maxSamples * 2).toInt).tdiv 2

/-- So many floats copied out, one after the other. -/
def copyOut : ℕ → SampleBuffer → List Float32 × SampleBuffer
  | 0, b => ([], b)
  | n + 1, b =>
    let rest := copyOut n { b with m_sampleReadIndex := (b.m_sampleReadIndex + 1) % b.size }
    (b.m_sampleBuffer b.m_sampleReadIndex :: rest.1, rest.2)

/-- What `pullSamples` returns, what it writes to the caller's buffer, and the ring after it. -/
structure Pulled where
  result : ℤ
  buffer : List Float32
  ring : SampleBuffer

def pullSamples (b : SampleBuffer) (maxSamples : BitVec 32) : Pulled :=
  let out := copyOut (b.samples_to_pull maxSamples * 2).toNat b
  ⟨b.samples_to_pull maxSamples, out.1, out.2⟩

end SampleBuffer

/-! ## Channels -/

structure AudioChannel where
  enabled : Bool
  loopMode : Bool
  sineMode : Bool
  stopped : Bool
  loopStartAddr : BitVec 32
  freqStep : BitVec 32
  sampleEndAddr : BitVec 16
  volume : BitVec 8
  currentAddr : BitVec 32
  freqCounter : BitVec 32

namespace AudioChannel

def off : AudioChannel := ⟨false, false, false, false, 0, 0, 0, 0, 0, 0⟩

def normalizeU8 (val : BitVec 8) : Float32 := .ofNat val.toNat / 127.5 - 1.0

def gain (volume : BitVec 8) : Float32 := .ofNat volume.toNat / 255.0

def sineSample (c : AudioChannel) : Float32 :=
  let phase := c.currentAddr &&& 0x1F
  Float32.sin (2.0 * 3.14159 * .ofNat phase.toNat / 32.0) * gain c.volume

/-- The address of the next sample; at the end a channel starts over or stops. -/
def next (c : AudioChannel) : AudioChannel :=
  let c := { c with currentAddr := (c.currentAddr + 1) &&& 0xFFFFFF }
  if c.currentAddr.setWidth 16 = c.sampleEndAddr then
    if c.loopMode then { c with currentAddr := c.loopStartAddr }
    else { c with stopped := true, enabled := false }
  else c

/-- One cycle of a channel that runs, and the sample it plays when its counter is full. -/
def cycle (mem : BitVec 32 → BitVec 8) (c : AudioChannel) : AudioChannel × Option Float32 :=
  let counter := c.freqCounter + c.freqStep
  if counter < 0x1000000 then ({ c with freqCounter := counter }, none)
  else
    let c := { c with freqCounter := counter - 0x1000000 }
    if c.sineMode then (c, some c.sineSample)
    else (c.next, some (normalizeU8 (mem c.currentAddr) * gain c.volume))

/-- The loop over a tick's cycles, which a channel that stops leaves. -/
def cycles (mem : BitVec 32 → BitVec 8) :
    ℕ → AudioChannel → SampleBuffer → AudioChannel × SampleBuffer
  | 0, c, b => (c, b)
  | n + 1, c, b =>
    let (c, sample) := c.cycle mem
    let b := match sample with
      | some s => b.pushSample s s
      | none => b
    if c.stopped then (c, b) else cycles mem n c b

def tickChannel (mem : BitVec 32 → BitVec 8) (n : ℕ) (c : AudioChannel) (b : SampleBuffer) :
    AudioChannel × SampleBuffer :=
  if !c.enabled || c.stopped then (c, b) else c.cycles mem n b

/-- A byte put into a 24-bit register. -/
def low (reg : BitVec 32) (val : BitVec 8) : BitVec 32 := (reg &&& 0xFFFF00) ||| val.setWidth 32
def mid (reg : BitVec 32) (val : BitVec 8) : BitVec 32 :=
  (reg &&& 0xFF00FF) ||| (val.setWidth 32 <<< 8)
def high (reg : BitVec 32) (val : BitVec 8) : BitVec 32 :=
  (reg &&& 0x00FFFF) ||| (val.setWidth 32 <<< 16)

def writeReg (c : AudioChannel) (regIdx : ℕ) (val : BitVec 8) : AudioChannel :=
  match regIdx with
  | 0x00 =>
    let c := { c with
      enabled := val &&& 0x80 != 0
      loopMode := val &&& 0x40 != 0
      sineMode := val &&& 0x20 != 0 }
    if c.enabled && c.stopped then { c with stopped := false, freqCounter := 0 } else c
  | 0x01 => { c with loopStartAddr := low c.loopStartAddr val }
  | 0x02 => { c with loopStartAddr := mid c.loopStartAddr val }
  | 0x03 => { c with loopStartAddr := high c.loopStartAddr val }
  | 0x04 => { c with freqStep := low c.freqStep val }
  | 0x05 => { c with freqStep := mid c.freqStep val }
  | 0x06 => { c with freqStep := high c.freqStep val }
  | 0x07 => { c with sampleEndAddr := (c.sampleEndAddr &&& 0xFF00) ||| val.setWidth 16 }
  | 0x08 => { c with sampleEndAddr := (c.sampleEndAddr &&& 0x00FF) ||| (val.setWidth 16 <<< 8) }
  | 0x09 => { c with volume := val }
  | 0x0A => { c with currentAddr := low c.currentAddr val }
  | 0x0B => { c with currentAddr := mid c.currentAddr val }
  | 0x0C => { c with currentAddr := high c.currentAddr val }
  | _ => c

end AudioChannel

/-! ## The device -/

structure AudioDmaDevice where
  m_base : BitVec 32
  /-- A bus was given, by `setDmaBus` or with the first channel register written. -/
  m_bus : Bool
  m_channels : Fin 4 → AudioChannel
  m_audioControlReg : BitVec 8
  ring : SampleBuffer

namespace AudioDmaDevice

def new (baseAddr : BitVec 32) : AudioDmaDevice := ⟨baseAddr, false, fun _ => .off, 0, .new⟩

def ioWrite (d : AudioDmaDevice) (addr : BitVec 32) (val : BitVec 8) : AudioDmaDevice :=
  let offset := (addr - d.m_base).toNat
  if offset = 0x01 then { d with m_audioControlReg := val }
  else if h : 0x10 ≤ offset ∧ offset < 0x50 then
    let ch : Fin 4 := ⟨(offset - 0x10) / 16, by omega⟩
    { d with
      m_bus := true
      m_channels := Function.update d.m_channels ch
        ((d.m_channels ch).writeReg ((offset - 0x10) % 16) val) }
  else d

def tickChannel (mem : BitVec 32 → BitVec 8) (cycles : ℕ) (d : AudioDmaDevice) (ch : Fin 4) :
    AudioDmaDevice :=
  let out := (d.m_channels ch).tickChannel mem cycles d.ring
  { d with m_channels := Function.update d.m_channels ch out.1, ring := out.2 }

def tick (d : AudioDmaDevice) (mem : BitVec 32 → BitVec 8) (cycles : ℕ) : AudioDmaDevice :=
  if !d.m_bus || d.m_audioControlReg &&& 0x80 = 0 then d
  else (List.finRange 4).foldl (tickChannel mem cycles) d

end AudioDmaDevice

end Mmemu.Source.AudioDma
