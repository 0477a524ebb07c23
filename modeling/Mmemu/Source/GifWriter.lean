import Mathlib.Data.BitVec
import Mathlib.Logic.Function.Iterate

/-!
# The GIF writer of the debugger's snapshots

Source: `src/libdebug/main/gif_writer.cpp`. Codes are packed with their lowest bit first
into sub-blocks of 255 bytes; the accumulator holds less than 20 bits, so it does not
overflow. `write`, which puts the bytes in a file, is not modelled.
-/
namespace Mmemu.Source.GifWriter

abbrev Byte := BitVec 8

def put16 (v : ℕ) : List Byte := [BitVec.ofNat 8 v, BitVec.ofNat 8 (v / 256)]

/-! ## Bits -/

structure BitWriter where
  out : List Byte
  block : List Byte := []
  acc : ℕ := 0
  nbits : ℕ := 0

namespace BitWriter

def flushBlock (bw : BitWriter) : BitWriter :=
  if bw.block = [] then bw
  else { bw with out := bw.out ++ BitVec.ofNat 8 bw.block.length :: bw.block, block := [] }

def byte (bw : BitWriter) (b : Byte) : BitWriter :=
  let bw := { bw with block := bw.block ++ [b] }
  if bw.block.length = 255 then bw.flushBlock else bw

/-- A round of the loop that takes whole bytes out of the accumulator. -/
def round (bw : BitWriter) : BitWriter :=
  { bw.byte (BitVec.ofNat 8 bw.acc) with acc := bw.acc >>> 8, nbits := bw.nbits - 8 }

/-- `while (m_nbits >= 8)` makes a round for each whole byte. -/
def put (bw : BitWriter) (code bits : ℕ) : BitWriter :=
  let bw := { bw with acc := bw.acc ||| code <<< bw.nbits, nbits := bw.nbits + bits }
  round^[bw.nbits / 8] bw

/-- The bytes written, with the last bits and the block terminator. -/
def finish (bw : BitWriter) : List Byte :=
  let bw := if 0 < bw.nbits then bw.byte (BitVec.ofNat 8 bw.acc) else bw
  bw.flushBlock.out ++ [0]

end BitWriter

/-! ## LZW -/

/-- Where the encoder stands; `prefixCode` is `none` for the source's -1. -/
structure Lzw where
  bw : BitWriter
  codeSize : ℕ
  next : ℕ
  dict : ℕ → Option ℕ := fun _ => none
  prefixCode : Option ℕ := none

namespace Lzw

variable (minCode : ℕ)

def clear : ℕ := 1 <<< minCode
def eoi : ℕ := clear minCode + 1

def reset (s : Lzw) : Lzw :=
  { s with dict := fun _ => none, codeSize := minCode + 1, next := eoi minCode + 1 }

/-- A new string: the table starts over when it is full, and codes grow wider when the next one
no longer fits the current width and one entry. -/
def add (s : Lzw) (key : ℕ) : Lzw :=
  if s.next = 4096 then { s with bw := s.bw.put (clear minCode) s.codeSize }.reset minCode
  else
    let s := { s with dict := Function.update s.dict key (some s.next), next := s.next + 1 }
    if 1 <<< s.codeSize < s.next ∧ s.codeSize < 12 then { s with codeSize := s.codeSize + 1 } else s

/-- The loop over the pixels. -/
def pixel (s : Lzw) (c : Byte) : Lzw :=
  match s.prefixCode with
  | none => { s with prefixCode := some c.toNat }
  | some code =>
    let key := code <<< 8 ||| c.toNat
    match s.dict key with
    | some longer => { s with prefixCode := some longer }
    | none =>
      let s := { s with bw := s.bw.put code s.codeSize }
      { s.add minCode key with prefixCode := some c.toNat }

def start (out : List Byte) : Lzw :=
  let s : Lzw :=
    { bw := { out := out ++ [BitVec.ofNat 8 minCode] }, codeSize := minCode + 1, next := eoi minCode + 1 }
  { s with bw := s.bw.put (clear minCode) s.codeSize }

end Lzw

def lzw (out : List Byte) (idx : List Byte) (minCode : ℕ) : List Byte :=
  let s := idx.foldl (Lzw.pixel minCode) (Lzw.start minCode out)
  let bw :=
    match s.prefixCode with
    | some code => s.bw.put code s.codeSize
    | none => s.bw
  (bw.put (Lzw.eoi minCode) s.codeSize).finish

/-! ## Files -/

structure Frame where
  argb : List (BitVec 32)
  delayCs : ℤ := 10

/-- The colours in use, and the place of each. -/
structure Palette where
  index : BitVec 32 → Option Byte := fun _ => none
  palette : List (BitVec 32) := []

def rgb (argb : BitVec 32) : BitVec 32 := argb &&& 0xFFFFFF

namespace Palette

def addColour (p : Palette) (argb : BitVec 32) : Except String Palette :=
  if (p.index (rgb argb)).isSome then .ok p
  else if p.palette.length = 256 then .error "more than 256 colours"
  else
    .ok
      { index := Function.update p.index (rgb argb) (some (BitVec.ofNat 8 p.palette.length))
        palette := p.palette ++ [rgb argb] }

def addFrame (n : ℕ) (p : Palette) (f : Frame) : Except String Palette :=
  if f.argb.length ≠ n then .error "frame size mismatch" else f.argb.foldlM addColour p

/-- `while ((1 << bits) < size)`; a size needs no more rounds than its own value. -/
def bitsLoop (size : ℕ) : ℕ → ℕ → ℕ
  | 0, bits => bits
  | rounds + 1, bits => if 2 ^ bits < size then bitsLoop size rounds (bits + 1) else bits

/-- The table holds `2 ^ bits` entries. -/
def bits (p : Palette) : ℕ := bitsLoop p.palette.length p.palette.length 1

def minCode (p : Palette) : ℕ := if p.bits < 2 then 2 else p.bits

/-- The palette index of each pixel. -/
def indices (p : Palette) (f : Frame) : List Byte := f.argb.map fun argb => (p.index (rgb argb)).getD 0

end Palette

def colour (c : BitVec 32) : List Byte := [(c >>> 16).setWidth 8, (c >>> 8).setWidth 8, c.setWidth 8]

/-- Signature, screen and global palette. -/
def header (p : Palette) (width height : ℕ) : List Byte :=
  ([0x47, 0x49, 0x46, 0x38, 0x39, 0x61] : List Byte) ++ put16 width ++ put16 height ++
    [BitVec.ofNat 8 (0x80 ||| (p.bits - 1) <<< 4 ||| (p.bits - 1)), 0, 0] ++
    (List.range (2 ^ p.bits)).flatMap fun i => colour (p.palette.getD i 0)

/-- The NETSCAPE2.0 extension: loop forever. -/
def application : List Byte :=
  [0x21, 0xFF, 0x0B, 0x4E, 0x45, 0x54, 0x53, 0x43, 0x41, 0x50, 0x45, 0x32, 0x2E, 0x30,
    0x03, 0x01, 0x00, 0x00, 0x00]

def delay (f : Frame) : ℕ := (max 0 (min f.delayCs 65535)).toNat

/-- The graphic control extension: delay, no transparency. -/
def control (f : Frame) : List Byte := ([0x21, 0xF9, 0x04, 0x04] : List Byte) ++ put16 (delay f) ++ [0, 0]

def descriptor (width height : ℕ) : List Byte :=
  ([0x2C] : List Byte) ++ put16 0 ++ put16 0 ++ put16 width ++ put16 height ++ [0]

def image (p : Palette) (animated : Bool) (width height : ℕ) (out : List Byte) (f : Frame) : List Byte :=
  lzw (out ++ (if animated then control f else []) ++ descriptor width height) (p.indices f) p.minCode

/-- One global palette from every colour used. -/
def paletteOf (frames : List Frame) (n : ℕ) : Except String Palette :=
  frames.foldlM (Palette.addFrame n) {}

def encode (frames : List Frame) (width height : ℤ) : Except String (List Byte) :=
  if frames.isEmpty then .error "no frames"
  else if width ≤ 0 ∨ height ≤ 0 ∨ width > 65535 ∨ height > 65535 then .error "bad size"
  else
    match paletteOf frames (width.toNat * height.toNat) with
    | .error e => .error e
    | .ok p =>
      let animated := decide (1 < frames.length)
      let out := header p width.toNat height.toNat ++ (if animated then application else [])
      .ok (frames.foldl (image p animated width.toNat height.toNat) out ++ [0x3B])

end Mmemu.Source.GifWriter
