import Mathlib.Data.BitVec
import Mathlib.Data.Int.Notation
import Mmemu.Library.CheckedBuffer

/-!
# Graphics sheets

Source: src/libtoolchain/main/gfx_decode.cpp and gfx_decode.h. A vector is indexed with its bounds
and an `int` calculated in its range; `none` is undefined.
-/
namespace Mmemu.Source.GfxDecode
open Mmemu.Library.CheckedBuffer

abbrev Byte := BitVec 8

abbrev Color := BitVec 32

abbrev ReadFn := BitVec 32 → Byte

/-- The value of an `int` expression. -/
def int (n : ℤ) : Option ℤ := if -0x80000000 ≤ n ∧ n < 0x80000000 then some n else none

/-! ## The formats -/

inductive Format where
  | SpriteHires | SpriteMulti | Sprite64 | Sprite16 | Sprite16Narrow
  | CharHires | CharMulti | CharFCM | CharNCM | Char16 | Char16Multi
  | Player | Player2Line | AnticChar | AnticChar4
  | VeraSprite8x4 | VeraSprite16x4 | VeraSprite32x4 | VeraSprite64x4
  | VeraSprite8x8 | VeraSprite16x8 | VeraSprite32x8 | VeraSprite64x8
  | VeraTile8x1 | VeraTile8x2 | VeraTile8x4 | VeraTile8x8
  | VeraTile16x1 | VeraTile16x2 | VeraTile16x4 | VeraTile16x8
  | TedChar | TedCharMulti
  deriving DecidableEq, Repr, Inhabited

inductive Family where
  | vic | antic | vera | ted
  deriving DecidableEq, Repr, Inhabited

structure FormatInfo where
  format : Format
  width : ℕ
  height : ℕ
  pixelWidth : ℕ
  bitsPerPixel : ℕ
  bytesPerRow : ℕ
  stride : BitVec 32
  isSprite : Bool
  lowNibbleFirst : Bool
  family : Family
  deriving DecidableEq, Repr, Inhabited

def formats : List FormatInfo := [
  ⟨.SpriteHires, 24, 21, 1, 1, 3, 64, true, false, .vic⟩,
  ⟨.SpriteMulti, 12, 21, 2, 2, 3, 64, true, false, .vic⟩,
  ⟨.Sprite64, 64, 21, 1, 1, 8, 192, true, false, .vic⟩,
  ⟨.Sprite16, 16, 21, 1, 4, 8, 192, true, false, .vic⟩,
  ⟨.Sprite16Narrow, 6, 21, 1, 4, 3, 64, true, false, .vic⟩,
  ⟨.CharHires, 8, 8, 1, 1, 1, 8, false, false, .vic⟩,
  ⟨.CharMulti, 4, 8, 2, 2, 1, 8, false, false, .vic⟩,
  ⟨.CharFCM, 8, 8, 1, 8, 8, 64, false, false, .vic⟩,
  ⟨.CharNCM, 16, 8, 1, 4, 8, 64, false, true, .vic⟩,
  ⟨.Char16, 8, 16, 1, 1, 1, 16, false, false, .vic⟩,
  ⟨.Char16Multi, 4, 16, 2, 2, 1, 16, false, false, .vic⟩,
  ⟨.Player, 8, 256, 1, 1, 1, 256, true, false, .antic⟩,
  ⟨.Player2Line, 8, 128, 1, 1, 1, 128, true, false, .antic⟩,
  ⟨.AnticChar, 8, 8, 1, 1, 1, 8, false, false, .antic⟩,
  ⟨.AnticChar4, 4, 8, 2, 2, 1, 8, false, false, .antic⟩,
  ⟨.VeraSprite8x4, 8, 8, 1, 4, 4, 32, true, false, .vera⟩,
  ⟨.VeraSprite16x4, 16, 16, 1, 4, 8, 128, true, false, .vera⟩,
  ⟨.VeraSprite32x4, 32, 32, 1, 4, 16, 512, true, false, .vera⟩,
  ⟨.VeraSprite64x4, 64, 64, 1, 4, 32, 2048, true, false, .vera⟩,
  ⟨.VeraSprite8x8, 8, 8, 1, 8, 8, 64, true, false, .vera⟩,
  ⟨.VeraSprite16x8, 16, 16, 1, 8, 16, 256, true, false, .vera⟩,
  ⟨.VeraSprite32x8, 32, 32, 1, 8, 32, 1024, true, false, .vera⟩,
  ⟨.VeraSprite64x8, 64, 64, 1, 8, 64, 4096, true, false, .vera⟩,
  ⟨.VeraTile8x1, 8, 8, 1, 1, 1, 8, false, false, .vera⟩,
  ⟨.VeraTile8x2, 8, 8, 1, 2, 2, 16, false, false, .vera⟩,
  ⟨.VeraTile8x4, 8, 8, 1, 4, 4, 32, false, false, .vera⟩,
  ⟨.VeraTile8x8, 8, 8, 1, 8, 8, 64, false, false, .vera⟩,
  ⟨.VeraTile16x1, 16, 16, 1, 1, 2, 32, false, false, .vera⟩,
  ⟨.VeraTile16x2, 16, 16, 1, 2, 4, 64, false, false, .vera⟩,
  ⟨.VeraTile16x4, 16, 16, 1, 4, 8, 128, false, false, .vera⟩,
  ⟨.VeraTile16x8, 16, 16, 1, 8, 16, 256, false, false, .vera⟩,
  ⟨.TedChar, 8, 8, 1, 1, 1, 8, false, false, .ted⟩,
  ⟨.TedCharMulti, 4, 8, 2, 2, 1, 8, false, false, .ted⟩]

def info (f : Format) : FormatInfo := (formats.find? fun i => i.format = f).getD (formats.headD default)

/-- What every entry of the table keeps to. -/
structure FormatInfo.Sound (fi : FormatInfo) : Prop where
  depth : 0 < fi.bitsPerPixel ∧ fi.bitsPerPixel ≤ 8
  wide : 0 < fi.width ∧ fi.width ≤ 64
  tall : 0 < fi.height ∧ fi.height ≤ 256
  doubled : 0 < fi.pixelWidth ∧ fi.pixelWidth ≤ 2
  row : fi.width ≤ fi.bytesPerRow * (8 / fi.bitsPerPixel)
  narrow : fi.bytesPerRow ≤ 64

theorem info_sound (f : Format) : (info f).Sound := by
  cases f <;> exact ⟨by decide, by decide, by decide, by decide, by decide, by decide⟩

/-! ## One item -/

/-- The bits of one pixel of a byte: the most significant first, or the low nibble. -/
def pixel (fi : FormatInfo) (lowFirst : Bool) (byte : Byte) (p : ℕ) : Byte :=
  let shift := if fi.bitsPerPixel = 4 ∧ lowFirst then p * 4 else 8 - fi.bitsPerPixel * (p + 1)
  byte >>> shift &&& BitVec.ofNat 8 (2 ^ fi.bitsPerPixel - 1)

/-- The pixels of byte `b` of row `r`; those right of the item are left out. -/
def decodeByte (fi : FormatInfo) (lowFirst : Bool) (read : ReadFn) (addr : BitVec 32) (r : ℕ) (out : Buffer Byte)
    (b : ℕ) : Option (Buffer Byte) := do
  let offset ← int (r * fi.bytesPerRow + b : ℕ)
  let byte := read (addr + BitVec.ofInt 32 offset)
  (List.range (8 / fi.bitsPerPixel)).foldlM (fun out p =>
    let x := b * (8 / fi.bitsPerPixel) + p
    if x ≥ fi.width then some out else out.set (r * fi.width + x) (pixel fi lowFirst byte p)) out

def decode (f : Format) (read : ReadFn) (addr : BitVec 32) (swapNibbles : Bool) (rows : ℤ) : Option (Buffer Byte) :=
  let fi := info f
  let height := if rows > 0 then rows.toNat else fi.height
  let lowFirst := fi.lowNibbleFirst != swapNibbles
  (List.range height).foldlM (fun out r =>
    (List.range fi.bytesPerRow).foldlM (decodeByte fi lowFirst read addr r) out) (Buffer.new (fi.width * height) 0)

/-! ## Colours -/

def c64Palette (index : ℤ) : Color :=
  [0xFF000000, 0xFFFFFFFF, 0xFF883932, 0xFF67B6BD, 0xFF8B3F96, 0xFF55A049, 0xFF40318D, 0xFFBFCE72,
    0xFF8B5429, 0xFF574200, 0xFFB86962, 0xFF505050, 0xFF787878, 0xFF94E089, 0xFF7869C4, 0xFF9F9F9F].getD
      (index % 16).toNat 0

structure Colors where
  slot : ℕ → Color := fun i => [0xFF000000, 0xFFFFFFFF, 0xFF888888, 0xFFCCCCCC].getD i 0
  palette : Option (ℤ → Color) := none
  paletteBase : ℤ := 0
  transparent : Color := 0xFF000000

def Colors.lookup (c : Colors) (index : ℤ) : Color := (c.palette.getD c64Palette) index

def colorFor (fi : FormatInfo) (v : Byte) (c : Colors) : Option Color :=
  if fi.family = .vera ∧ fi.bitsPerPixel > 1 then
    -- an offset moves the indices 1 to 15 only
    if v = 0 then some c.transparent
    else if v.toNat ≤ 15 then (int (c.paletteBase + v.toNat)).map fun index => c.lookup (index % 256)
    else some (c.lookup v.toNat)
  else match fi.bitsPerPixel with
    | 1 => some (c.slot (v &&& 1).toNat)
    | 2 => some (c.slot (v &&& 3).toNat)
    | 4 =>
      if v = 0 ∧ fi.isSprite then some c.transparent
      else match c.palette with
        | some palette => (int (c.paletteBase + v.toNat)).map fun index => palette (index % 256)
        | none => some (c64Palette v.toNat)
    | _ => some (c.lookup v.toNat)

/-! ## The sheet -/

structure Sheet where
  width : ℤ
  height : ℤ
  columns : ℤ
  rows : ℤ
  cellW : ℤ
  cellH : ℤ
  gap : ℤ
  count : ℤ
  start : BitVec 32
  stride : BitVec 32
  argb : Buffer Color

def itemAddress (s : Sheet) (index : ℤ) : BitVec 32 := s.start + BitVec.ofInt 32 index * s.stride

/-- The left edge of the item's cell. -/
def cellX (s : Sheet) (i : ℤ) : ℤ := s.gap + i.tmod s.columns * (s.cellW + s.gap)

/-- The top edge of the item's cell. -/
def cellY (s : Sheet) (i : ℤ) : ℤ := s.gap + i.tdiv s.columns * (s.cellH + s.gap)

/-- A row or column of `n` cells with the gaps around and between them. -/
def extent (n cell gap : ℤ) : Option ℤ := do
  let cells ← int (n * cell)
  let gaps ← int (n + 1)
  let gaps ← int (gaps * gap)
  int (cells + gaps)

/-- The measures of the sheet, before anything is drawn. -/
def layout (f : Format) (start : BitVec 32) (count columns : ℤ) (stride : BitVec 32) (gap rows : ℤ) :
    Option Sheet := do
  let fi := info f
  let cellH := if rows > 0 then rows else fi.height
  let cellW : ℤ := fi.width * fi.pixelWidth
  let count := max 0 count
  let columns := max 1 (min columns (max 1 count))
  let gap := max 0 gap
  let rows ← (int (count + columns)).map fun sum => (sum - 1).tdiv columns
  let width ← extent columns cellW gap
  let height ← extent rows cellH gap
  some {
    width := width, height := height, columns := columns, rows := rows, cellW := cellW, cellH := cellH, gap := gap,
    count := count, start := start, stride := if stride ≠ 0 then stride else fi.stride, argb := Buffer.new 0 0 }

/-- A pixel of the item, as wide as the format has it. -/
def drawPixel (fi : FormatInfo) (colors : Colors) (s : Sheet) (ox oy : ℤ) (px : Buffer Byte) (y : ℕ)
    (argb : Buffer Color) (x : ℕ) : Option (Buffer Color) := do
  let v ← px.get (y * fi.width + x)
  let col ← colorFor fi v colors
  let line ← int (oy + y)
  (List.range fi.pixelWidth).foldlM (fun argb (k : ℕ) =>
    argb.set (line * s.width + ox + x * fi.pixelWidth + k).toNat col) argb

def drawItem (f : Format) (read : ReadFn) (colors : Colors) (swapNibbles : Bool) (s : Sheet)
    (argb : Buffer Color) (i : ℕ) : Option (Buffer Color) := do
  let fi := info f
  let _ ← int (s.cellW + s.gap)
  let ox ← int (cellX s i)
  let _ ← int (s.cellH + s.gap)
  let oy ← int (cellY s i)
  let px ← decode f read (itemAddress s i) swapNibbles s.cellH
  (List.range s.cellH.toNat).foldlM (fun argb y =>
    (List.range fi.width).foldlM (drawPixel fi colors s ox oy px y) argb) argb

def renderSheet (f : Format) (read : ReadFn) (start : BitVec 32) (count columns : ℤ) (stride : BitVec 32)
    (colors : Colors) (swapNibbles : Bool) (gap : ℤ) (gridColor : Color) (rows : ℤ) : Option Sheet := do
  let s ← layout f start count columns stride gap rows
  if s.count = 0 then
    some { s with width := 0, height := 0 }
  else do
    let argb ← (List.range s.count.toNat).foldlM (drawItem f read colors swapNibbles s)
      (Buffer.new (s.width * s.height).toNat gridColor)
    some { s with argb := argb }

def itemAt (s : Sheet) (x y : ℤ) : Option ℤ :=
  if s.count = 0 ∨ x < 0 ∨ y < 0 ∨ x ≥ s.width ∨ y ≥ s.height then some (-1)
  else do
    let cx ← int (x - s.gap)
    let cy ← int (y - s.gap)
    if cx < 0 ∨ cy < 0 then some (-1)
    else do
      let stepX ← int (s.cellW + s.gap)
      let stepY ← int (s.cellH + s.gap)
      let col := cx.tdiv stepX
      let row := cy.tdiv stepY
      if cx.tmod stepX ≥ s.cellW ∨ cy.tmod stepY ≥ s.cellH then some (-1)
      else if col ≥ s.columns then some (-1)
      else do
        let idx ← (int (row * s.columns)).bind fun first => int (first + col)
        some (if idx < s.count then idx else -1)

end Mmemu.Source.GfxDecode
