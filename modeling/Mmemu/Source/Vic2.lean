import Mathlib.Data.BitVec
import Mathlib.Data.Int.Notation
import Mmemu.Library.CheckedBuffer

/-!
# VIC-II sprites

Source: `renderSprites` of src/plugins/devices/vic2/main/vic2.cpp. What the chip reads at an address
of its bank is a parameter. The vectors `col` and `owner` are written together and are one buffer.
-/
namespace Mmemu.Source.Vic2
open Mmemu.Library.CheckedBuffer

abbrev Color := BitVec 32

def FRAME_W : ℕ := 384
def FRAME_H : ℕ := 272
def DISPLAY_X : ℤ := 32
def DISPLAY_Y : ℤ := 36
def DISPLAY_W : ℤ := 320
def DISPLAY_H : ℤ := 200

/-- The sprite coordinates of the top left pixel of the display. -/
def SPRITE_X_ORIGIN : ℤ := 24
def SPRITE_Y_ORIGIN : ℤ := 50

/-! ## Registers -/

def SP0X : ℕ := 0x00
def SP0Y : ℕ := 0x01
def MSIGX : ℕ := 0x10
def SPENA : ℕ := 0x15
def YXPAND : ℕ := 0x17
def VMEM : ℕ := 0x18
def SPBGPR : ℕ := 0x1B
def SPMC : ℕ := 0x1C
def XXPAND : ℕ := 0x1D
def SPMC0 : ℕ := 0x25
def SPMC1 : ℕ := 0x26
def SP0COL : ℕ := 0x27

structure VIC2 where
  m_regs : ℕ → BitVec 8
  dmaPeek : BitVec 32 → BitVec 8

def s_palette : List Color := [
  0xFF000000, 0xFFFFFFFF, 0xFF68372B, 0xFF70A4B2, 0xFF6F3D86, 0xFF588D43, 0xFF352879, 0xFFB8C76F,
  0xFF6F4F25, 0xFF433900, 0xFF9A6759, 0xFF444444, 0xFF6C6C6C, 0xFF9AD284, 0xFF6C5EB5, 0xFF959595]

def palette (index : BitVec 8) : Color := s_palette.getD (index &&& 0x0F).toNat 0

namespace VIC2
variable (m : VIC2)

def screenBase : BitVec 32 := ((m.m_regs VMEM >>> 4) &&& 0x0F).setWidth 32 * 0x0400

/-- The bit of a sprite in a register with one bit for each. -/
def bit (reg sp : ℕ) : Bool := (m.m_regs reg).getLsbD sp

/-! ## One sprite -/

/-- What the loop over the sprites takes from the registers for one of them. -/
structure Sprite where
  fx0 : ℤ
  fy0 : ℤ
  multi : Bool
  spColor : Color
  mcCols : List Color
  dataAddr : BitVec 32
  xScale : ℕ
  yScale : ℕ

def sprite (sp : ℕ) : Sprite :=
  let spX : ℤ := (m.m_regs (SP0X + sp * 2)).toNat + if m.bit MSIGX sp then 0x100 else 0
  let spY : ℤ := (m.m_regs (SP0Y + sp * 2)).toNat
  let spColor := palette (m.m_regs (SP0COL + sp) &&& 0x0F)
  { fx0 := spX - SPRITE_X_ORIGIN + DISPLAY_X
    fy0 := spY - SPRITE_Y_ORIGIN + DISPLAY_Y
    multi := m.bit SPMC sp
    spColor
    mcCols := [0, palette (m.m_regs SPMC0 &&& 0x0F), spColor, palette (m.m_regs SPMC1 &&& 0x0F)]
    dataAddr := (m.dmaPeek (m.screenBase + 0x03F8 + BitVec.ofNat 32 sp)).setWidth 32 * 64
    xScale := if m.bit XXPAND sp then 2 else 1
    yScale := if m.bit YXPAND sp then 2 else 1 }

/-- The bytes of a row, the first in front. -/
def rowBits (s : Sprite) (r : ℕ) : BitVec 32 :=
  let addr := s.dataAddr + BitVec.ofNat 32 (r * 3)
  (m.dmaPeek addr).setWidth 32 <<< 16 ||| (m.dmaPeek (addr + 1)).setWidth 32 <<< 8 |||
    (m.dmaPeek (addr + 2)).setWidth 32

/-- The colour of a column, unless it is transparent. -/
def dotColor (s : Sprite) (rowBits : BitVec 32) (b : ℕ) : Option Color :=
  if s.multi then
    let sel := (rowBits >>> (22 - b / 2 * 2)) &&& 3
    if sel = 0 then none else some (s.mcCols.getD sel.toNat 0)
  else if rowBits.getLsbD (23 - b) then some s.spColor
  else none

/-- A colour and the number of the sprite that it is of; the number is -1 where no sprite is. -/
abbrev Layer := Buffer (Color × ℤ)

/-- The pixels of a column, which is two wide where the sprite is expanded. -/
def drawColumn (s : Sprite) (sp : ℕ) (rowBits : BitVec 32) (py : ℤ) (layer : Layer) (b : ℕ) : Option Layer :=
  match dotColor s rowBits b with
  | none => some layer
  | some c =>
    (List.range s.xScale).foldlM (fun layer dx =>
      let px := s.fx0 + (b * s.xScale + dx : ℕ)
      if px < DISPLAY_X ∨ px ≥ DISPLAY_X + DISPLAY_W then some layer
      else layer.set (py.toNat * FRAME_W + px.toNat) (c, sp)) layer

/-- A row, which is two lines high where the sprite is expanded. -/
def drawRow (s : Sprite) (sp : ℕ) (layer : Layer) (r : ℕ) : Option Layer :=
  let rowBits := m.rowBits s r
  if rowBits = 0 then some layer
  else
    (List.range s.yScale).foldlM (fun layer dy =>
      let py := s.fy0 + (r * s.yScale + dy : ℕ)
      if py < DISPLAY_Y ∨ py ≥ DISPLAY_Y + DISPLAY_H then some layer
      else (List.range 24).foldlM (drawColumn s sp rowBits py) layer) layer

def drawSprite (sp : ℕ) (layer : Layer) : Option Layer :=
  if m.bit SPENA sp then (List.range 21).foldlM (m.drawRow (m.sprite sp) sp) layer else some layer

/-! ## All sprites -/

/-- The sprites below a number, the highest first. -/
def drawSprites : ℕ → Layer → Option Layer
  | 0, layer => some layer
  | sp + 1, layer => do drawSprites sp (← m.drawSprite sp layer)

/-- A pixel of the sprites over the picture, unless it lies behind the foreground. -/
def compose (fgMask : Option (Buffer (BitVec 8))) (layer : Layer) (buf : Buffer Color) (i : ℕ) :
    Option (Buffer Color) := do
  let (c, sp) ← layer.get i
  if sp < 0 then return buf
  let covered ← match fgMask with
    | none => some false
    | some mask => if m.bit SPBGPR sp.toNat then (mask.get i).map (· != 0) else some false
  if covered then return buf
  buf.set i c

def renderSprites (buf : Buffer Color) (fgMask : Option (Buffer (BitVec 8))) : Option (Buffer Color) :=
  if m.m_regs SPENA = 0 then some buf
  else do
    let layer ← m.drawSprites 8 (Buffer.new (FRAME_W * FRAME_H) (0, -1))
    (List.range (FRAME_W * FRAME_H)).foldlM (m.compose fgMask layer) buf

end VIC2
end Mmemu.Source.Vic2
