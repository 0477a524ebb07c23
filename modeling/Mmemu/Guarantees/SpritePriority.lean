import Mmemu.Source.Vic2

/-!
# VIC-II: sprites and the background

At each pixel of the display the lowest-numbered enabled sprite with a dot there decides: its colour
is shown, or the background where that is foreground and the sprite behind it. All other pixels stay
as they were.
-/
namespace Mmemu.Guarantees.SpritePriority
open Mmemu.Library.CheckedBuffer Mmemu.Source.Vic2 Mmemu.Source.Vic2.VIC2

variable (m : VIC2) (sp : ℕ)

/-! ## What a sprite shows -/

/-- The frame column of a sprite's first dot. -/
def left : ℤ :=
  DISPLAY_X + ((m.m_regs (SP0X + sp * 2)).toNat + (if m.bit MSIGX sp then 0x100 else 0) - SPRITE_X_ORIGIN)

/-- The frame line of a sprite's first row. -/
def top : ℤ := DISPLAY_Y + ((m.m_regs (SP0Y + sp * 2)).toNat - SPRITE_Y_ORIGIN)

def wide : ℕ := if m.bit XXPAND sp then 2 else 1
def tall : ℕ := if m.bit YXPAND sp then 2 else 1

/-- The bit of a row and a column in the 63 bytes that the sprite's pointer leads to. -/
def dataBit (r b : ℕ) : Bool :=
  let pointer := m.dmaPeek (m.screenBase + 0x03F8 + BitVec.ofNat 32 sp)
  (m.dmaPeek (pointer.setWidth 32 * 64 + BitVec.ofNat 32 (r * 3 + b / 8))).getLsbD (7 - b % 8)

/-- The colour of a row and a column, in pairs of columns where the sprite is multicoloured. -/
def shape (r b : ℕ) : Option Color :=
  if m.bit SPMC sp then
    match dataBit m sp r (b / 2 * 2), dataBit m sp r (b / 2 * 2 + 1) with
    | false, false => none
    | false, true => some (palette (m.m_regs SPMC0))
    | true, false => some (palette (m.m_regs (SP0COL + sp)))
    | true, true => some (palette (m.m_regs SPMC1))
  else if dataBit m sp r b then some (palette (m.m_regs (SP0COL + sp)))
  else none

/-- The colour that a sprite has at a pixel of the frame, if it is not transparent there. -/
def dot (x y : ℤ) : Option Color :=
  if (left m sp ≤ x ∧ x < left m sp + (24 * wide m sp : ℕ)) ∧ top m sp ≤ y ∧ y < top m sp + (21 * tall m sp : ℕ) then
    shape m sp ((y - top m sp).toNat / tall m sp) ((x - left m sp).toNat / wide m sp)
  else none

def Columns (x : ℤ) : Prop := DISPLAY_X ≤ x ∧ x < DISPLAY_X + DISPLAY_W
def Lines (y : ℤ) : Prop := DISPLAY_Y ≤ y ∧ y < DISPLAY_Y + DISPLAY_H

/-- The place of a pixel in the frame. -/
def place (x y : ℤ) : ℕ := y.toNat * FRAME_W + x.toNat

/-! ## What the code takes for a dot -/

variable {m sp}

theorem palette_low (index : BitVec 8) : palette (index &&& 0x0F) = palette index := by
  unfold palette
  rw [BitVec.and_assoc, BitVec.and_self]

theorem sprite_color : (m.sprite sp).spColor = palette (m.m_regs (SP0COL + sp)) := palette_low _

theorem sprite_colors : (m.sprite sp).mcCols =
    [0, palette (m.m_regs SPMC0), palette (m.m_regs (SP0COL + sp)), palette (m.m_regs SPMC1)] := by
  unfold sprite
  dsimp only
  rw [palette_low, palette_low, palette_low]

theorem sprite_left : (m.sprite sp).fx0 = left m sp := by
  unfold sprite left
  dsimp only
  omega

theorem sprite_top : (m.sprite sp).fy0 = top m sp := by
  unfold sprite top
  dsimp only
  omega

theorem wide_pos : 0 < wide m sp := by
  unfold wide
  split <;> decide

theorem tall_pos : 0 < tall m sp := by
  unfold tall
  split <;> decide

theorem rowBits_bit {r b : ℕ} (column : b < 24) :
    (m.rowBits (m.sprite sp) r).getLsbD (23 - b) = dataBit m sp r b := by
  have three : b / 8 = 0 ∨ b / 8 = 1 ∨ b / 8 = 2 := by omega
  have parts := Nat.div_add_mod b 8
  unfold rowBits dataBit
  dsimp only
  rw [BitVec.ofNat_add, ← BitVec.add_assoc]
  change BitVec.getLsbD (_ ||| _ ||| _) _ = BitVec.getLsbD (m.dmaPeek ((m.sprite sp).dataAddr + _ + _)) _
  simp only [BitVec.getLsbD_or, BitVec.getLsbD_shiftLeft, BitVec.getLsbD_setWidth]
  rcases three with first | second | third
  · rw [first, BitVec.ofNat_eq_ofNat, BitVec.add_zero, show 23 - b - 16 = 7 - b % 8 by omega,
      BitVec.getLsbD_of_ge _ (23 - b - 8) (by omega), BitVec.getLsbD_of_ge _ (23 - b) (by omega)]
    simp [show 23 - b < 32 by omega, show ¬23 - b < 16 by omega, show 7 - b % 8 < 32 by omega]
  · rw [second, show 23 - b - 8 = 7 - b % 8 by omega, BitVec.getLsbD_of_ge _ (23 - b) (by omega)]
    simp [show 23 - b < 32 by omega, show 23 - b < 16 by omega, show ¬23 - b < 8 by omega,
      show 7 - b % 8 < 32 by omega]
  · rw [third, show 23 - b = 7 - b % 8 by omega]
    simp [show 7 - b % 8 < 32 by omega, show 7 - b % 8 < 16 by omega, show 7 - b % 8 < 8 by omega]

/-- The two low bits of a number. -/
theorem low_pair (v : BitVec 32) :
    v &&& 3 = if v.getLsbD 1 then (if v.getLsbD 0 then 3 else 2) else if v.getLsbD 0 then 1 else 0 := by
  have high : v.getLsbD 1 = decide (v.toNat / 2 % 2 = 1) := Nat.testBit_eq_decide_div_mod_eq
  have low : v.getLsbD 0 = decide (v.toNat % 2 = 1) := Nat.testBit_zero v.toNat
  have masked : (v &&& 3).toNat = v.toNat % 4 := Nat.and_two_pow_sub_one_eq_mod v.toNat 2
  apply BitVec.eq_of_toNat_eq
  rw [masked, high, low]
  simp only [decide_eq_true_eq]
  split <;> split
  · change _ = 3
    omega
  · change _ = 2
    omega
  · change _ = 1
    omega
  · change _ = 0
    omega

theorem dotColor_eq {r b : ℕ} (column : b < 24) :
    dotColor (m.sprite sp) (m.rowBits (m.sprite sp) r) b = shape m sp r b := by
  unfold dotColor shape
  change (if m.bit SPMC sp then _ else _) = _
  by_cases multi : m.bit SPMC sp
  · rw [if_pos multi, if_pos multi]
    have high := @rowBits_bit m sp r (b / 2 * 2) (by omega)
    have low := @rowBits_bit m sp r (b / 2 * 2 + 1) (by omega)
    dsimp only
    rw [low_pair, BitVec.getLsbD_ushiftRight, BitVec.getLsbD_ushiftRight,
      show 22 - b / 2 * 2 + 1 = 23 - b / 2 * 2 by omega, high,
      show 22 - b / 2 * 2 + 0 = 23 - (b / 2 * 2 + 1) by omega, low, sprite_colors]
    cases dataBit m sp r (b / 2 * 2) <;> cases dataBit m sp r (b / 2 * 2 + 1) <;> rfl
  · rw [if_neg multi, if_neg multi, rowBits_bit column, sprite_color]

/-- A row without a bit has no dot. -/
theorem shape_of_rowBits_zero {r b : ℕ} (blank : m.rowBits (m.sprite sp) r = 0) (column : b < 24) :
    shape m sp r b = none := by
  rw [← dotColor_eq column, blank]
  unfold dotColor
  split <;> simp

/-! ## Where the loops draw -/

theorem place_inj {x y x' y' : ℤ} (inX : Columns x) (inY : Lines y) (inX' : Columns x') (inY' : Lines y')
    (same : place x y = place x' y') : x = x' ∧ y = y' := by
  unfold Columns Lines at *
  unfold place at same
  simp only [DISPLAY_X, DISPLAY_Y, DISPLAY_W, DISPLAY_H, FRAME_W] at *
  omega

theorem place_lt {x y : ℤ} (inX : Columns x) (inY : Lines y) : place x y < FRAME_W * FRAME_H := by
  unfold Columns Lines at *
  unfold place
  simp only [DISPLAY_X, DISPLAY_Y, DISPLAY_W, DISPLAY_H, FRAME_W, FRAME_H] at *
  omega

/-- What a sprite draws at a place. -/
def Drawn (m : VIC2) (sp j : ℕ) (a : Color × ℤ) : Prop :=
  ∃ x y, Columns x ∧ Lines y ∧ j = place x y ∧ dot m sp x y = some a.1 ∧ a.2 = sp

theorem drawn_once (j : ℕ) (a a' : Color × ℤ) (one : Drawn m sp j a) (other : Drawn m sp j a') : a = a' := by
  obtain ⟨x, y, inX, inY, rfl, color, number⟩ := one
  obtain ⟨x', y', inX', inY', same, color', number'⟩ := other
  obtain ⟨rfl, rfl⟩ := place_inj inX inY inX' inY' same
  exact Prod.ext (Option.some.inj (color.symm.trans color')) (number.trans number'.symm)

/-- The pixel of a row and a column, and the line and the dot of an expanded one. -/
def px (m : VIC2) (sp b dx : ℕ) : ℤ := left m sp + (b * wide m sp + dx : ℕ)
def py (m : VIC2) (sp r dy : ℕ) : ℤ := top m sp + (r * tall m sp + dy : ℕ)

theorem scaled {n k i d : ℕ} (below : k < n) (within : i < d) : k * d + i < n * d ∧ (k * d + i) / d = k := by
  have last := index_lt below within
  rw [Nat.mul_comm d] at last
  exact ⟨last, ((Nat.div_mod_unique (Nat.zero_lt_of_lt within)).mpr ⟨by rw [Nat.mul_comm, Nat.add_comm], within⟩).1⟩

theorem dot_at {r b dx dy : ℕ} (row : r < 21) (column : b < 24) (within : dx < wide m sp) (high : dy < tall m sp) :
    dot m sp (px m sp b dx) (py m sp r dy) = shape m sp r b := by
  obtain ⟨right, of_column⟩ := scaled column within
  obtain ⟨bottom, of_row⟩ := scaled row high
  unfold dot px py
  rw [if_pos ⟨⟨by omega, by omega⟩, by omega, by omega⟩]
  rw [show (left m sp + (b * wide m sp + dx : ℕ) - left m sp).toNat = b * wide m sp + dx by omega,
    show (top m sp + (r * tall m sp + dy : ℕ) - top m sp).toNat = r * tall m sp + dy by omega, of_column, of_row]

/-- Every dot is one of the pixels that the loops go through. -/
theorem dot_from {x y : ℤ} {c : Color} (color : dot m sp x y = some c) :
    ∃ r < 21, ∃ dy < tall m sp, y = py m sp r dy ∧ ∃ b < 24, shape m sp r b = some c ∧
      ∃ dx < wide m sp, x = px m sp b dx := by
  unfold dot at color
  split at color
  next inside =>
    obtain ⟨⟨x_low, x_high⟩, y_low, y_high⟩ := inside
    have row := Nat.div_add_mod (y - top m sp).toNat (tall m sp)
    have column := Nat.div_add_mod (x - left m sp).toNat (wide m sp)
    rw [Nat.mul_comm] at row column
    refine ⟨(y - top m sp).toNat / tall m sp, Nat.div_lt_of_lt_mul ?_, (y - top m sp).toNat % tall m sp,
      Nat.mod_lt _ tall_pos, ?_, (x - left m sp).toNat / wide m sp, Nat.div_lt_of_lt_mul ?_, color,
      (x - left m sp).toNat % wide m sp, Nat.mod_lt _ wide_pos, ?_⟩
    · rw [Nat.mul_comm]
      omega
    · unfold py
      omega
    · rw [Nat.mul_comm]
      omega
    · unfold px
      omega
  next beside => cases color

/-- The places that a column of a row of a sprite covers on a line. -/
def ColumnAt (m : VIC2) (sp r : ℕ) (y : ℤ) (b j : ℕ) : Prop :=
  (shape m sp r b).isSome ∧ ∃ dx < wide m sp, Columns (px m sp b dx) ∧ j = place (px m sp b dx) y

/-- The places that a row of a sprite covers. -/
def RowAt (m : VIC2) (sp r j : ℕ) : Prop :=
  ∃ dy < tall m sp, Lines (py m sp r dy) ∧ ∃ b < 24, ColumnAt m sp r (py m sp r dy) b j

section
variable {before layer : Layer} {written : ℕ → Prop} (size : before.size = FRAME_W * FRAME_H)
include size

theorem drawColumn_shows {r dy b : ℕ} (row : r < 21) (high : dy < tall m sp) (inY : Lines (py m sp r dy))
    (column : b < 24) (shows_ : Buffer.Shows (Drawn m sp) before written layer) :
    ∃ layer', drawColumn (m.sprite sp) sp (m.rowBits (m.sprite sp) r) (py m sp r dy) layer b = some layer' ∧
      Buffer.Shows (Drawn m sp) before (fun j => written j ∨ ColumnAt m sp r (py m sp r dy) b j) layer' := by
  unfold drawColumn ColumnAt
  rw [dotColor_eq column]
  cases color : shape m sp r b with
  | none =>
    refine ⟨layer, rfl, shows_.congr fun j => ?_⟩
    simp
  | some c =>
    dsimp only
    rw [sprite_left]
    obtain ⟨layer', ran, shows'⟩ := shows_.foldlM (n := wide m sp) (f := fun layer dx =>
        if px m sp b dx < DISPLAY_X ∨ px m sp b dx ≥ DISPLAY_X + DISPLAY_W then some layer
        else layer.set (place (px m sp b dx) (py m sp r dy)) (c, (sp : ℤ)))
      (fun dx j => Columns (px m sp b dx) ∧ j = place (px m sp b dx) (py m sp r dy)) fun dx within written layer shows_ => by
        by_cases inX : Columns (px m sp b dx)
        · have kept : ¬(px m sp b dx < DISPLAY_X ∨ px m sp b dx ≥ DISPLAY_X + DISPLAY_W) := by
            unfold Columns at inX
            omega
          rw [if_neg kept]
          obtain ⟨layer', ran, shows'⟩ := shows_.set drawn_once (x := (c, (sp : ℤ))) (size ▸ place_lt inX inY)
            ⟨_, _, inX, inY, rfl, (dot_at row column within high).trans color, rfl⟩
          exact ⟨layer', ran, shows'.congr fun j => or_congr_right (and_iff_right inX).symm⟩
        · have skipped : px m sp b dx < DISPLAY_X ∨ px m sp b dx ≥ DISPLAY_X + DISPLAY_W := by
            unfold Columns at inX
            omega
          rw [if_pos skipped]
          exact ⟨layer, rfl, shows_.congr fun j => (or_iff_left fun here => inX here.1).symm⟩
    refine ⟨layer', ran, shows'.congr fun j => or_congr_right ?_⟩
    simp

theorem drawRow_shows {r : ℕ} (row : r < 21) (shows_ : Buffer.Shows (Drawn m sp) before written layer) :
    ∃ layer', m.drawRow (m.sprite sp) sp layer r = some layer' ∧
      Buffer.Shows (Drawn m sp) before (fun j => written j ∨ RowAt m sp r j) layer' := by
  unfold drawRow RowAt
  dsimp only
  split
  next blank =>
    refine ⟨layer, rfl, shows_.congr fun j => (or_iff_left ?_).symm⟩
    rintro ⟨dy, -, -, b, column, dot_, -⟩
    rw [shape_of_rowBits_zero blank column] at dot_
    cases dot_
  next =>
    rw [sprite_top]
    exact shows_.foldlM (n := tall m sp) (f := fun layer dy =>
        if py m sp r dy < DISPLAY_Y ∨ py m sp r dy ≥ DISPLAY_Y + DISPLAY_H then some layer
        else (List.range 24).foldlM (drawColumn (m.sprite sp) sp (m.rowBits (m.sprite sp) r) (py m sp r dy)) layer)
      (fun dy j => Lines (py m sp r dy) ∧ ∃ b < 24, ColumnAt m sp r (py m sp r dy) b j) fun dy high written layer shows_ => by
        by_cases inY : Lines (py m sp r dy)
        · have kept : ¬(py m sp r dy < DISPLAY_Y ∨ py m sp r dy ≥ DISPLAY_Y + DISPLAY_H) := by
            unfold Lines at inY
            omega
          rw [if_neg kept]
          obtain ⟨layer', ran, shows'⟩ := shows_.foldlM (n := 24) (ColumnAt m sp r (py m sp r dy)) fun b column _ _ shows_ =>
            drawColumn_shows size row high inY column shows_
          exact ⟨layer', ran, shows'.congr fun j => or_congr_right (and_iff_right inY).symm⟩
        · have skipped : py m sp r dy < DISPLAY_Y ∨ py m sp r dy ≥ DISPLAY_Y + DISPLAY_H := by
            unfold Lines at inY
            omega
          rw [if_pos skipped]
          exact ⟨layer, rfl, shows_.congr fun j => (or_iff_left fun here => inY here.1).symm⟩

end

/-- What a sprite has at a pixel of the display, if it is enabled. -/
def own (m : VIC2) (sp : ℕ) (x y : ℤ) : Option (Color × ℤ) :=
  if m.bit SPENA sp then (dot m sp x y).map fun c => (c, (sp : ℤ)) else none

theorem drawSprite_eq {before : Layer} (size : before.size = FRAME_W * FRAME_H) (sp : ℕ) :
    ∃ layer, m.drawSprite sp before = some layer ∧ layer.size = before.size ∧
      (∀ x y, Columns x → Lines y → layer.item (place x y) = (own m sp x y).getD (before.item (place x y))) ∧
      ∀ j, (∀ x y, Columns x → Lines y → j ≠ place x y) → layer.item j = before.item j := by
  unfold drawSprite own
  split
  next enabled =>
    obtain ⟨layer, ran, shows_⟩ := (@Buffer.Shows.start _ (Drawn m sp) before).foldlM (n := 21) (RowAt m sp)
      fun r row _ _ shows_ => drawRow_shows size row shows_
    refine ⟨layer, ran, shows_.size, fun x y inX inY => ?_, fun j out => shows_.blank j ?_⟩
    · cases color : dot m sp x y with
      | some c =>
        obtain ⟨r, row, dy, high, rfl, b, column, shape_, dx, within, rfl⟩ := dot_from color
        refine shows_.drawn _ (c, (sp : ℤ)) (.inr ⟨r, row, dy, high, inY, b, column, ?_, dx, within, inX, rfl⟩)
          ⟨_, _, inX, inY, rfl, color, rfl⟩
        rw [shape_]
        rfl
      | none =>
        refine shows_.blank _ ?_
        rintro (no | ⟨r, row, dy, high, inY', b, column, shape_, dx, within, inX', same⟩)
        · exact no
        · obtain ⟨rfl, rfl⟩ := place_inj inX inY inX' inY' same
          rw [← dot_at row column within high, color] at shape_
          cases shape_
    · rintro (no | ⟨r, row, dy, high, inY, b, column, shape_, dx, within, inX, same⟩)
      · exact no
      · exact out _ _ inX inY same
  next disabled => exact ⟨before, rfl, rfl, fun _ _ _ _ => rfl, fun _ _ => rfl⟩

/-! ## The winner -/

/-- What the lowest of the sprites below a number has at a pixel. -/
def winner (m : VIC2) : ℕ → ℤ → ℤ → Option (Color × ℤ)
  | 0, _, _ => none
  | n + 1, x, y => (winner m n x y).or (own m n x y)

theorem winner_succ (n : ℕ) (x y : ℤ) : winner m (n + 1) x y = (winner m n x y).or (own m n x y) := rfl

theorem winner_none {x y : ℤ} {n : ℕ} : winner m n x y = none ↔ ∀ sp < n, own m sp x y = none := by
  induction n with
  | zero => simp [winner]
  | succ n ih =>
    rw [winner_succ, Option.or_eq_none_iff, ih]
    constructor
    · intro both sp below
      obtain earlier | rfl := Nat.lt_succ_iff_lt_or_eq.mp below
      · exact both.1 sp earlier
      · exact both.2
    · exact fun all => ⟨fun sp below => all sp (by omega), all n (by omega)⟩

theorem winner_first {x y : ℤ} {n sp : ℕ} {a : Color × ℤ} (below : sp < n) (shows_ : own m sp x y = some a)
    (lowest : ∀ sp' < sp, own m sp' x y = none) : winner m n x y = some a := by
  induction n with
  | zero => omega
  | succ n ih =>
    rw [winner_succ]
    obtain earlier | rfl := Nat.lt_succ_iff_lt_or_eq.mp below
    · rw [ih earlier, Option.some_or]
    · rw [winner_none.mpr lowest, Option.none_or, shows_]

theorem drawSprites_eq {before : Layer} (size : before.size = FRAME_W * FRAME_H) (n : ℕ) :
    ∃ layer, m.drawSprites n before = some layer ∧ layer.size = before.size ∧
      (∀ x y, Columns x → Lines y → layer.item (place x y) = (winner m n x y).getD (before.item (place x y))) ∧
      ∀ j, (∀ x y, Columns x → Lines y → j ≠ place x y) → layer.item j = before.item j := by
  induction n generalizing before with
  | zero => exact ⟨before, rfl, rfl, fun _ _ _ _ => rfl, fun _ _ => rfl⟩
  | succ n ih =>
    obtain ⟨first, ran, size', drawn, blank⟩ := drawSprite_eq (m := m) size n
    obtain ⟨layer, ran', size'', drawn', blank'⟩ := ih (size'.trans size)
    refine ⟨layer, ?_, size''.trans size', fun x y inX inY => ?_, fun j out => (blank' j out).trans (blank j out)⟩
    · unfold drawSprites
      rw [ran]
      exact ran'
    · rw [drawn' x y inX inY, drawn x y inX inY, winner_succ]
      cases winner m n x y with
      | none => rfl
      | some a => rfl

/-! ## The picture -/

/-- A frame of pixels. -/
def frame {α : Type} (item : ℕ → α) : Buffer α := ⟨FRAME_W * FRAME_H, item⟩

/-- The sprite is behind the foreground at a place. -/
def Behind (m : VIC2) (fgMask : Option (ℕ → BitVec 8)) (sp j : ℕ) : Prop :=
  m.bit SPBGPR sp = true ∧ ∃ mask ∈ fgMask, mask j ≠ 0

instance (fgMask : Option (ℕ → BitVec 8)) (j : ℕ) : Decidable (Behind m fgMask sp j) := by
  unfold Behind
  infer_instance

/-- The picture with the sprites over it. -/
structure Rendered (m : VIC2) (fgMask : Option (ℕ → BitVec 8)) (buf buf' : ℕ → Color) : Prop where
  outside : ∀ x y : ℕ, x < FRAME_W → y < FRAME_H → ¬(Columns x ∧ Lines y) → buf' (place x y) = buf (place x y)
  uncovered : ∀ x y : ℤ, Columns x → Lines y → (∀ sp < 8, m.bit SPENA sp = true → dot m sp x y = none) →
    buf' (place x y) = buf (place x y)
  covered : ∀ (x y : ℤ) (sp : ℕ) (c : Color), Columns x → Lines y → sp < 8 → m.bit SPENA sp = true →
    dot m sp x y = some c → (∀ sp' < sp, m.bit SPENA sp' = true → dot m sp' x y = none) →
    buf' (place x y) = if Behind m fgMask sp (place x y) then buf (place x y) else c

/-- A sprite is seen at a place of the layer. -/
def Seen (m : VIC2) (fgMask : Option (ℕ → BitVec 8)) (layer : Layer) (j : ℕ) : Prop :=
  0 ≤ (layer.item j).2 ∧ ¬Behind m fgMask (layer.item j).2.toNat j

theorem compose_eq {layer : Layer} (size : layer.size = FRAME_W * FRAME_H) (fgMask : Option (ℕ → BitVec 8))
    {buf : Buffer Color} {i : ℕ} (inside : i < FRAME_W * FRAME_H) :
    (Seen m fgMask layer i → m.compose (fgMask.map frame) layer buf i = buf.set i (layer.item i).1) ∧
      (¬Seen m fgMask layer i → m.compose (fgMask.map frame) layer buf i = some buf) := by
  unfold compose Seen Behind
  rw [Buffer.get_of_lt (size ▸ inside), Option.bind_eq_bind, Option.bind_some]
  generalize layer.item i = a
  obtain ⟨c, sp⟩ := a
  dsimp only
  by_cases none_ : sp < 0
  · rw [if_pos none_]
    exact ⟨fun seen => by omega, fun _ => rfl⟩
  rw [if_neg none_]
  cases fgMask with
  | none =>
    refine ⟨fun _ => rfl, fun hidden => absurd ⟨by omega, ?_⟩ hidden⟩
    rintro ⟨-, mask, mem, -⟩
    cases mem
  | some mask =>
    rw [Option.map_some]
    dsimp only
    by_cases behind : m.bit SPBGPR sp.toNat
    · rw [if_pos behind, Buffer.get_of_lt inside]
      change (_ → (if (mask i != 0) = true then some buf else _) = _) ∧
        (_ → (if (mask i != 0) = true then some buf else _) = _)
      by_cases fg : mask i = 0
      · rw [if_neg (by simp [fg])]
        refine ⟨fun _ => rfl, fun hidden => absurd ⟨by omega, ?_⟩ hidden⟩
        rintro ⟨-, mask', mem, nonzero⟩
        cases mem
        exact nonzero fg
      · rw [if_pos (by simpa using fg)]
        exact ⟨fun seen => absurd ⟨behind, mask, rfl, fg⟩ seen.2, fun _ => rfl⟩
    · rw [if_neg behind]
      exact ⟨fun _ => rfl, fun hidden => absurd ⟨by omega, fun covered => behind covered.1⟩ hidden⟩

/-- Every place shows what the layer has there where it is seen, and the picture elsewhere. -/
theorem compose_all {layer : Layer} (size : layer.size = FRAME_W * FRAME_H) (fgMask : Option (ℕ → BitVec 8))
    (buf : ℕ → Color) :
    ∃ buf', (List.range (FRAME_W * FRAME_H)).foldlM (m.compose (fgMask.map frame) layer) (frame buf) =
        some (frame buf') ∧
      ∀ j < FRAME_W * FRAME_H, (Seen m fgMask layer j → buf' j = (layer.item j).1) ∧
        (¬Seen m fgMask layer j → buf' j = buf j) := by
  obtain ⟨out, ran, shows_⟩ := (@Buffer.Shows.start _ (fun j c => c = (layer.item j).1) (frame buf)).foldlM
    (n := FRAME_W * FRAME_H) (f := m.compose (fgMask.map frame) layer) (fun i j => Seen m fgMask layer i ∧ j = i) fun i inside written out shows_ => by
      by_cases seen : Seen m fgMask layer i
      · rw [(compose_eq size fgMask inside).1 seen]
        obtain ⟨out', ran, shows'⟩ := shows_.set (fun j c c' one other => one.trans other.symm) inside rfl
        exact ⟨out', ran, shows'.congr fun j => or_congr_right (and_iff_right seen).symm⟩
      · rw [(compose_eq size fgMask inside).2 seen]
        exact ⟨out, rfl, shows_.congr fun j => (or_iff_left fun here => seen here.1).symm⟩
  refine ⟨out.item, ?_, fun j inside => ⟨fun seen => ?_, fun hidden => ?_⟩⟩
  · rw [ran]
    refine congrArg some ?_
    cases out
    exact congrArg (Buffer.mk · _) shows_.size
  · exact shows_.drawn j _ (.inr ⟨j, inside, seen, rfl⟩) rfl
  · refine shows_.blank j ?_
    rintro (no | ⟨i, -, seen, rfl⟩)
    · exact no
    · exact hidden seen

/-- Sprites over a picture: the lowest-numbered enabled sprite with a dot at a pixel of the display
decides it, also where it lies behind the foreground. -/
theorem renderSprites_priority (m : VIC2) (fgMask : Option (ℕ → BitVec 8)) (buf : ℕ → Color) :
    ∃ buf', m.renderSprites (frame buf) (fgMask.map frame) = some (frame buf') ∧ Rendered m fgMask buf buf' := by
  unfold renderSprites
  split
  next disabled =>
    have none_ : ∀ sp, m.bit SPENA sp = false := by
      intro sp
      unfold bit
      rw [disabled]
      exact BitVec.getLsbD_zero
    refine ⟨buf, rfl, fun _ _ _ _ _ => rfl, fun _ _ _ _ _ => rfl, ?_⟩
    intro x y sp c inX inY below enabled
    rw [none_ sp] at enabled
    cases enabled
  next =>
    have empty : (Buffer.new (FRAME_W * FRAME_H) (0, -1) : Layer).size = FRAME_W * FRAME_H := rfl
    obtain ⟨layer, ran, size, drawn, blank⟩ := drawSprites_eq (m := m) empty 8
    obtain ⟨buf', composed, all⟩ := compose_all (m := m) size fgMask buf
    refine ⟨buf', ?_, ?_, ?_, ?_⟩
    · rw [ran, Option.bind_eq_bind, Option.bind_some]
      exact composed
    · intro x y inW inH outside
      have apart : ∀ x' y', Columns x' → Lines y' → place x y ≠ place x' y' := by
        intro x' y' inX inY same
        refine outside ?_
        unfold Columns Lines at *
        unfold place at same
        simp only [DISPLAY_X, DISPLAY_Y, DISPLAY_W, DISPLAY_H, FRAME_W, FRAME_H] at *
        omega
      have inside : place x y < FRAME_W * FRAME_H := by
        unfold place
        rw [Int.toNat_natCast, Int.toNat_natCast]
        exact index_lt inH inW
      refine (all _ inside).2 ?_
      unfold Seen
      rw [blank _ apart]
      exact fun seen => absurd (show (0 : ℤ) ≤ -1 from seen.1) (by decide)
    · intro x y inX inY uncovered
      refine (all _ (place_lt inX inY)).2 ?_
      have no_winner : winner m 8 x y = none := winner_none.mpr fun sp below => by
        unfold own
        split
        next enabled => rw [uncovered sp below enabled, Option.map_none]
        next => rfl
      unfold Seen
      rw [drawn x y inX inY, no_winner]
      exact fun seen => absurd (show (0 : ℤ) ≤ -1 from seen.1) (by decide)
    · intro x y sp c inX inY below enabled color lowest
      have shows_ : own m sp x y = some (c, (sp : ℤ)) := by
        unfold own
        rw [if_pos enabled, color, Option.map_some]
      have won : winner m 8 x y = some (c, (sp : ℤ)) := winner_first below shows_ fun sp' lower => by
        unfold own
        split
        next enabled' => rw [lowest sp' lower enabled', Option.map_none]
        next => rfl
      have item : layer.item (place x y) = (c, (sp : ℤ)) := by rw [drawn x y inX inY, won, Option.getD_some]
      obtain ⟨seen_eq, hidden_eq⟩ := all _ (place_lt inX inY)
      unfold Seen at seen_eq hidden_eq
      rw [item] at seen_eq hidden_eq
      split
      next behind => exact hidden_eq fun seen => seen.2 behind
      next free => exact seen_eq ⟨Int.natCast_nonneg sp, free⟩

end Mmemu.Guarantees.SpritePriority
