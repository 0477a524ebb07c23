import Mmemu.Source.GfxDecode

/-!
# Graphics sheets and their items

Each item of a sheet has a cell of its own, the cell shows the bytes at the item's address, and a
pixel leads back to the item whose cell it lies in.
-/
namespace Mmemu.Guarantees.SheetCells
open Mmemu.Library.CheckedBuffer Mmemu.Source.GfxDecode

theorem int_eq {n : ℤ} (low : -0x80000000 ≤ n) (high : n < 0x80000000) : int n = some n := if_pos ⟨low, high⟩

/-! ## The cells -/

def Item (s : Sheet) (i : ℤ) : Prop := 0 ≤ i ∧ i < s.count

/-- The cell drawn for item `i`. -/
def InCell (s : Sheet) (i x y : ℤ) : Prop :=
  (cellX s i ≤ x ∧ x < cellX s i + s.cellW) ∧ cellY s i ≤ y ∧ y < cellY s i + s.cellH

/-- The measures of a sheet with items. -/
structure Laid (s : Sheet) : Prop where
  some_ : 0 < s.count
  columns : 0 < s.columns
  cellW : 0 < s.cellW
  cellH : 0 < s.cellH
  gap : 0 ≤ s.gap
  width : s.width = s.columns * (s.cellW + s.gap) + s.gap
  height : s.height = s.rows * (s.cellH + s.gap) + s.gap
  room : s.count ≤ s.rows * s.columns
  fits : s.width < 0x80000000 ∧ s.height < 0x80000000 ∧ s.rows * s.columns < 0x80000000

variable {s : Sheet} {i j x y : ℤ}

theorem Laid.draw (laid : Laid s) (argb : Buffer Color) : Laid { s with argb := argb } :=
  ⟨laid.some_, laid.columns, laid.cellW, laid.cellH, laid.gap, laid.width, laid.height, laid.room, laid.fits⟩

/-- A stretch of `w` at each multiple of `c`. -/
theorem span {c w t m : ℤ} (pos : 0 < c) (narrow : w ≤ c) :
    (m * c ≤ t ∧ t < m * c + w) ↔ t / c = m ∧ t % c < w := by
  have parts := Int.mul_ediv_add_emod t c
  have low := Int.emod_nonneg t pos.ne'
  refine ⟨fun inside => ?_, fun same => ?_⟩
  · have unique := (Int.ediv_emod_unique (a := t) (r := t - m * c) (q := m) pos).mpr
      ⟨by rw [Int.mul_comm c m]; omega, by omega, by omega⟩
    exact ⟨unique.1, by rw [unique.2]; omega⟩
  · rw [same.1, Int.mul_comm c m] at parts
    omega

/-- The item of the cell under a pixel, were there no gaps. -/
def place (s : Sheet) (x y : ℤ) : ℤ := (y - s.gap) / (s.cellH + s.gap) * s.columns + (x - s.gap) / (s.cellW + s.gap)

/-- The pixel lies in a cell of the sheet. -/
def Hit (s : Sheet) (x y : ℤ) : Prop :=
  (s.gap ≤ x ∧ x < s.width) ∧ (s.gap ≤ y ∧ y < s.height) ∧ (x - s.gap) % (s.cellW + s.gap) < s.cellW ∧
    (y - s.gap) % (s.cellH + s.gap) < s.cellH ∧ (x - s.gap) / (s.cellW + s.gap) < s.columns ∧ place s x y < s.count

instance : Decidable (Hit s x y) := by
  unfold Hit
  infer_instance

theorem inCell_iff (laid : Laid s) (item : Item s i) : InCell s i x y ↔ Hit s x y ∧ place s x y = i := by
  obtain ⟨low, below⟩ := item
  have gap := laid.gap
  have wide := laid.cellW
  have tall := laid.cellH
  have columns := laid.columns
  have inX : (cellX s i ≤ x ∧ x < cellX s i + s.cellW) ↔ _ :=
    Iff.trans (by unfold cellX; rw [Int.tmod_eq_emod_of_nonneg low]; omega)
      (@span (s.cellW + s.gap) s.cellW (x - s.gap) (i % s.columns) (by omega) (by omega))
  have inY : (cellY s i ≤ y ∧ y < cellY s i + s.cellH) ↔ _ :=
    Iff.trans (by unfold cellY; rw [Int.tdiv_eq_ediv_of_nonneg low]; omega)
      (@span (s.cellH + s.gap) s.cellH (y - s.gap) (i / s.columns) (by omega) (by omega))
  have whole := Int.mul_ediv_add_emod i s.columns
  unfold InCell
  rw [inX, inY]
  constructor
  · rintro ⟨⟨col, within⟩, row, within'⟩
    have col_low := Int.emod_nonneg i columns.ne'
    have col_below := Int.emod_lt_of_pos i columns
    have row_low := Int.ediv_nonneg low columns.le
    have row_below : i / s.columns < s.rows := Int.ediv_lt_of_lt_mul columns (below.trans_le laid.room)
    have placed : place s x y = i := by
      unfold place
      rw [row, col, Int.mul_comm]
      exact whole
    obtain ⟨x_low, x_high⟩ := (@span _ s.cellW (x - s.gap) (i % s.columns)
      (by omega : 0 < s.cellW + s.gap) (by omega)).mpr ⟨col, within⟩
    obtain ⟨y_low, y_high⟩ := (@span _ s.cellH (y - s.gap) (i / s.columns)
      (by omega : 0 < s.cellH + s.gap) (by omega)).mpr ⟨row, within'⟩
    have x_pos := Int.mul_nonneg col_low (by omega : 0 ≤ s.cellW + s.gap)
    have y_pos := Int.mul_nonneg row_low (by omega : 0 ≤ s.cellH + s.gap)
    have x_last := Int.mul_le_mul_of_nonneg_right (by omega : i % s.columns + 1 ≤ s.columns)
      (by omega : 0 ≤ s.cellW + s.gap)
    have y_last := Int.mul_le_mul_of_nonneg_right (by omega : i / s.columns + 1 ≤ s.rows)
      (by omega : 0 ≤ s.cellH + s.gap)
    rw [Int.add_mul, Int.one_mul] at x_last y_last
    refine ⟨⟨⟨by omega, ?_⟩, ⟨by omega, ?_⟩, within, within', by omega, by omega⟩, placed⟩
    · rw [laid.width]
      omega
    · rw [laid.height]
      omega
  · rintro ⟨⟨⟨x_low, -⟩, ⟨y_low, -⟩, within, within', col_below, -⟩, here⟩
    have col_low : 0 ≤ (x - s.gap) / (s.cellW + s.gap) := Int.ediv_nonneg (by omega) (by omega)
    obtain ⟨row, col⟩ := (Int.ediv_emod_unique (a := i) (r := (x - s.gap) / (s.cellW + s.gap))
      (q := (y - s.gap) / (s.cellH + s.gap)) columns).mpr
      ⟨by rw [← here, place, Int.mul_comm, Int.add_comm], col_low, col_below⟩
    exact ⟨⟨col.symm, within⟩, row.symm, within'⟩

theorem place_item (laid : Laid s) (hit : Hit s x y) : Item s (place s x y) := by
  obtain ⟨⟨x_low, -⟩, ⟨y_low, -⟩, -, -, -, below⟩ := hit
  have gap := laid.gap
  have row := Int.mul_nonneg
    (Int.ediv_nonneg (by omega : 0 ≤ y - s.gap) (by have := laid.cellH; omega : 0 ≤ s.cellH + s.gap)) laid.columns.le
  have col := Int.ediv_nonneg (by omega : 0 ≤ x - s.gap) (by have := laid.cellW; omega : 0 ≤ s.cellW + s.gap)
  exact ⟨Int.add_nonneg row col, below⟩

theorem disjoint (laid : Laid s) (one : Item s i) (other : Item s j) (inOne : InCell s i x y)
    (inOther : InCell s j x y) : i = j :=
  ((inCell_iff laid one).mp inOne).2.symm.trans ((inCell_iff laid other).mp inOther).2

theorem inside (laid : Laid s) (item : Item s i) (inCell : InCell s i x y) :
    (0 ≤ x ∧ x < s.width) ∧ 0 ≤ y ∧ y < s.height := by
  obtain ⟨⟨⟨x_low, x_high⟩, ⟨y_low, y_high⟩, -⟩, -⟩ := (inCell_iff laid item).mp inCell
  have gap := laid.gap
  exact ⟨⟨by omega, x_high⟩, by omega, y_high⟩

theorem steps_fit (laid : Laid s) : s.cellW + s.gap ≤ s.width ∧ s.cellH + s.gap ≤ s.height := by
  have gap := laid.gap
  have wide := laid.cellW
  have tall := laid.cellH
  have columns := laid.columns
  have width := laid.width
  have height := laid.height
  have rows : 1 ≤ s.rows := by
    have room := laid.room
    have some_ := laid.some_
    by_contra few
    have none_ := Int.mul_nonpos_of_nonpos_of_nonneg (by omega : s.rows ≤ 0) columns.le
    omega
  have stepX := Int.mul_le_mul_of_nonneg_right (by omega : 1 ≤ s.columns) (by omega : 0 ≤ s.cellW + s.gap)
  have stepY := Int.mul_le_mul_of_nonneg_right rows (by omega : 0 ≤ s.cellH + s.gap)
  omega

/-- The rows above a pixel, and its place in them, are `int`s. -/
theorem rows_fit (laid : Laid s) (top : s.gap ≤ y) (bottom : y < s.height) :
    0 ≤ (y - s.gap) / (s.cellH + s.gap) * s.columns ∧
      (y - s.gap) / (s.cellH + s.gap) * s.columns + s.columns ≤ s.rows * s.columns := by
  have gap := laid.gap
  have tall := laid.cellH
  have low := Int.ediv_nonneg (by omega : 0 ≤ y - s.gap) (by omega : 0 ≤ s.cellH + s.gap)
  have below : (y - s.gap) / (s.cellH + s.gap) < s.rows := Int.ediv_lt_of_lt_mul (by omega) (by
    have height := laid.height
    omega)
  have last := Int.mul_le_mul_of_nonneg_right (by omega : (y - s.gap) / (s.cellH + s.gap) + 1 ≤ s.rows)
    laid.columns.le
  rw [Int.add_mul, Int.one_mul] at last
  exact ⟨Int.mul_nonneg low laid.columns.le, last⟩

theorem itemAt_eq (laid : Laid s) (x y : ℤ) : itemAt s x y = some (if Hit s x y then place s x y else -1) := by
  have gap := laid.gap
  have wide := laid.cellW
  have tall := laid.cellH
  have some_ := laid.some_
  obtain ⟨fitsW, fitsH, fits⟩ := laid.fits
  unfold itemAt
  split
  next out => rw [if_neg]; unfold Hit; omega
  next here =>
    have steps := steps_fit laid
    rw [int_eq (by omega) (by omega), int_eq (by omega) (by omega), Option.bind_eq_bind, Option.bind_some,
      Option.bind_some]
    split
    next out => rw [if_neg]; unfold Hit; omega
    next past =>
      rw [int_eq (by omega) (by omega), int_eq (by omega) (by omega), Option.bind_some, Option.bind_some]
      dsimp only
      rw [Int.tmod_eq_emod_of_nonneg (by omega), Int.tmod_eq_emod_of_nonneg (by omega),
        Int.tdiv_eq_ediv_of_nonneg (by omega), Int.tdiv_eq_ediv_of_nonneg (by omega)]
      split
      next out => rw [if_neg]; unfold Hit; omega
      next within =>
        split
        next out => rw [if_neg]; unfold Hit; omega
        next column =>
          have col := Int.ediv_nonneg (by omega : 0 ≤ x - s.gap) (by omega : 0 ≤ s.cellW + s.gap)
          have row := rows_fit laid (y := y) (by omega) (by omega)
          rw [int_eq (by omega) (by omega), Option.bind_some, int_eq (by omega) (by omega), Option.bind_some]
          refine congrArg some ?_
          change (if place s x y < s.count then place s x y else -1) = _
          by_cases few : place s x y < s.count
          · rw [if_pos few, if_pos]
            exact ⟨by omega, by omega, by omega, by omega, by omega, few⟩
          · rw [if_neg few, if_neg fun hit => few hit.2.2.2.2.2]

theorem itemAt_iff (laid : Laid s) (item : Item s i) : itemAt s x y = some i ↔ InCell s i x y := by
  rw [itemAt_eq laid, inCell_iff laid item, Option.some_inj]
  have low := item.1
  split
  next hit => exact ⟨fun here => ⟨hit, here⟩, fun here => here.2⟩
  next missed => exact ⟨fun out => by omega, fun here => absurd here.1 missed⟩

theorem itemAt_none (laid : Laid s) (outside : ∀ i, Item s i → ¬InCell s i x y) : itemAt s x y = some (-1) := by
  rw [itemAt_eq laid, if_neg]
  exact fun hit => outside _ (place_item laid hit) ((inCell_iff laid (place_item laid hit)).mpr ⟨hit, rfl⟩)

/-! ## What is drawn -/

/-- The value of the pixel `x` of row `r` of the item at `addr`. -/
def itemPixel (f : Format) (read : ReadFn) (swapNibbles : Bool) (addr : BitVec 32) (x r : ℕ) : Byte :=
  let per := 8 / (info f).bitsPerPixel
  pixel (info f) ((info f).lowNibbleFirst != swapNibbles)
    (read (addr + BitVec.ofNat 32 (r * (info f).bytesPerRow + x / per))) (x % per)

theorem per_pos (f : Format) : 0 < 8 / (info f).bitsPerPixel :=
  Nat.div_pos (info_sound f).depth.2 (info_sound f).depth.1

section decode
variable {f : Format} {read : ReadFn} {swapNibbles : Bool} {addr : BitVec 32} {h r : ℕ}

/-- What a decoded item has at an index. -/
def Decoded (f : Format) (read : ReadFn) (swapNibbles : Bool) (addr : BitVec 32) (k : ℕ) (v : Byte) : Prop :=
  ∃ r x, x < (info f).width ∧ k = r * (info f).width + x ∧ v = itemPixel f read swapNibbles addr x r

theorem decoded_once (k : ℕ) (v v' : Byte) (one : Decoded f read swapNibbles addr k v)
    (other : Decoded f read swapNibbles addr k v') : v = v' := by
  obtain ⟨r, x, left, rfl, rfl⟩ := one
  obtain ⟨r', x', left', same, rfl⟩ := other
  obtain ⟨rfl, rfl⟩ := index_inj left left' same
  rfl

theorem decodeByte_shows {written : ℕ → Prop} {blank out : Buffer Byte} {b : ℕ}
    (size : blank.size = (info f).width * h) (fits : h * (info f).bytesPerRow ≤ 0x80000000) (row : r < h)
    (byte : b < (info f).bytesPerRow)
    (shows_ : Buffer.Shows (Decoded f read swapNibbles addr) blank written out) :
    ∃ out', decodeByte (info f) ((info f).lowNibbleFirst != swapNibbles) read addr r out b = some out' ∧
      Buffer.Shows (Decoded f read swapNibbles addr) blank
        (fun k => written k ∨ ∃ p < 8 / (info f).bitsPerPixel, b * (8 / (info f).bitsPerPixel) + p < (info f).width ∧
          k = r * (info f).width + (b * (8 / (info f).bitsPerPixel) + p)) out' := by
  have last := Nat.mul_le_mul_right (info f).bytesPerRow (by omega : r + 1 ≤ h)
  rw [Nat.add_mul, Nat.one_mul] at last
  unfold decodeByte
  rw [int_eq (by omega) (by omega), Option.bind_eq_bind, Option.bind_some]
  refine shows_.foldlM _ fun p within written out shows_ => ?_
  dsimp only
  split
  next past => exact ⟨out, rfl, shows_.congr fun k => (or_iff_left fun new => absurd new.1 (by omega)).symm⟩
  next left =>
    obtain ⟨out', ran, shows'⟩ := shows_.set decoded_once
      (i := r * (info f).width + (b * (8 / (info f).bitsPerPixel) + p))
      (x := itemPixel f read swapNibbles addr (b * (8 / (info f).bitsPerPixel) + p) r)
      (size ▸ index_lt row (by omega)) ⟨r, _, by omega, rfl, rfl⟩
    obtain ⟨byte_of, bit_of⟩ := (Nat.div_mod_unique (a := b * (8 / (info f).bitsPerPixel) + p) (per_pos f)).mpr
      ⟨by rw [Nat.mul_comm, Nat.add_comm], within⟩
    refine ⟨out', ?_, shows'.congr fun k => or_congr_right (and_iff_right (by omega)).symm⟩
    rw [← ran, itemPixel, byte_of, bit_of, BitVec.ofInt_natCast]

/-- The pixels of an item, row by row. -/
theorem decode_spec {rows : ℤ} (some_ : 0 < rows) (fits : rows * (info f).bytesPerRow ≤ 0x80000000) :
    ∃ px, decode f read addr swapNibbles rows = some px ∧ px.size = (info f).width * rows.toNat ∧
      ∀ r < rows.toNat, ∀ x < (info f).width,
        px.item (r * (info f).width + x) = itemPixel f read swapNibbles addr x r := by
  have fits' : rows.toNat * (info f).bytesPerRow ≤ 0x80000000 := by
    have cast : ((rows.toNat * (info f).bytesPerRow : ℕ) : ℤ) = rows * (info f).bytesPerRow := by
      rw [Nat.cast_mul, Int.toNat_of_nonneg some_.le]
    omega
  unfold decode
  dsimp only
  rw [if_pos some_]
  obtain ⟨px, ran, shows_⟩ := (@Buffer.Shows.start _ (Decoded f read swapNibbles addr)
    (Buffer.new ((info f).width * rows.toNat) 0)).foldlM (n := rows.toNat)
    (fun r k => ∃ x < (info f).width, k = r * (info f).width + x) fun r row written out shows_ => by
      obtain ⟨out', ran, shows'⟩ := shows_.foldlM (n := (info f).bytesPerRow) (fun b k =>
        ∃ p < 8 / (info f).bitsPerPixel, b * (8 / (info f).bitsPerPixel) + p < (info f).width ∧
          k = r * (info f).width + (b * (8 / (info f).bitsPerPixel) + p))
        fun b byte _ _ shows_ => decodeByte_shows rfl fits' row byte shows_
      refine ⟨out', ran, shows'.congr fun k => or_congr_right ?_⟩
      constructor
      · rintro ⟨b, -, p, -, left, rfl⟩
        exact ⟨_, left, rfl⟩
      · rintro ⟨x, left, rfl⟩
        have whole := Nat.div_add_mod x (8 / (info f).bitsPerPixel)
        rw [Nat.mul_comm] at whole
        exact ⟨x / (8 / (info f).bitsPerPixel),
          Nat.div_lt_of_lt_mul (Nat.mul_comm _ _ ▸ left.trans_le (info_sound f).row),
          x % (8 / (info f).bitsPerPixel), Nat.mod_lt _ (per_pos f), by omega, by omega⟩
  exact ⟨px, ran, shows_.size, fun r row x left =>
    shows_.drawn _ _ (.inr ⟨r, row, x, left, rfl⟩) ⟨r, x, left, rfl, rfl⟩⟩

end decode

section draw
variable {f : Format} {read : ReadFn} {swapNibbles : Bool} {colors : Colors}

/-- What a sheet has at an index: the colour of a pixel of the item whose cell is there. -/
def Painted (f : Format) (read : ReadFn) (swapNibbles : Bool) (colors : Colors) (s : Sheet) (k : ℕ) (c : Color) :
    Prop :=
  ∃ i x y, Item s i ∧ InCell s i x y ∧ k = (y * s.width + x).toNat ∧
    colorFor (info f) (itemPixel f read swapNibbles (itemAddress s i)
      ((x - cellX s i).toNat / (info f).pixelWidth) (y - cellY s i).toNat) colors = some c

theorem position_inj {w x x' y y' : ℤ} (inX : 0 ≤ x ∧ x < w) (inX' : 0 ≤ x' ∧ x' < w) (top : 0 ≤ y) (top' : 0 ≤ y')
    (same : (y * w + x).toNat = (y' * w + x').toNat) : y = y' ∧ x = x' := by
  have pos := Int.mul_nonneg top (by omega : 0 ≤ w)
  have pos' := Int.mul_nonneg top' (by omega : 0 ≤ w)
  have one := (Int.ediv_emod_unique (a := y * w + x) (by omega : 0 < w)).mpr
    ⟨by rw [Int.mul_comm w, Int.add_comm], inX⟩
  have other := (Int.ediv_emod_unique (a := y * w + x) (by omega : 0 < w)).mpr
    ⟨by rw [Int.mul_comm w, (by omega : y * w + x = y' * w + x'), Int.add_comm], inX'⟩
  exact ⟨one.1.symm.trans other.1, one.2.symm.trans other.2⟩

theorem position_lt {w h x y : ℤ} (inX : 0 ≤ x ∧ x < w) (inY : 0 ≤ y ∧ y < h) :
    (y * w + x).toNat < (w * h).toNat := by
  have pos := Int.mul_nonneg inY.1 (by omega : 0 ≤ w)
  have last := Int.mul_le_mul_of_nonneg_right (by omega : y + 1 ≤ h) (by omega : 0 ≤ w)
  rw [Int.add_mul, Int.one_mul, Int.mul_comm h] at last
  omega

theorem painted_once (laid : Laid s) (k : ℕ) (c c' : Color) (one : Painted f read swapNibbles colors s k c)
    (other : Painted f read swapNibbles colors s k c') : c = c' := by
  obtain ⟨i, x, y, item, inCell, rfl, color⟩ := one
  obtain ⟨i', x', y', item', inCell', same, color'⟩ := other
  obtain ⟨inX, inY⟩ := inside laid item inCell
  obtain ⟨inX', inY'⟩ := inside laid item' inCell'
  obtain ⟨rfl, rfl⟩ := position_inj inX inX' inY.1 inY'.1 same
  obtain rfl := disjoint laid item item' inCell inCell'
  exact Option.some.inj (color.symm.trans color')

/-- The places of one pixel of an item. -/
def Dots (f : Format) (s : Sheet) (i : ℤ) (y x : ℕ) (j : ℕ) : Prop :=
  ∃ k < (info f).pixelWidth, j = ((cellY s i + y) * s.width + cellX s i + x * (info f).pixelWidth + k).toNat

/-- The places of an item's cell. -/
def Dotted (f : Format) (s : Sheet) (i : ℤ) (j : ℕ) : Prop :=
  ∃ y < s.cellH.toNat, ∃ x < (info f).width, Dots f s i y x j

theorem dot_inCell (cellW : s.cellW = ((info f).width * (info f).pixelWidth : ℕ)) {k x y : ℕ}
    (row : y < s.cellH.toNat) (column : x < (info f).width) (dot : k < (info f).pixelWidth) :
    InCell s i (cellX s i + (x * (info f).pixelWidth + k : ℕ)) (cellY s i + y) := by
  have last := index_lt column dot
  rw [Nat.mul_comm (info f).pixelWidth] at last
  exact ⟨⟨by omega, by omega⟩, by omega, by omega⟩

theorem drawPixel_shows (laid : Laid s) (item : Item s i)
    (cellW : s.cellW = ((info f).width * (info f).pixelWidth : ℕ))
    (palette : ∀ v, (colorFor (info f) v colors).isSome) {px : Buffer Byte} {x y : ℕ}
    (row : y < s.cellH.toNat) (column : x < (info f).width)
    (size : px.size = (info f).width * s.cellH.toNat)
    (pixels : px.item (y * (info f).width + x) = itemPixel f read swapNibbles (itemAddress s i) x y)
    {blank argb : Buffer Color} {written : ℕ → Prop} (sheet : blank.size = (s.width * s.height).toNat)
    (shows_ : Buffer.Shows (Painted f read swapNibbles colors s) blank written argb) :
    ∃ argb', drawPixel (info f) colors s (cellX s i) (cellY s i) px y argb x = some argb' ∧
      Buffer.Shows (Painted f read swapNibbles colors s) blank (fun j => written j ∨ Dots f s i y x j) argb' := by
  obtain ⟨c, color⟩ := Option.isSome_iff_exists.mp (palette (itemPixel f read swapNibbles (itemAddress s i) x y))
  have line := (inside laid item (dot_inCell cellW row column (info_sound f).doubled.1)).2
  have fits := laid.fits.2.1
  unfold drawPixel
  rw [Buffer.get_of_lt (size ▸ index_lt row column), pixels, Option.bind_eq_bind, Option.bind_some, color,
    Option.bind_eq_bind, Option.bind_some, int_eq (by omega) (by omega), Option.bind_eq_bind, Option.bind_some]
  refine shows_.foldlM _ fun k dot written argb shows_ => ?_
  have inCell := dot_inCell (i := i) cellW row column dot
  obtain ⟨inX, inY⟩ := inside laid item inCell
  have here : (cellY s i + y) * s.width + cellX s i + x * (info f).pixelWidth + k =
      (cellY s i + y) * s.width + (cellX s i + (x * (info f).pixelWidth + k : ℕ)) := by
    rw [Nat.cast_add, Nat.cast_mul, Int.add_assoc, Int.add_assoc]
  rw [here]
  refine shows_.set (painted_once laid) (sheet ▸ position_lt inX inY) ⟨i, _, _, item, inCell, rfl, ?_⟩
  have column_of : (cellX s i + (x * (info f).pixelWidth + k : ℕ) - cellX s i).toNat / (info f).pixelWidth = x := by
    rw [show (cellX s i + (x * (info f).pixelWidth + k : ℕ) - cellX s i).toNat = x * (info f).pixelWidth + k by omega]
    exact ((Nat.div_mod_unique (info_sound f).doubled.1).mpr ⟨by rw [Nat.mul_comm, Nat.add_comm], dot⟩).1
  rw [column_of, show (cellY s i + y - cellY s i).toNat = y by omega]
  exact color

theorem drawItem_shows (laid : Laid s) {n : ℕ} (item : Item s n)
    (cellW : s.cellW = ((info f).width * (info f).pixelWidth : ℕ)) (bytes : s.cellH * (info f).bytesPerRow ≤ 0x80000000)
    (palette : ∀ v, (colorFor (info f) v colors).isSome)
    {blank argb : Buffer Color} {written : ℕ → Prop} (sheet : blank.size = (s.width * s.height).toNat)
    (shows_ : Buffer.Shows (Painted f read swapNibbles colors s) blank written argb) :
    ∃ argb', drawItem f read colors swapNibbles s argb n = some argb' ∧
      Buffer.Shows (Painted f read swapNibbles colors s) blank (fun j => written j ∨ Dotted f s n j) argb' := by
  have wide := laid.cellW
  have tall := laid.cellH
  have gap := laid.gap
  obtain ⟨inX, inY⟩ := inside laid item (x := cellX s n) (y := cellY s n) ⟨by omega, by omega⟩
  obtain ⟨fitsW, fitsH, -⟩ := laid.fits
  have steps := steps_fit laid
  obtain ⟨px, decoded, size, pixels⟩ := @decode_spec f read swapNibbles (itemAddress s n) _ tall bytes
  unfold drawItem
  rw [int_eq (by omega) (by omega), int_eq (by omega) (by omega), int_eq (by omega) (by omega),
    int_eq (by omega) (by omega), decoded]
  exact shows_.foldlM _ fun y row _ _ shows_ => shows_.foldlM _ fun x column _ _ shows_ =>
    drawPixel_shows laid item cellW palette row column size (pixels y row x column) sheet shows_

/-- The sheet's cells hold the items, and a pixel leads to the item whose cell it lies in. -/
structure Exact (f : Format) (read : ReadFn) (swapNibbles : Bool) (colors : Colors) (gridColor : Color) (s : Sheet) :
    Prop where
  size : s.argb.size = (s.width * s.height).toNat
  inside : ∀ i x y, Item s i → InCell s i x y → (0 ≤ x ∧ x < s.width) ∧ 0 ≤ y ∧ y < s.height
  disjoint : ∀ i j x y, Item s i → Item s j → InCell s i x y → InCell s j x y → i = j
  drawn : ∀ i x y, Item s i → InCell s i x y →
    colorFor (info f) (itemPixel f read swapNibbles (itemAddress s i)
      ((x - cellX s i).toNat / (info f).pixelWidth) (y - cellY s i).toNat) colors =
        some (s.argb.item (y * s.width + x).toNat)
  blank : ∀ x y, (0 ≤ x ∧ x < s.width) → 0 ≤ y → (∀ i, Item s i → ¬InCell s i x y) →
    s.argb.item (y * s.width + x).toNat = gridColor
  found : ∀ i x y, Item s i → (itemAt s x y = some i ↔ InCell s i x y)
  missed : ∀ x y, (∀ i, Item s i → ¬InCell s i x y) → itemAt s x y = some (-1)

theorem dotted_iff (laid : Laid s) (item : Item s i) (cellW : s.cellW = ((info f).width * (info f).pixelWidth : ℕ))
    (inX : 0 ≤ x ∧ x < s.width) (top : 0 ≤ y) :
    Dotted f s i (y * s.width + x).toNat ↔ InCell s i x y := by
  constructor
  · rintro ⟨y', row, x', column, k, dot, same⟩
    have inCell := dot_inCell (i := i) cellW row column dot
    obtain ⟨inX', inY'⟩ := inside laid item inCell
    rw [show (cellY s i + y') * s.width + cellX s i + x' * (info f).pixelWidth + k =
      (cellY s i + y') * s.width + (cellX s i + (x' * (info f).pixelWidth + k : ℕ)) by
        rw [Nat.cast_add, Nat.cast_mul, Int.add_assoc, Int.add_assoc]] at same
    obtain ⟨rfl, rfl⟩ := position_inj inX inX' top inY'.1 same
    exact inCell
  · rintro ⟨⟨left, right⟩, above, below⟩
    have whole := Nat.div_add_mod (x - cellX s i).toNat (info f).pixelWidth
    rw [Nat.mul_comm] at whole
    refine ⟨(y - cellY s i).toNat, by omega, (x - cellX s i).toNat / (info f).pixelWidth,
      Nat.div_lt_of_lt_mul (by rw [Nat.mul_comm]; omega), (x - cellX s i).toNat % (info f).pixelWidth,
      Nat.mod_lt _ (info_sound f).doubled.1, congrArg Int.toNat ?_⟩
    rw [Int.toNat_of_nonneg (by omega : 0 ≤ y - cellY s i), Int.add_assoc, Int.add_assoc, ← Nat.cast_mul,
      ← Nat.cast_add, whole, Int.toNat_of_nonneg (by omega : 0 ≤ x - cellX s i),
      show cellY s i + (y - cellY s i) = y by omega, show cellX s i + (x - cellX s i) = x by omega]

/-- The items of a sheet are drawn into their cells. -/
theorem draw_exact (laid : Laid s) (cellW : s.cellW = ((info f).width * (info f).pixelWidth : ℕ))
    (bytes : s.cellH * (info f).bytesPerRow ≤ 0x80000000) (palette : ∀ v, (colorFor (info f) v colors).isSome)
    (gridColor : Color) :
    ∃ argb, (List.range s.count.toNat).foldlM (drawItem f read colors swapNibbles s)
        (Buffer.new (s.width * s.height).toNat gridColor) = some argb ∧
      Exact f read swapNibbles colors gridColor { s with argb := argb } := by
  obtain ⟨argb, ran, shows_⟩ := (@Buffer.Shows.start _ (Painted f read swapNibbles colors s)
    (Buffer.new (s.width * s.height).toNat gridColor)).foldlM (n := s.count.toNat) (fun i => Dotted f s i)
      fun i some_ _ _ shows_ => drawItem_shows laid (n := i) ⟨by omega, by omega⟩ cellW bytes palette rfl shows_
  refine ⟨argb, ran, {
    size := shows_.size
    inside := fun i x y => inside (laid.draw argb)
    disjoint := fun i j x y => disjoint (laid.draw argb)
    drawn := ?_
    blank := ?_
    found := fun i x y => itemAt_iff (laid.draw argb)
    missed := fun x y => itemAt_none (laid.draw argb) }⟩
  · intro i x y (item : Item s i) (inCell : InCell s i x y)
    obtain ⟨inX, inY⟩ := inside laid item inCell
    obtain ⟨c, color⟩ := Option.isSome_iff_exists.mp (palette (itemPixel f read swapNibbles (itemAddress s i)
      ((x - cellX s i).toNat / (info f).pixelWidth) (y - cellY s i).toNat))
    refine color.trans (congrArg some
      (shows_.drawn _ _ (.inr ⟨i.toNat, ?_, ?_⟩) ⟨i, x, y, item, inCell, rfl, color⟩).symm)
    · have below := item.2
      have low := item.1
      omega
    · rw [Int.toNat_of_nonneg item.1]
      exact (dotted_iff laid item cellW inX inY.1).mpr inCell
  · intro x y inX top outside
    refine shows_.blank _ fun written => ?_
    obtain ⟨i, some_, dotted⟩ := written.resolve_left id
    have item : Item s i := ⟨by omega, by omega⟩
    exact outside i item ((dotted_iff laid item cellW inX top).mp dotted)

end draw

/-! ## The layout -/

/-- The items in a row. -/
def across (count columns : ℤ) : ℤ := max 1 (min columns (max 1 (max 0 count)))

/-- The rows of items. -/
def down (count columns : ℤ) : ℤ := (max 0 count + across count columns - 1) / across count columns

/-- The rows of an item. -/
def itemRows (f : Format) (rows : ℤ) : ℤ := if rows > 0 then rows else (info f).height

/-- The measures of the sheet, and the offsets of the items' bytes, are `int`s. -/
structure Fits (f : Format) (count columns gap rows : ℤ) : Prop where
  cells : max 0 count + across count columns < 0x80000000
  width : across count columns * ((info f).width * (info f).pixelWidth : ℕ) +
    (across count columns + 1) * max 0 gap < 0x80000000
  height : down count columns * itemRows f rows + (down count columns + 1) * max 0 gap < 0x80000000
  bytes : 0 < count → itemRows f rows * (info f).bytesPerRow ≤ 0x80000000

theorem extent_eq {n cell gap : ℤ} (some_ : 0 ≤ n) (cells : 0 ≤ cell) (gaps : 0 ≤ gap) (few : n + 1 < 0x80000000)
    (fits : n * cell + (n + 1) * gap < 0x80000000) : extent n cell gap = some (n * cell + (n + 1) * gap) := by
  have first := Int.mul_nonneg some_ cells
  have rest := Int.mul_nonneg (by omega : 0 ≤ n + 1) gaps
  unfold extent
  rw [int_eq (by omega) (by omega), int_eq (by omega) (by omega), Option.bind_eq_bind, Option.bind_some,
    Option.bind_some, int_eq (by omega) (by omega), Option.bind_some, int_eq (by omega) (by omega)]

theorem across_pos (count columns : ℤ) : 0 < across count columns := by
  unfold across
  omega

theorem down_room (count columns : ℤ) :
    max 0 count ≤ down count columns * across count columns ∧
      down count columns * across count columns < max 0 count + across count columns := by
  have pos := across_pos count columns
  have whole := Int.mul_ediv_add_emod (max 0 count + across count columns - 1) (across count columns)
  have low := Int.emod_nonneg (max 0 count + across count columns - 1) pos.ne'
  have high := Int.emod_lt_of_pos (max 0 count + across count columns - 1) pos
  rw [Int.mul_comm] at whole
  unfold down
  omega

theorem down_few (count columns : ℤ) : 0 ≤ down count columns ∧ down count columns ≤ max 0 count := by
  have pos := across_pos count columns
  have room := down_room count columns
  have low : 0 ≤ down count columns := Int.ediv_nonneg (by omega) pos.le
  refine ⟨low, ?_⟩
  by_contra many
  have grown := Int.mul_le_mul_of_nonneg_right (by omega : max 0 count + 1 ≤ down count columns) pos.le
  have wide := Int.mul_le_mul_of_nonneg_left (by omega : 1 ≤ across count columns) (by omega : 0 ≤ max 0 count)
  rw [Int.add_mul, Int.one_mul] at grown
  omega

variable {f : Format} {count columns gap rows : ℤ}

theorem layout_spec (start stride : BitVec 32) (fits : Fits f count columns gap rows) :
    ∃ s, layout f start count columns stride gap rows = some s ∧ s.count = max 0 count ∧
      s.cellW = ((info f).width * (info f).pixelWidth : ℕ) ∧ s.cellH = itemRows f rows ∧ s.argb.size = 0 ∧
      (s.count ≠ 0 → Laid s) := by
  have pos := across_pos count columns
  have few := down_few count columns
  have room := down_room count columns
  have cells := fits.cells
  have sound := info_sound f
  have narrow : across count columns ≤ max 1 (max 0 count) := by
    unfold across
    omega
  have tall : 0 < itemRows f rows := by
    have height := sound.tall
    unfold itemRows
    split
    next outside => exact outside
    next => omega
  have wide := Nat.mul_pos sound.wide.1 sound.doubled.1
  have rows_eq : (int (max 0 count + across count columns)).map (fun sum => (sum - 1).tdiv (across count columns)) =
      some (down count columns) := by
    rw [int_eq (by omega) (by omega), Option.map_some, Int.tdiv_eq_ediv_of_nonneg (by omega)]
    rfl
  have width_eq := extent_eq pos.le (by omega) (by omega : 0 ≤ max 0 gap) (by omega) fits.width
  have height_eq := extent_eq few.1 tall.le (by omega : 0 ≤ max 0 gap) (by omega) fits.height
  refine ⟨{
    width := across count columns * ((info f).width * (info f).pixelWidth : ℕ) +
      (across count columns + 1) * max 0 gap
    height := down count columns * itemRows f rows + (down count columns + 1) * max 0 gap
    columns := across count columns, rows := down count columns
    cellW := ((info f).width * (info f).pixelWidth : ℕ), cellH := itemRows f rows
    gap := max 0 gap, count := max 0 count, start := start
    stride := if stride ≠ 0 then stride else (info f).stride, argb := Buffer.new 0 0 },
    ?_, rfl, rfl, rfl, rfl, fun some_ => ?_⟩
  · unfold layout
    dsimp only
    rw [← Nat.cast_mul]
    exact Option.bind_eq_some_iff.mpr ⟨_, rows_eq, Option.bind_eq_some_iff.mpr ⟨_, width_eq,
      Option.bind_eq_some_iff.mpr ⟨_, height_eq, rfl⟩⟩⟩
  · exact {
      some_ := by dsimp only at some_ ⊢; omega
      columns := pos
      cellW := by dsimp only; omega
      cellH := tall
      gap := by dsimp only; omega
      width := by dsimp only; rw [Int.add_mul, Int.one_mul, Int.mul_add, Int.add_assoc]
      height := by dsimp only; rw [Int.add_mul, Int.one_mul, Int.mul_add, Int.add_assoc]
      room := room.1
      fits := ⟨fits.width, fits.height, by dsimp only; omega⟩ }

theorem int_some {n m : ℤ} (some_ : int n = some m) : n < 0x80000000 ∧ n = m := by
  unfold int at some_
  split at some_
  next fits => exact ⟨fits.2, Option.some.inj some_⟩
  next => cases some_

theorem extent_some {n cell gap total : ℤ} (some_ : extent n cell gap = some total) :
    n * cell + (n + 1) * gap < 0x80000000 := by
  obtain ⟨cells, some_cells, rest⟩ := Option.bind_eq_some_iff.mp some_
  obtain ⟨gaps, some_gaps, rest⟩ := Option.bind_eq_some_iff.mp rest
  obtain ⟨between, some_between, rest⟩ := Option.bind_eq_some_iff.mp rest
  obtain rfl := (int_some some_cells).2
  obtain rfl := (int_some some_gaps).2
  obtain rfl := (int_some some_between).2
  exact (int_some rest).1

/-- The bytes of an item that could be decoded have offsets that are `int`s. -/
theorem decode_bytes {read : ReadFn} {addr : BitVec 32} {swapNibbles : Bool} {px : Buffer Byte} (tall : 0 < rows)
    (decoded : decode f read addr swapNibbles rows = some px) : rows * (info f).bytesPerRow ≤ 0x80000000 := by
  have sound := info_sound f
  have wide : 0 < (info f).bytesPerRow := by
    by_contra none_
    have row := sound.row
    have left := sound.wide.1
    rw [(by omega : (info f).bytesPerRow = 0), Nat.zero_mul] at row
    omega
  unfold decode at decoded
  dsimp only at decoded
  rw [if_pos tall] at decoded
  obtain ⟨out, out', row⟩ := step_of_foldlM decoded (by omega : rows.toNat - 1 < rows.toNat)
  obtain ⟨out, out', byte⟩ := step_of_foldlM row (by omega : (info f).bytesPerRow - 1 < (info f).bytesPerRow)
  unfold decodeByte at byte
  obtain ⟨offset, some_offset, -⟩ := Option.bind_eq_some_iff.mp byte
  have fits := (int_some some_offset).1
  have cast : rows * (info f).bytesPerRow =
      (((rows.toNat - 1) * (info f).bytesPerRow + (info f).bytesPerRow : ℕ) : ℤ) := by
    rw [← Nat.succ_mul, (by omega : (rows.toNat - 1).succ = rows.toNat), Nat.cast_mul, Int.toNat_of_nonneg tall.le]
  omega

theorem fits_of_sheet {read : ReadFn} {start stride : BitVec 32} {colors : Colors} {swapNibbles : Bool}
    {gridColor : Color} {s : Sheet}
    (some_ : renderSheet f read start count columns stride colors swapNibbles gap gridColor rows = some s) :
    Fits f count columns gap rows := by
  obtain ⟨s₀, laid_out, drawn⟩ := Option.bind_eq_some_iff.mp some_
  unfold layout at laid_out
  dsimp only at laid_out
  rw [← Nat.cast_mul] at laid_out
  obtain ⟨down', rows_eq, laid_out⟩ := Option.bind_eq_some_iff.mp laid_out
  obtain ⟨sum, some_sum, rfl⟩ := Option.map_eq_some_iff.mp rows_eq
  obtain ⟨cells, rfl⟩ := int_some some_sum
  obtain ⟨width, width_eq, laid_out⟩ := Option.bind_eq_some_iff.mp laid_out
  obtain ⟨height, height_eq, laid_out⟩ := Option.bind_eq_some_iff.mp laid_out
  obtain rfl := Option.some.inj laid_out
  have pos := across_pos count columns
  have same : (max 0 count + across count columns - 1).tdiv (across count columns) = down count columns :=
    Int.tdiv_eq_ediv_of_nonneg (by omega)
  refine ⟨cells, extent_some width_eq, ?_, fun some_items => ?_⟩
  · rw [← same]
    exact extent_some height_eq
  · have tall : 0 < itemRows f rows := by
      have height := (info_sound f).tall
      unfold itemRows
      split
      next outside => exact outside
      next => omega
    rw [if_neg (by dsimp only; omega)] at drawn
    obtain ⟨argb, ran, -⟩ := Option.bind_eq_some_iff.mp drawn
    obtain ⟨argb₁, argb₂, item⟩ := step_of_foldlM ran (by dsimp only; omega : 0 < _)
    obtain ⟨_, -, item⟩ := Option.bind_eq_some_iff.mp item
    obtain ⟨_, -, item⟩ := Option.bind_eq_some_iff.mp item
    obtain ⟨_, -, item⟩ := Option.bind_eq_some_iff.mp item
    obtain ⟨_, -, item⟩ := Option.bind_eq_some_iff.mp item
    obtain ⟨px, decoded, -⟩ := Option.bind_eq_some_iff.mp item
    exact decode_bytes tall decoded

theorem sheet_of_fits {colors : Colors} (fits : Fits f count columns gap rows)
    (palette : ∀ v, (colorFor (info f) v colors).isSome) (read : ReadFn) (start stride : BitVec 32)
    (swapNibbles : Bool) (gridColor : Color) :
    ∃ s, renderSheet f read start count columns stride colors swapNibbles gap gridColor rows = some s ∧
      s.count = max 0 count ∧ Exact f read swapNibbles colors gridColor s := by
  obtain ⟨s, laid_out, items, cellW, cellH, blank, laid⟩ := layout_spec start stride fits
  unfold renderSheet
  rw [laid_out, Option.bind_eq_bind, Option.bind_some]
  split
  next none_ =>
    have empty : ∀ i, ¬Item { s with width := 0, height := 0 } i := fun i item => by
      have below : i < s.count := item.2
      have low := item.1
      omega
    exact ⟨_, rfl, items, {
      size := blank
      inside := fun i _ _ item => absurd item (empty i)
      disjoint := fun i _ _ _ item => absurd item (empty i)
      drawn := fun i _ _ item => absurd item (empty i)
      blank := fun x _ inX => absurd inX (by dsimp only; omega)
      found := fun i _ _ item => absurd item (empty i)
      missed := fun _ _ _ => if_pos (.inl none_) }⟩
  next some_ =>
    obtain ⟨argb, ran, exact_⟩ := @draw_exact s f read swapNibbles colors (laid some_) cellW
      (cellH ▸ fits.bytes (by omega)) palette gridColor
    rw [ran]
    exact ⟨_, rfl, items, exact_⟩

/-- A sheet is drawn whenever its measures are `int`s, and then every pixel of it belongs to the item that is
drawn there and to no other. -/
theorem sheet_cells {f : Format} {colors : Colors} (palette : ∀ v, (colorFor (info f) v colors).isSome)
    (read : ReadFn) (start : BitVec 32) (count columns : ℤ) (stride : BitVec 32) (swapNibbles : Bool) (gap : ℤ)
    (gridColor : Color) (rows : ℤ) :
    ((∃ s, renderSheet f read start count columns stride colors swapNibbles gap gridColor rows = some s) ↔
      Fits f count columns gap rows) ∧
    ∀ s, renderSheet f read start count columns stride colors swapNibbles gap gridColor rows = some s →
      s.count = max 0 count ∧ Exact f read swapNibbles colors gridColor s := by
  constructor
  · constructor
    · rintro ⟨s, some_⟩
      exact fits_of_sheet some_
    · intro fits
      obtain ⟨s, some_, -⟩ := sheet_of_fits fits palette read start stride swapNibbles gridColor
      exact ⟨s, some_⟩
  · intro s some_
    obtain ⟨s', some', exact_⟩ :=
      sheet_of_fits (fits_of_sheet some_) palette read start stride swapNibbles gridColor
    obtain rfl := Option.some.inj (some_.symm.trans some')
    exact exact_

/-- The sheets of the viewers: a thousand items at most, with a gap of one. -/
theorem viewer_fits {f : Format} {count columns rows : ℤ} (few : count ≤ 1024) (low : rows ≤ 0x10000) :
    Fits f count columns 1 rows := by
  have sound := info_sound f
  have wide := sound.wide
  have tall := sound.tall
  have narrow := sound.narrow
  have pos := across_pos count columns
  have down_few := down_few count columns
  have most : across count columns ≤ 1024 := by
    unfold across
    omega
  have height : 0 ≤ itemRows f rows ∧ itemRows f rows ≤ 0x10000 := by
    unfold itemRows
    split <;> omega
  have cell := Nat.mul_le_mul sound.wide.2 sound.doubled.2
  have widths := Int.mul_le_mul most (by omega : (((info f).width * (info f).pixelWidth : ℕ) : ℤ) ≤ 128)
    (by omega) (by omega)
  have heights := Int.mul_le_mul (by omega : down count columns ≤ 1024) height.2 height.1 (by omega)
  have bytes := Int.mul_le_mul height.2 (by omega : ((info f).bytesPerRow : ℤ) ≤ 64) (by omega) (by omega)
  have one : max 0 1 = (1 : ℤ) := by decide
  exact ⟨by omega, by rw [one]; omega, by rw [one]; omega, fun _ => by omega⟩

theorem sheet_cells_sprites :
    ∃ s, renderSheet .SpriteHires (fun _ => 0) 0x3000 9 3 0 {} false 1 0xFF303030 0 = some s ∧
      Exact .SpriteHires (fun _ => 0) false {} 0xFF303030 s := by
  obtain ⟨defined, exact_⟩ :=
    @sheet_cells .SpriteHires {} (fun _ => rfl) (fun _ => 0) 0x3000 9 3 0 false 1 0xFF303030 0
  obtain ⟨s, some_⟩ := defined.mpr (viewer_fits (by omega) (by omega))
  exact ⟨s, some_, (exact_ s some_).2⟩

/-- Three columns and four gaps of $40000000 pixels are no `int`. -/
theorem gap_too_wide :
    ¬∃ s, renderSheet .SpriteHires (fun _ => 0) 0x3000 9 3 0 {} false 0x40000000 0xFF303030 0 = some s ∧
      Exact .SpriteHires (fun _ => 0) false {} 0xFF303030 s := by
  rintro ⟨s, some_, -⟩
  exact absurd (fits_of_sheet some_).width (by decide)

end Mmemu.Guarantees.SheetCells
