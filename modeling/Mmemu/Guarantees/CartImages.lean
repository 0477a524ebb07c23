import Mmemu.Source.C128Carts

/-!
# C128 cartridge images

Whatever an image holds, neither the loader nor the cartridge that it makes indexes outside of the
image or its own buffers.
-/
namespace Mmemu.Guarantees.CartImages
open Mmemu.Library.CheckedBuffer Mmemu.Source.C128Carts

/-! ## The image -/

/-- A packet lies in the image. -/
def Fits (img : Bytes) (c : Chip) : Prop := c.data + c.size ≤ img.size

theorem be16_inside {img : Bytes} {o : ℕ} (inside : o + 2 ≤ img.size) : ∃ v, be16 img o = some v := by
  unfold be16
  rw [Buffer.get_of_lt (by omega), Buffer.get_of_lt (by omega)]
  exact ⟨_, rfl⟩

theorem be32_inside {img : Bytes} {o : ℕ} (inside : o + 4 ≤ img.size) : ∃ v, be32 img o = some v := by
  obtain ⟨hi, is_hi⟩ := @be16_inside img o (by omega)
  obtain ⟨lo, is_lo⟩ := @be16_inside img (o + 2) (by omega)
  unfold be32
  rw [is_hi, is_lo]
  exact ⟨_, rfl⟩

theorem sub_inside {b : Bytes} {first last : ℕ} (up : first ≤ last) (inside : last ≤ b.size) :
    ∃ b', b.sub first last = some b' ∧ b'.size = last - first :=
  ⟨_, if_pos ⟨up, inside⟩, rfl⟩

theorem copy_inside {src b : Bytes} {first last off : ℕ} (up : first ≤ last) (inside : last ≤ src.size)
    (room : off + (last - first) ≤ b.size) : ∃ b', src.copy first last b off = some b' ∧ b'.size = b.size :=
  ⟨_, if_pos ⟨up, inside, room⟩, rfl⟩

theorem same_inside {img : Bytes} {o : ℕ} {text : String} (inside : o + text.length ≤ img.size) :
    ∃ b, same img o text = some b := by
  obtain ⟨bytes, is_bytes, -⟩ := @sub_inside img o (o + text.length) (by omega) inside
  unfold same
  rw [is_bytes]
  exact ⟨_, rfl⟩

theorem crtChipsFrom_ends (img : Bytes) (o : ℕ) (chips : List Chip) (before : ∀ c ∈ chips, Fits img c) :
    Ends (crtChipsFrom img o chips) fun chips => ∀ c ∈ chips, Fits img c := by
  induction o, chips using crtChipsFrom.induct img with
  | case1 o chips room ih =>
    rw [crtChipsFrom, if_pos room]
    refine .read (same_inside (by change o + 4 ≤ _; omega)) fun chip => ?_
    split
    next =>
      refine .read (be32_inside (by omega)) fun len => .read (be16_inside (by omega)) fun bank =>
        .read (be16_inside (by omega)) fun start => .read (be16_inside (by omega)) fun size => ?_
      dsimp only
      split
      next => exact .throw
      next good =>
        refine ih len bank start size good fun c mem => ?_
        rcases List.mem_append.mp mem with old | new
        · exact before c old
        · rw [List.mem_singleton.mp new]
          change o + 16 + size ≤ img.size
          omega
    next => exact .pure before
  | case2 o chips short =>
    rw [crtChipsFrom, if_neg short]
    exact .pure before

theorem crtChips_ends {img : Bytes} (header : 0x40 ≤ img.size) :
    Ends (crtChips img) fun chips => chips ≠ [] ∧ ∀ c ∈ chips, Fits img c := by
  refine .read (be32_inside (by omega)) fun first => ?_
  refine .bind (crtChipsFrom_ends img (max first 0x40) [] fun _ mem => absurd mem List.not_mem_nil)
    fun chips fit => ?_
  split
  next => exact .throw
  next some_ => exact .pure ⟨some_, fit⟩

theorem rawOfSize_inside (img : Bytes) (size : ℕ) : ∃ raw, rawOfSize img size = some raw ∧
    ∀ b ∈ raw, b.size = size := by
  unfold rawOfSize
  split
  next => exact ⟨none, rfl, fun b mem => by cases mem⟩
  next fits =>
    obtain ⟨b, is_b, sized⟩ := @sub_inside img (img.size - size) img.size (by omega) le_rfl
    rw [is_b]
    refine ⟨some b, rfl, fun b' mem => ?_⟩
    rw [← Option.some.inj mem, sized]
    omega

theorem isCrt_inside (img : Bytes) : ∃ crt, isCrt img = some crt ∧ (crt = true → 0x40 ≤ img.size) := by
  unfold isCrt
  split
  next long =>
    obtain ⟨b, is_b⟩ := @same_inside img 0 "C128 CARTRIDGE  " (by change 0 + 16 ≤ _; omega)
    exact ⟨b, is_b, fun _ => long⟩
  next => exact ⟨false, rfl, fun wrong => by cases wrong⟩

theorem crtName_inside {img : Bytes} (header : 0x40 ≤ img.size) : ∃ name, crtName img = some name := by
  obtain ⟨b, is_b, -⟩ := @sub_inside img 0x20 0x40 (by decide) header
  unfold crtName
  rw [is_b]
  exact ⟨_, rfl⟩

/-! ## Powers of two -/

/-- The loop ends at the power that it is to find. -/
theorem powerFrom_ends {n k e : ℕ} (le : k ≤ e) (room : n ≤ 2 ^ e) :
    ∃ j, powerFrom n (2 ^ k) = some (2 ^ j) ∧ j ≤ e ∧ n ≤ 2 ^ j := by
  induction h : e - k generalizing k with
  | zero =>
    obtain rfl : k = e := by omega
    rw [powerFrom, if_neg (by omega)]
    exact ⟨k, rfl, le_rfl, room⟩
  | succ d ih =>
    rw [powerFrom]
    split
    next =>
      rw [if_neg (Nat.pow_pos (by decide)).ne', ← Nat.pow_succ]
      exact ih (by omega) (by omega)
    next big => exact ⟨k, rfl, le, by omega⟩

/-- Copies of a power of two fill a larger power. -/
theorem mirror_inside {out : Bytes} {base k e : ℕ} (room : base + 2 ^ e ≤ out.size) :
    ∃ out', mirror out base (2 ^ k) (2 ^ e) = some out' ∧ out'.size = out.size := by
  induction h : e - k generalizing k out with
  | zero =>
    have big : ¬2 ^ k < 2 ^ e := Nat.not_lt.mpr (Nat.pow_le_pow_right (by decide) (by omega))
    rw [mirror, if_neg big]
    exact ⟨out, rfl, rfl⟩
  | succ d ih =>
    have small : 2 ^ k < 2 ^ e := Nat.pow_lt_pow_right (by decide) (by omega)
    have twice : 2 ^ (k + 1) ≤ 2 ^ e := Nat.pow_le_pow_right (by decide) (by omega)
    rw [Nat.pow_succ] at twice
    obtain ⟨copied, is_copied, sized⟩ := @copy_inside out out base (base + 2 ^ k)
      (base + 2 ^ k) (by omega) (by omega) (by omega)
    rw [mirror, if_pos small, if_neg (Nat.pow_pos (by decide)).ne', is_copied, Option.bind_some, ← Nat.pow_succ]
    obtain ⟨out', is_out, same⟩ := @ih copied (k + 1) (by omega) (by omega)
    exact ⟨out', is_out, same.trans sized⟩

/-! ## Function ROMs -/

theorem chipImage_ends {img out : Bytes} {c : Chip} (fits : Fits img c) (sized : out.size = 0x8000) :
    Ends (chipImage img out c) fun out => out.size = 0x8000 := by
  unfold chipImage
  split
  next => exact .throw
  next good =>
    have most : c.size ≤ 2 ^ 14 := by omega
    have half : (if c.start = 0xC000 then 0x4000 else 0) ≤ 0x4000 := by split <;> omega
    unfold Fits at fits
    dsimp only
    refine .access (fun b => b.size = 0x8000) ?_ fun out' sized' => ?_
    · obtain ⟨b, is_b, same⟩ := @copy_inside img out c.data (c.data + c.size)
        (if c.start = 0xC000 then 0x4000 else 0) (by omega) fits (by omega)
      exact ⟨b, is_b, same.trans sized⟩
    · obtain ⟨j, power, small, -⟩ := @powerFrom_ends c.size 0 14 (by decide) most
      refine .access (fun p => p = 2 ^ j) ⟨_, power, rfl⟩ fun p is_p => ?_
      obtain ⟨b, is_b, same⟩ := @mirror_inside out' (if c.start = 0xC000 then 0x4000 else 0) j 14 (by omega)
      have either : (if p = c.size then c.size else p) = 2 ^ j := by
        rw [is_p]
        split
        next whole => exact whole.symm
        next => rfl
      rw [either]
      exact .lift is_b (same.trans sized')

theorem rawImage_ends {img out : Bytes} (sized : out.size = 0x8000) (sizes : List ℕ)
    (powers : ∀ len ∈ sizes, ∃ k ≤ 15, len = 2 ^ k) :
    Ends (rawImage img out sizes) fun made => made.1.size = 0x8000 := by
  induction sizes with
  | nil => exact .throw
  | cons len rest ih =>
    rw [rawImage]
    split
    next => exact ih fun len mem => powers len (List.mem_cons_of_mem _ mem)
    next fits =>
      obtain ⟨k, small, rfl⟩ := powers len (List.mem_cons_self ..)
      have less : 2 ^ k ≤ 2 ^ 15 := Nat.pow_le_pow_right (by decide) small
      have room : 0 + (img.size - (img.size - 2 ^ k)) ≤ out.size := by
        rw [sized]
        generalize 2 ^ k = len at less ⊢
        omega
      refine .access (fun b => b.size = 0x8000) ?_ fun out' sized' => ?_
      · obtain ⟨b, is_b, same⟩ := @copy_inside img out (img.size - 2 ^ k) img.size 0 (Nat.sub_le ..) le_rfl room
        exact ⟨b, is_b, same.trans sized⟩
      · refine .access (fun b => b.size = 0x8000) ?_ fun out'' sized'' => .pure sized''
        obtain ⟨b, is_b, same⟩ := @mirror_inside out' 0 k 15 (by omega)
        exact ⟨b, is_b, same.trans sized'⟩

theorem functionRomImage_ends (img : Bytes) :
    Ends (functionRomImage img) fun made => made.1.size = 0x8000 := by
  unfold functionRomImage
  refine .access _ (isCrt_inside img) fun crt header => ?_
  split
  next is_crt =>
    have long := header is_crt
    refine .read (be16_inside (by omega)) fun hw => ?_
    split
    next => exact .throw
    next =>
      refine .bind (crtChips_ends long) fun chips made => ?_
      obtain ⟨-, fit⟩ := made
      split
      next => exact .throw
      next =>
        refine .bind (.foldlM (fun out : Bytes => out.size = 0x8000)
          (fun out c mem sized => chipImage_ends (fit c mem) sized) rfl) fun out sized => ?_
        exact .read (crtName_inside long) fun name => .pure sized
  next =>
    refine rawImage_ends rfl _ ?_
    intro len mem
    simp only [List.mem_cons, List.not_mem_nil, or_false] at mem
    rcases mem with rfl | rfl | rfl | rfl | rfl | rfl
    · exact ⟨15, by decide, rfl⟩
    · exact ⟨14, by decide, rfl⟩
    · exact ⟨13, by decide, rfl⟩
    · exact ⟨12, by decide, rfl⟩
    · exact ⟨11, by decide, rfl⟩
    · exact ⟨10, by decide, rfl⟩

/-! ## Cartridges -/

/-- Every bank is one of the ROM's, and every buffer has its size. -/
def Inside : Cart → Prop
  | .generic c => c.m_rom.size = 0x8000
  | .comal80 c => c.m_rom.size = 6 * 0x8000 ∧ c.m_bank < 6
  | .magicDesk128 c => c.m_rom.size = 64 * 0x8000 ∧ c.m_bank < 64 ∧ c.m_mask < 64
  | .warpSpeed128 c => c.m_rom.size = 0x8000
  | .partner128 c => c.m_rom.size = 0x8000 ∧ c.m_ram.size = 64 * 128 ∧ c.m_bank < 64
  | .gmod2C128 c => c.m_flash.data.size = 0x80000 ∧ c.m_bank.toNat < 32 ∧
      c.m_eeprom.data.size = 2048 ∧ c.m_eeprom.m_addr.toNat < 1024

theorem generic_ends (img : Bytes) : Ends (generic img) Inside :=
  .bind (functionRomImage_ends img) fun _ sized => .pure sized

theorem comal_store (c : Comal80Cart) (v : Byte) : (c.store v).m_rom = c.m_rom ∧ (c.store v).m_bank < 6 := by
  refine ⟨rfl, ?_⟩
  unfold Comal80Cart.store
  dsimp only
  revert v
  decide

theorem foldlM_copies {raw rom : Bytes} (n : ℕ) (first last off : ℕ → ℕ) (size : ℕ) (sized : rom.size = size)
    (inside : ∀ i, i < n → first i ≤ last i ∧ last i ≤ raw.size ∧ off i + (last i - first i) ≤ size) :
    ∃ rom', (List.range n).foldlM (fun rom i => raw.copy (first i) (last i) rom (off i)) rom = some rom' ∧
      rom'.size = size := by
  induction n with
  | zero => exact ⟨rom, rfl, sized⟩
  | succ n ih =>
    obtain ⟨rom', run, sized'⟩ := ih fun i low => inside i (by omega)
    obtain ⟨up, low, room⟩ := inside n (Nat.lt_succ_self n)
    obtain ⟨rom'', is_rom, same⟩ := @copy_inside raw rom' (first n) (last n) (off n) up low (by rw [sized']; exact room)
    rw [List.range_succ, List.foldlM_append, run]
    refine ⟨rom'', ?_, same.trans sized'⟩
    simp only [Option.bind_eq_bind, Option.bind_some, List.foldlM_cons, List.foldlM_nil, is_rom]
    rfl

theorem comal_new {raw : Bytes} (sized : raw.size = 0x18000) :
    ∃ c, Comal80Cart.new raw = some c ∧ Inside (.comal80 c) := by
  obtain ⟨rom, run, same⟩ := @foldlM_copies raw (.new (6 * 0x8000) 0xFF) 6 (fun n => n * 0x4000)
    (fun n => (n + 1) * 0x4000) (fun n => 0x4000 + 0x8000 * n) (6 * 0x8000) rfl (fun i low => by omega)
  unfold Comal80Cart.new
  rw [run]
  exact ⟨_, rfl, same, (comal_store _ 0).2⟩

theorem magic_new {raw : Bytes} {banks : ℕ} (sized : raw.size = banks * 0x4000) (few : banks ≤ 64) :
    ∃ c, MagicDesk128Cart.new raw banks = some c ∧ Inside (.magicDesk128 c) := by
  obtain ⟨rom, run, same⟩ := @foldlM_copies raw (.new (64 * 0x8000) 0xFF) banks
    (fun n => n * 0x4000) (fun n => (n + 1) * 0x4000) (fun n => 0x8000 * n) (64 * 0x8000) rfl
    (fun i low => by omega)
  obtain ⟨j, power, small, -⟩ := @powerFrom_ends banks 0 6 (by decide) few
  have most : 2 ^ j ≤ 2 ^ 6 := Nat.pow_le_pow_right (by decide) small
  have pos : 0 < 2 ^ j := Nat.pow_pos (by decide)
  unfold MagicDesk128Cart.new
  rw [run]
  show ∃ c, ((powerFrom banks (2 ^ 0)).bind fun p => some (⟨rom, 0, p - 1, 0⟩ : MagicDesk128Cart)) = some c ∧ _
  rw [power]
  refine ⟨_, rfl, same, ?_, ?_⟩
  · show 0 < 64
    decide
  · show 2 ^ j - 1 < 64
    omega

theorem mirrored_inside {raw : Bytes} (sized : raw.size = 0x4000) :
    ∃ rom, mirrored raw = some rom ∧ rom.size = 0x8000 := by
  obtain ⟨rom, is_rom, same⟩ := @copy_inside raw (.new 0x8000 0) 0 0x4000 0 (by decide) (by omega) (by decide)
  obtain ⟨rom', is_rom', same'⟩ := @copy_inside raw rom 0 0x4000 0x4000 (by decide) (by omega) (by rw [same]; decide)
  unfold mirrored
  rw [is_rom]
  exact ⟨rom', is_rom', same'.trans same⟩

theorem chipsAt_ends {img raw : Bytes} {start size : ℕ} {err : String} {chips : List Chip}
    (fit : ∀ c ∈ chips, Fits img c) (sized : raw.size = size) (room : chips.length * 0x4000 ≤ size) :
    Ends (chipsAt img start err raw chips) fun raw => raw.size = size := by
  refine .foldlM _ (fun raw packet mem same => ?_) sized
  obtain ⟨c, n⟩ := packet
  obtain ⟨in_chips, in_range⟩ := List.of_mem_zip mem
  have low := List.mem_range.mp in_range
  have inside := fit c in_chips
  unfold Fits at inside
  dsimp only
  split
  next => exact .throw
  next good =>
    have there : n * 0x4000 + (c.data + 0x4000 - c.data) ≤ raw.size := by
      rw [same, Nat.add_sub_cancel_left, ← Nat.succ_mul]
      exact (Nat.mul_le_mul_right _ low).trans room
    obtain ⟨b, is_b, kept⟩ := @copy_inside img raw c.data (c.data + 0x4000)
      (n * 0x4000) (by omega) (by omega) there
    exact .lift is_b (kept.trans same)

theorem makeSingle_ends {img : Bytes} (header : 0x40 ≤ img.size) (hw : ℕ) : Ends (makeSingle img hw) Inside := by
  refine .bind (crtChips_ends header) fun chips made => ?_
  obtain ⟨some_, fit⟩ := made
  cases chips with
  | nil => exact absurd rfl some_
  | cons c rest =>
    have inside := fit c (List.mem_cons_self ..)
    unfold Fits at inside
    dsimp only
    split
    next => exact .throw
    next good =>
      refine .access _ (sub_inside (by omega) (by omega)) fun raw sized => ?_
      have whole : raw.size = 0x4000 := by omega
      split
      next =>
        refine .access _ (mirrored_inside whole) fun rom is_rom => .pure ?_
        exact is_rom
      next =>
        refine .access (fun c => Inside (.partner128 c)) ?_ fun c inside => .pure inside
        obtain ⟨rom, is_rom, length⟩ := mirrored_inside whole
        unfold Partner128Cart.new
        rw [is_rom]
        exact ⟨_, rfl, length, rfl, by show 0 < 64; decide⟩

theorem makeComal80_ends {img : Bytes} (header : 0x40 ≤ img.size) : Ends (makeComal80 img) Inside := by
  refine .bind (crtChips_ends header) fun chips made => ?_
  obtain ⟨-, fit⟩ := made
  split
  next => exact .throw
  next many =>
    refine .bind (@chipsAt_ends img _ _ 0x18000 _ _ (fun c mem => fit c (List.mem_of_mem_take mem)) rfl ?_)
      fun raw sized => .access _ (comal_new sized) fun c inside => .pure inside
    rw [List.length_take]
    omega

theorem makeMagicDesk128_ends {img : Bytes} (header : 0x40 ≤ img.size) : Ends (makeMagicDesk128 img) Inside := by
  refine .bind (crtChips_ends header) fun chips made => ?_
  obtain ⟨-, fit⟩ := made
  dsimp only
  refine .bind (@chipsAt_ends img _ _ (min chips.length 64 * 0x4000) _ _ (fun c mem => fit c (List.mem_of_mem_take mem))
    rfl ?_) fun raw sized => .access _ (magic_new sized (by omega)) fun c inside => .pure inside
  rw [List.length_take]
  exact Nat.mul_le_mul_right _ (by omega)

theorem makeGMod2C128_ends {img : Bytes} (header : 0x40 ≤ img.size) : Ends (makeGMod2C128 img) Inside := by
  refine .bind (crtChips_ends header) fun chips made => ?_
  obtain ⟨-, fit⟩ := made
  refine .bind (.foldlM (fun raw : Bytes => raw.size = 0x80000) (fun raw c mem same => ?_) rfl) fun raw sized => ?_
  · have inside := fit c mem
    unfold Fits at inside
    split
    next => exact .throw
    next good =>
      obtain ⟨b, is_b, kept⟩ := @copy_inside img raw c.data (c.data + 0x4000)
        (c.bank * 0x4000) (by omega) (by omega) (by omega)
      exact .lift is_b (kept.trans same)
  · refine .access (fun c => Inside (.gmod2C128 c)) ?_ fun c inside => .pure inside
    obtain ⟨data, is_data, same⟩ := @copy_inside raw Flash040.new.data 0 raw.size 0
      (Nat.zero_le _) le_rfl (by rw [sized]; decide)
    unfold GMod2C128Cart.new
    rw [is_data]
    exact ⟨_, rfl, same, (by decide : (0 : BitVec 32).toNat < 32), rfl, (by decide : (0 : BitVec 32).toNat < 1024)⟩

theorem rawMagicDesk_ends {img : Bytes} (sizes : List ℕ) (banks : ∀ size ∈ sizes, ∃ n ≤ 64, size = n * 0x4000) :
    Ends (rawMagicDesk img sizes) Inside := by
  induction sizes with
  | nil => exact .throw
  | cons size rest ih =>
    rw [rawMagicDesk]
    refine .access _ (rawOfSize_inside img size) fun raw sized => ?_
    cases raw with
    | none => exact ih fun size mem => banks size (List.mem_cons_of_mem _ mem)
    | some raw =>
      obtain ⟨n, few, rfl⟩ := banks size (List.mem_cons_self ..)
      dsimp only
      rw [Nat.mul_div_cancel n (by decide)]
      exact .access _ (magic_new (sized raw rfl) few) fun c inside => .pure inside

theorem makeCart_ends (img : Bytes) : Ends (makeCart img) Inside := by
  refine .access _ (isCrt_inside img) fun crt header => ?_
  split
  next is_crt =>
    have long := header is_crt
    refine .read (be16_inside (by omega)) fun hw => .read (crtName_inside long) fun _ => ?_
    split
    · exact generic_ends img
    · exact makeSingle_ends long _
    · exact makeSingle_ends long _
    · exact makeComal80_ends long
    · exact makeMagicDesk128_ends long
    · exact makeGMod2C128_ends long
    · exact .throw
  next =>
    unfold makeRaw
    split
    next => exact generic_ends img
    next =>
      refine .access _ (rawOfSize_inside img 0x18000) fun raw sized => ?_
      cases raw with
      | some raw => exact .access _ (comal_new (sized raw rfl)) fun c inside => .pure inside
      | none =>
        refine rawMagicDesk_ends _ ?_
        intro size mem
        simp only [List.mem_cons, List.not_mem_nil, or_false] at mem
        rcases mem with rfl | rfl | rfl | rfl | rfl
        · exact ⟨64, by decide, rfl⟩
        · exact ⟨32, by decide, rfl⟩
        · exact ⟨16, by decide, rfl⟩
        · exact ⟨8, by decide, rfl⟩
        · exact ⟨4, by decide, rfl⟩

/-! ## Accesses -/

inductive Access where
  | romRead (a : BitVec 16) (peek : Bool)
  | romWrite (a : BitVec 16) (v : Byte)
  | io1 (a : BitVec 16) (wr : Option Byte) (peek : Bool) (v : Byte)
  | io2 (a : BitVec 16) (wr : Option Byte) (v : Byte)
  | iod6Write (a : BitVec 16) (v : Byte)
  | reset
  | freeze

/-- The cartridge behind an access; `none` where it indexes outside of a buffer. -/
def access (c : Cart) : Access → Option Cart
  | .romRead a peek => (c.romRead a peek).map Prod.snd
  | .romWrite a v => c.romWrite a v
  | .io1 a wr peek v => (c.io1 a wr peek v).map fun r => r.2.2
  | .io2 a wr v => (c.io2 a wr v).map fun r => r.2.2
  | .iod6Write a v => c.iod6Write a v
  | .reset => some c.reset
  | .freeze => some c.freeze.2

theorem low_lt (a : BitVec 16) : (a &&& 0x7FFF).toNat < 0x8000 ∧ (a &&& 0xFF).toNat < 0x100 ∧
    (a &&& 0x0F).toNat < 0x10 := by
  refine ⟨?_, ?_, ?_⟩ <;> rw [BitVec.toNat_and]
  · exact Nat.lt_succ_of_le Nat.and_le_right
  · exact Nat.lt_succ_of_le Nat.and_le_right
  · exact Nat.lt_succ_of_le Nat.and_le_right

/-! ### The flash -/

theorem flash_read {f : Flash040} {a : BitVec 32} (sized : f.data.size = 0x80000) (inside : a.toNat < 0x80000) :
    ∃ v f', f.read a = some (v, f') ∧ f'.data.size = 0x80000 := by
  have got : f.data.get a.toNat = some (f.data.item a.toNat) := Buffer.get_of_lt (by rw [sized]; exact inside)
  unfold Flash040.read
  rw [got]
  split
  · split
    · exact ⟨_, _, rfl, sized⟩
    · split
      · exact ⟨_, _, rfl, sized⟩
      · split
        · exact ⟨_, _, rfl, sized⟩
        · exact ⟨_, _, rfl, sized⟩
  · exact ⟨_, _, rfl, sized⟩
  · exact ⟨_, _, rfl, sized⟩

theorem sector_lt (a : BitVec 32) : (a &&& 0x70000).toNat + 0x10000 ≤ 0x80000 := by
  have most : (a &&& 0x70000).toNat ≤ 0x70000 := by
    rw [BitVec.toNat_and]
    exact Nat.and_le_right
  omega

theorem flash_store {f : Flash040} {a : BitVec 32} (b : Byte) (sized : f.data.size = 0x80000)
    (inside : a.toNat < 0x80000) : ∃ f', f.store a b = some f' ∧ f'.data.size = 0x80000 := by
  have within : a.toNat < f.data.size := by
    rw [sized]
    exact inside
  have filled (first last : ℕ) (x : Byte) (up : first ≤ last) (room : last ≤ f.data.size) :
      ∃ b', f.data.fill first last x = some b' ∧ b'.size = 0x80000 := ⟨_, if_pos ⟨up, room⟩, sized⟩
  unfold Flash040.store
  dsimp only
  split
  · split <;> exact ⟨_, rfl, sized⟩
  · exact ⟨_, rfl, sized⟩
  · split
    · exact ⟨_, rfl, sized⟩
    · unfold Flash040.select
      split <;> exact ⟨_, rfl, sized⟩
  · rw [Buffer.get_of_lt within, Option.bind_eq_bind, Option.bind_some, Buffer.set_of_lt within]
    exact ⟨_, rfl, sized⟩
  · exact ⟨_, rfl, sized⟩
  · exact ⟨_, rfl, sized⟩
  · split
    · obtain ⟨data, is_data, same⟩ := filled 0 f.data.size 0xFF (Nat.zero_le _) le_rfl
      rw [is_data]
      exact ⟨_, rfl, same⟩
    · split
      · obtain ⟨data, is_data, same⟩ := filled (a &&& 0x70000).toNat ((a &&& 0x70000).toNat + 0x10000) 0xFF
          (Nat.le_add_right ..) (by rw [sized]; exact sector_lt a)
        rw [is_data]
        exact ⟨_, rfl, same⟩
      · exact ⟨_, rfl, sized⟩
  · split <;> split <;> exact ⟨_, rfl, sized⟩
  · split <;> split <;> exact ⟨_, rfl, sized⟩

/-! ### The EEPROM -/

def Words (e : M93C86) : Prop := e.data.size = 2048 ∧ e.m_addr.toNat < 1024

theorem word_lt {addr : BitVec 32} (low : addr.toNat < 1024) : (addr <<< 1).toNat + 1 < 2048 := by
  rw [BitVec.toNat_shiftLeft, Nat.shiftLeft_eq]
  omega

theorem masked_lt (x : BitVec 32) : (x &&& 0x3FF).toNat < 1024 := by
  rw [BitVec.toNat_and]
  exact Nat.lt_succ_of_le Nat.and_le_right

theorem setWord_inside {data : Bytes} {i : ℕ} (d0 d1 : Byte) (inside : i + 1 < data.size) :
    ∃ data', M93C86.setWord data i d0 d1 = some data' ∧ data'.size = data.size := by
  unfold M93C86.setWord
  rw [Buffer.set_of_lt (by omega), Option.bind_eq_bind, Option.bind_some, Buffer.set_of_lt (by exact inside)]
  exact ⟨_, rfl, rfl⟩

theorem store_inside {e : M93C86} (d0 d1 : Byte) (words : Words e) : ∃ e', e.store d0 d1 = some e' ∧ Words e' := by
  obtain ⟨data, is_data, same⟩ := @setWord_inside e.data _ d0 d1 (by rw [words.1]; exact word_lt words.2)
  unfold M93C86.store
  rw [is_data]
  exact ⟨_, rfl, same.trans words.1, words.2⟩

theorem storeAll_inside {e : M93C86} (d0 d1 : Byte) (words : Words e) :
    ∃ e', e.storeAll d0 d1 = some e' ∧ Words e' := by
  have loop : ∀ n, n ≤ 1024 → ∃ data, (List.range n).foldlM
      (fun data k => M93C86.setWord data (2 * k) d0 d1) e.data = some data ∧ data.size = 2048 := by
    intro n
    induction n with
    | zero => exact fun _ => ⟨e.data, rfl, words.1⟩
    | succ n ih =>
      intro few
      obtain ⟨data, run, sized⟩ := ih (by omega)
      obtain ⟨data', is_data, same⟩ := @setWord_inside data (2 * n) d0 d1 (by omega)
      refine ⟨data', ?_, same.trans sized⟩
      rw [List.range_succ, List.foldlM_append, run]
      simp only [Option.bind_eq_bind, Option.bind_some, List.foldlM_cons, List.foldlM_nil, is_data]
      rfl
  obtain ⟨data, run, sized⟩ := loop ((e.data.size + 1) / 2) (by rw [words.1])
  unfold M93C86.storeAll
  rw [run]
  exact ⟨_, rfl, sized, words.2⟩

theorem addressed_inside {e : M93C86} (words : Words e) : ∃ e', e.addressed = some e' ∧ Words e' := by
  unfold M93C86.addressed
  split
  · exact ⟨_, rfl, words.1, masked_lt _⟩
  · exact ⟨_, rfl, words⟩
  · exact ⟨_, rfl, words⟩
  · split
    · obtain ⟨e', is_e, words'⟩ := store_inside (e := { e with m_addr := e.m_inReg &&& 0x3FF }) 0xFF 0xFF
        ⟨words.1, masked_lt _⟩
      rw [is_e]
      exact ⟨_, rfl, words'⟩
    · exact ⟨_, rfl, words⟩
  · split
    · obtain ⟨data, is_data, same⟩ : ∃ b, e.data.fill 0 e.data.size 0xFF = some b ∧ b.size = e.data.size :=
        ⟨_, if_pos ⟨Nat.zero_le _, le_rfl⟩, rfl⟩
      rw [is_data]
      exact ⟨_, rfl, same.trans words.1, words.2⟩
    · exact ⟨_, rfl, words⟩
  · exact ⟨e, rfl, words⟩

theorem filled_inside {e : M93C86} (words : Words e) : ∃ e', e.filled = some e' ∧ Words e' := by
  unfold M93C86.filled
  dsimp only
  split
  · split
    · split
      · obtain ⟨e', is_e, words'⟩ := store_inside (e := { e with m_addr := (e.m_inReg >>> 16) &&& 0x3FF })
          ((e.m_inReg >>> 8).setWidth 8) (e.m_inReg.setWidth 8) ⟨words.1, masked_lt _⟩
        rw [is_e]
        exact ⟨_, rfl, words'⟩
      · obtain ⟨e', is_e, words'⟩ := storeAll_inside ((e.m_inReg >>> 8).setWidth 8) (e.m_inReg.setWidth 8) words
        rw [is_e]
        exact ⟨_, rfl, words'⟩
    · exact ⟨_, rfl, words⟩
  · exact ⟨e, rfl, words⟩

theorem shiftIn_inside {e : M93C86} (words : Words e) : ∃ e', e.shiftIn = some e' ∧ Words e' := by
  unfold M93C86.shiftIn
  dsimp only
  split
  · split <;> exact ⟨_, rfl, words⟩
  · exact ⟨_, rfl, words⟩
  · refine ⟨_, rfl, ?_⟩
    unfold M93C86.opcode00
    split
    · split <;> exact words
    · exact words
  · exact addressed_inside words
  · exact filled_inside words
  · exact ⟨_, rfl, words⟩

theorem clock_inside {e : M93C86} (words : Words e) : ∃ e', e.clock = some e' ∧ Words e' := by
  have byte : ∀ i, i < 2048 → e.data.get i = some (e.data.item i) := fun i low =>
    Buffer.get_of_lt (by rw [words.1]; exact low)
  have even := word_lt words.2
  unfold M93C86.clock
  split
  · rw [byte _ (by omega)]
    exact ⟨_, rfl, words⟩
  · dsimp only [M93C86.shiftOut]
    split
    · rw [byte _ even]
      exact ⟨_, rfl, words⟩
    · split
      · have next := word_lt (masked_lt (e.m_addr + 1))
        rw [byte _ (by omega)]
        exact ⟨_, rfl, words.1, masked_lt _⟩
      · exact ⟨_, rfl, words⟩
  · exact shiftIn_inside words

theorem writeClock_inside {e : M93C86} (v : Byte) (words : Words e) : ∃ e', e.writeClock v = some e' ∧ Words e' := by
  unfold M93C86.writeClock
  split
  · obtain ⟨e', is_e, words'⟩ := clock_inside words
    rw [is_e]
    exact ⟨_, rfl, words'⟩
  · exact ⟨_, rfl, words⟩

theorem writeSelect_words {e : M93C86} (v : Byte) (words : Words e) : Words (e.writeSelect v) := by
  have input : ∃ inReg inCount cmd, (if e.m_cs = 0 ∧ v ≠ 0 ∧ e.m_clock = 0 then e.resetInput
      else if e.m_cs ≠ 0 ∧ v = 0 ∧ (e.m_cmd = .WRITE ∨ e.m_cmd = .WRAL ∨ e.m_cmd = .ERAL) then
        { e with m_cmd := .ISBUSY }
      else e) = { e with m_inReg := inReg, m_inCount := inCount, m_cmd := cmd } := by
    split
    · exact ⟨0, 0, e.m_cmd, rfl⟩
    · split
      · exact ⟨e.m_inReg, e.m_inCount, .ISBUSY, rfl⟩
      · exact ⟨e.m_inReg, e.m_inCount, e.m_cmd, rfl⟩
  obtain ⟨inReg, inCount, cmd, is_input⟩ := input
  unfold M93C86.writeSelect
  dsimp only
  rw [is_input]
  split <;> exact words

theorem readData_words {e : M93C86} (words : Words e) : Words e.readData.2 := by
  unfold M93C86.readData
  split
  · exact words
  · split <;> exact words

/-! ### All of them -/

theorem place_lt {c : GMod2C128Cart} (a : BitVec 16) (low : c.m_bank.toNat < 32) : (c.place a).toNat < 0x80000 := by
  have offset : (a.setWidth 32 &&& 0x3FFF).toNat ≤ 0x3FFF := by
    rw [BitVec.toNat_and]
    exact Nat.and_le_right
  have bank : (c.m_bank <<< 14).toNat = c.m_bank.toNat * 2 ^ 14 := by
    rw [BitVec.toNat_shiftLeft, Nat.shiftLeft_eq]
    omega
  unfold GMod2C128Cart.place
  rw [BitVec.toNat_add, bank]
  omega

theorem gmod2_inside {c : GMod2C128Cart} (inside : Inside (.gmod2C128 c)) (e : Access) :
    ∃ c', access (.gmod2C128 c) e = some c' ∧ Inside c' := by
  obtain ⟨sized, bank, words⟩ := inside
  cases e with
  | romRead a peek =>
    have low := place_lt a bank
    show ∃ c', (((c.romRead a peek).map fun r => (r.1, Cart.gmod2C128 r.2)).map Prod.snd) = some c' ∧ _
    unfold GMod2C128Cart.romRead
    split
    · rw [Buffer.get_of_lt (by rw [sized]; exact low)]
      exact ⟨_, rfl, sized, bank, words⟩
    · obtain ⟨v, f, is_f, same⟩ := flash_read sized low
      rw [is_f]
      exact ⟨_, rfl, same, bank, words⟩
  | romWrite a v =>
    obtain ⟨f, is_f, same⟩ := flash_store v sized (place_lt a bank)
    show ∃ c', (c.romWrite a v).map Cart.gmod2C128 = some c' ∧ _
    unfold GMod2C128Cart.romWrite
    rw [is_f]
    exact ⟨_, rfl, same, bank, words⟩
  | io1 a wr peek v =>
    show ∃ c', (((c.io1 wr peek v).map fun r => (r.1, r.2.1, Cart.gmod2C128 r.2.2)).map fun r => r.2.2) = some c' ∧ _
    unfold GMod2C128Cart.io1
    cases wr with
    | some w =>
      have low : ((w &&& 0x1F).setWidth 32).toNat < 32 := by
        rw [BitVec.toNat_setWidth, BitVec.toNat_and]
        exact Nat.lt_of_le_of_lt (Nat.mod_le ..) (Nat.lt_succ_of_le Nat.and_le_right)
      have selected := writeSelect_words ((w >>> 6) &&& 1) words
      dsimp only
      split
      · have fed : Words ((c.m_eeprom.writeSelect ((w >>> 6) &&& 1)).writeData ((w >>> 4) &&& 1)) := by
          unfold M93C86.writeData
          split <;> exact selected
        obtain ⟨e, is_e, words'⟩ := writeClock_inside ((w >>> 5) &&& 1) fed
        rw [is_e]
        exact ⟨_, rfl, sized, low, words'⟩
      · exact ⟨_, rfl, sized, low, selected⟩
    | none =>
      have words' := readData_words words
      dsimp only
      split
      · exact ⟨_, rfl, sized, bank, words'⟩
      · split
        · exact ⟨_, rfl, sized, bank, words⟩
        · exact ⟨_, rfl, sized, bank, words'⟩
  | io2 | iod6Write | freeze => exact ⟨_, rfl, sized, bank, words⟩
  | reset => exact ⟨_, rfl, sized, bank, writeSelect_words 0 words⟩

theorem access_inside {c : Cart} (inside : Inside c) (e : Access) : ∃ c', access c e = some c' ∧ Inside c' := by
  have got {rom : Bytes} {n i : ℕ} (sized : rom.size = n) (low : i < n) : rom.get i = some (rom.item i) :=
    Buffer.get_of_lt (by rw [sized]; exact low)
  cases c with
  | generic c =>
    cases e with
    | romRead a peek =>
      show ∃ c', (((c.m_rom.get _).map fun v => (v, Cart.generic c)).map Prod.snd) = some c' ∧ _
      rw [got inside (low_lt a).1]
      exact ⟨_, rfl, inside⟩
    | romWrite | io1 | io2 | iod6Write | reset | freeze => exact ⟨_, rfl, inside⟩
  | comal80 c =>
    obtain ⟨sized, bank⟩ := inside
    have stored : ∀ v, Inside (.comal80 (c.store v)) := fun v => ⟨sized, (comal_store c v).2⟩
    cases e with
    | romRead a peek =>
      have low := (low_lt a).1
      show ∃ c', (((bankByte c.m_rom c.m_bank a).map fun v => (v, Cart.comal80 c)).map Prod.snd) = some c' ∧ _
      rw [bankByte, got sized (by omega)]
      exact ⟨_, rfl, sized, bank⟩
    | io1 a wr peek v =>
      have low := (low_lt a).2.1
      show ∃ c', (((c.io1 a wr peek v).map fun r => (r.1, r.2.1, Cart.comal80 r.2.2)).map fun r => r.2.2) = some c' ∧ _
      unfold Comal80Cart.io1
      cases wr with
      | some w => exact ⟨_, rfl, stored w⟩
      | none =>
        dsimp only
        split
        · rw [window, got sized (by omega)]
          exact ⟨_, rfl, sized, bank⟩
        · exact ⟨_, rfl, sized, bank⟩
    | io2 a wr v =>
      have low := (low_lt a).2.1
      cases wr with
      | some w => exact ⟨_, rfl, sized, bank⟩
      | none =>
        show ∃ c', (((window c.m_rom 0x1F00 a).map fun v => (true, v, Cart.comal80 c)).map fun r => r.2.2) = some c' ∧ _
        rw [window, got sized (by omega)]
        exact ⟨_, rfl, sized, bank⟩
    | reset => exact ⟨_, rfl, stored 0⟩
    | romWrite | iod6Write | freeze => exact ⟨_, rfl, sized, bank⟩
  | magicDesk128 c =>
    obtain ⟨sized, bank, mask⟩ := inside
    have masked (n : ℕ) : n &&& c.m_mask < 64 := Nat.lt_of_le_of_lt Nat.and_le_right mask
    cases e with
    | romRead a peek =>
      have low := (low_lt a).1
      show ∃ c', (((bankByte c.m_rom c.m_bank a).map fun v => (v, Cart.magicDesk128 c)).map Prod.snd) = some c' ∧ _
      rw [bankByte, got sized (by omega)]
      exact ⟨_, rfl, sized, bank, mask⟩
    | io1 a wr peek v =>
      cases wr with
      | some w => exact ⟨_, rfl, sized, masked _, mask⟩
      | none =>
        cases peek with
        | true => exact ⟨_, rfl, sized, bank, mask⟩
        | false => exact ⟨_, rfl, sized, masked _, mask⟩
    | reset => exact ⟨_, rfl, sized, by show 0 < 64; decide, mask⟩
    | romWrite | io2 | iod6Write | freeze => exact ⟨_, rfl, sized, bank, mask⟩
  | warpSpeed128 c =>
    have seen (base : ℕ) (room : base + 0x100 ≤ 0x8000) (a : BitVec 16) (wr : Option Byte) (v : Byte) :
        ∃ c', ((if wr.isSome then some (false, v, Cart.warpSpeed128 c)
          else (window c.m_rom base a).map fun v => (true, v, Cart.warpSpeed128 c)).map fun r => r.2.2) = some c' ∧
            Inside c' := by
      have low := (low_lt a).2.1
      split
      · exact ⟨_, rfl, inside⟩
      · rw [window, got inside (by omega)]
        exact ⟨_, rfl, inside⟩
    cases e with
    | romRead a peek =>
      show ∃ c', (((c.m_rom.get _).map fun v => (v, Cart.warpSpeed128 c)).map Prod.snd) = some c' ∧ _
      rw [got inside (low_lt a).1]
      exact ⟨_, rfl, inside⟩
    | io1 a wr peek v => exact seen 0x1E00 (by decide) a wr v
    | io2 a wr v => exact seen 0x1F00 (by decide) a wr v
    | romWrite | iod6Write | reset | freeze => exact ⟨_, rfl, inside⟩
  | partner128 c =>
    obtain ⟨rom, ram, bank⟩ := inside
    cases e with
    | romRead a peek =>
      show ∃ c', (((c.m_rom.get _).map fun v => (v, Cart.partner128 c)).map Prod.snd) = some c' ∧ _
      rw [got rom (low_lt a).1]
      exact ⟨_, rfl, rom, ram, bank⟩
    | io1 a wr peek v =>
      have low := (low_lt a).2.1
      show ∃ c', (((c.io1 a wr v).map fun r => (r.1, r.2.1, Cart.partner128 r.2.2)).map fun r => r.2.2) = some c' ∧ _
      unfold Partner128Cart.io1
      cases wr with
      | some w =>
        have low' : (w &&& 0x3F).toNat < 64 := by
          rw [BitVec.toNat_and]
          exact Nat.lt_succ_of_le Nat.and_le_right
        dsimp only
        split
        · rw [Buffer.set_of_lt (by rw [ram]; omega)]
          exact ⟨_, rfl, rom, ram, bank⟩
        · exact ⟨_, rfl, rom, ram, low'⟩
      | none =>
        dsimp only
        split
        · rw [got ram (by omega)]
          exact ⟨_, rfl, rom, ram, bank⟩
        · rw [got rom (by omega)]
          exact ⟨_, rfl, rom, ram, bank⟩
    | iod6Write a v =>
      have low := (low_lt a).2.2
      show ∃ c', (c.iod6Write a v).map Cart.partner128 = some c' ∧ _
      unfold Partner128Cart.iod6Write
      split
      · rw [Buffer.set_of_lt (by rw [ram]; omega)]
        exact ⟨_, rfl, rom, ram, bank⟩
      · exact ⟨_, rfl, rom, ram, bank⟩
    | reset => exact ⟨_, rfl, rom, ram, by show 0 < 64; decide⟩
    | romWrite | io2 | freeze => exact ⟨_, rfl, rom, ram, bank⟩
  | gmod2C128 c => exact gmod2_inside inside e

theorem accesses_inside {c : Cart} (inside : Inside c) (es : List Access) :
    ∃ c', es.foldlM access c = some c' ∧ Inside c' := by
  induction es generalizing c with
  | nil => exact ⟨c, rfl, inside⟩
  | cons e rest ih =>
    obtain ⟨c', one, inside'⟩ := access_inside inside e
    obtain ⟨c'', run, inside''⟩ := ih inside'
    refine ⟨c'', ?_, inside''⟩
    rw [List.foldlM_cons, one]
    exact run

/-- Neither loader goes wrong on any image, and a cartridge never does after one, whatever accesses
are made: its banks stay in its ROM. -/
theorem cart_images (img : Bytes) :
    Ends (functionRomImage img) (fun made => made.1.size = 0x8000) ∧
    Ends (makeCart img) fun c => ∀ es : List Access, ∃ c', es.foldlM access c = some c' ∧ Inside c' :=
  ⟨functionRomImage_ends img, (makeCart_ends img).mono fun _ inside es => accesses_inside inside es⟩

end Mmemu.Guarantees.CartImages
