import Mmemu.Library.Layers
import Mmemu.Source.SparseMemoryBus

/-!
# ROM overlays put on and taken off

When a ROM overlay that is added shows at every address of its range, and when taking it off
brings back what was there.
-/
namespace Mmemu.Guarantees.RomOverlays
open Mmemu.Library.Layers
open Mmemu.Source
open Mmemu.Source.MemoryBus

/-- The addresses from `base` on, `size` of them. -/
def InRange (base size addr : BitVec 32) : Prop :=
  base.toNat ≤ addr.toNat ∧ addr.toNat < base.toNat + size.toNat

/-- An overlay is put on and taken off again, seen from the addresses of a bus. -/
structure Stacks (mask base size : BitVec 32) (before added removed data : BitVec 32 → BitVec 8) :
    Prop where
  shown : ∀ addr, addr &&& mask = addr → InRange base size addr → added addr = data (addr - base)
  others : ∀ addr, addr &&& mask = addr → ¬ InRange base size addr → added addr = before addr
  back : ∀ addr, addr &&& mask = addr → removed addr = before addr

/-- An overlay whose end lies beyond the 32 bits covers nothing. -/
theorem covers_iff (base size addr : BitVec 32) :
    (base ≤ addr && addr < base + size : Bool) = true ↔
      InRange base size addr ∧ base.toNat + size.toNat < 2 ^ 32 := by
  simp only [Bool.and_eq_true, decide_eq_true_eq, BitVec.le_def, BitVec.lt_def, BitVec.toNat_add,
    InRange]
  have := base.isLt
  have := size.isLt
  have := addr.isLt
  constructor
  · rintro ⟨low, high⟩
    rcases Nat.lt_or_ge (base.toNat + size.toNat) (2 ^ 32) with fits | wraps
    · rw [Nat.mod_eq_of_lt fits] at high
      exact ⟨⟨low, high⟩, fits⟩
    · rw [Nat.mod_eq_sub_mod wraps, Nat.mod_eq_of_lt (by omega)] at high
      omega
  · rintro ⟨⟨low, high⟩, fits⟩
    rw [Nat.mod_eq_of_lt fits]
    exact ⟨low, high⟩

/-! ## The flat bus -/

section Flat
variable (io : IoHooks) (b : FlatMemoryBus) (base size : BitVec 32) (data : BitVec 32 → BitVec 8)

/-- Devices in front, then the overlays, and the array under them. -/
def flatView : View RomOverlay (BitVec 32) (BitVec 8) where
  covers o addr := o.base ≤ addr && addr < o.base + o.size
  shows o addr := o.data (addr - o.base)
  front := io.owns
  under := b.data

theorem read8Hooked_eq {addr : BitVec 32} (onBus : addr &&& b.addrMask = addr) :
    b.read8Hooked io addr = (flatView io b).look b.overlays addr := by
  unfold FlatMemoryBus.read8Hooked FlatMemoryBus.peek8
  rw [onBus]
  cases owned : io.owns addr with
  | some val => exact (View.look_of_front (v := flatView io b) owned).symm
  | none =>
    dsimp only
    cases found : b.findOverlay addr with
    | some o => exact (View.look_of_first (v := flatView io b) owned found).symm
    | none => exact (View.look_of_none (v := flatView io b) owned found).symm

/-- What the overlays of other bases and the array show. -/
def flatWithout (addr : BitVec 32) : BitVec 8 :=
  (flatView io b).look (b.overlays.filter fun o => !(o.base == base)) addr

/-- Where the new data can be seen, and the overlays that go with it hide nothing else. -/
structure FlatFits : Prop where
  free : ∀ addr, addr &&& b.addrMask = addr → InRange base size addr →
    match io.owns addr, b.findOverlay addr with
    | some val, _ => val = data (addr - base)
    | none, some o => o.data (addr - o.base) = data (addr - base)
    | none, none => base.toNat + size.toNat < 2 ^ 32 ∨ b.data addr = data (addr - base)
  ownBase : ∀ addr, addr &&& b.addrMask = addr → io.owns addr = none →
    ∀ o, b.findOverlay addr = some o → o.base = base →
      flatWithout io b base addr = o.data (addr - o.base)

def FlatStacks : Prop :=
  Stacks b.addrMask base size (b.read8Hooked io) ((b.addRomOverlay base size data).read8Hooked io)
    (((b.addRomOverlay base size data).removeRomOverlay base).read8Hooked io) data

theorem flatStacks_iff : FlatStacks io b base size data ↔ FlatFits io b base size data := by
  have added (addr : BitVec 32) (onBus : addr &&& b.addrMask = addr) :
      (b.addRomOverlay base size data).read8Hooked io addr =
        (flatView io b).look (b.overlays ++ [⟨base, size, data, false⟩]) addr :=
    read8Hooked_eq io (b.addRomOverlay base size data) onBus
  have removed (addr : BitVec 32) (onBus : addr &&& b.addrMask = addr) :
      ((b.addRomOverlay base size data).removeRomOverlay base).read8Hooked io addr =
        flatWithout io b base addr := by
    refine (read8Hooked_eq io ((b.addRomOverlay base size data).removeRomOverlay base)
      onBus).trans ?_
    unfold flatWithout FlatMemoryBus.removeRomOverlay FlatMemoryBus.addRomOverlay
      FlatMemoryBus.addOverlay
    rw [List.filter_append]
    have gone : [(⟨base, size, data, false⟩ : RomOverlay)].filter (fun o => !(o.base == base)) =
        [] := by simp
    rw [gone, List.append_nil]
    rfl
  have shows (addr : BitVec 32) (onBus : addr &&& b.addrMask = addr)
      (inside : InRange base size addr) :
      (b.addRomOverlay base size data).read8Hooked io addr = data (addr - base) ↔
        match io.owns addr, b.findOverlay addr with
        | some val, _ => val = data (addr - base)
        | none, some o => o.data (addr - o.base) = data (addr - base)
        | none, none => base.toNat + size.toNat < 2 ^ 32 ∨ b.data addr = data (addr - base) := by
    have covered : (flatView io b).covers ⟨base, size, data, false⟩ addr = true ↔
        base.toNat + size.toNat < 2 ^ 32 :=
      (covers_iff base size addr).trans (and_iff_right inside)
    rw [added addr onBus, View.look_append_eq_iff (v := flatView io b) (a := addr)
      (b := data (addr - base)) ⟨base, size, data, false⟩ (fun _ => rfl), covered]
    cases owned : io.owns addr with
    | some val =>
      rw [show (flatView io b).front addr = some val from owned]
    | none =>
      rw [show (flatView io b).front addr = none from owned]
      cases found : b.findOverlay addr with
      | some o =>
        rw [show (flatView io b).first b.overlays addr = some o from found]
        exact Iff.rfl
      | none =>
        rw [show (flatView io b).first b.overlays addr = none from found]
        exact Iff.rfl
  constructor
  · intro both
    refine ⟨?_, ?_⟩
    · intro addr onBus inside
      exact (shows addr onBus inside).mp (both.shown addr onBus inside)
    · intro addr onBus owned o found same
      have back := both.back addr onBus
      rw [removed addr onBus, read8Hooked_eq io b onBus, flatWithout, View.look_filter_eq_iff] at back
      exact back owned o found (by simp [same])
  · intro fits
    refine ⟨?_, ?_, ?_⟩
    · intro addr onBus inside
      exact (shows addr onBus inside).mpr (fits.free addr onBus inside)
    · intro addr onBus outside
      have uncovered : (flatView io b).covers ⟨base, size, data, false⟩ addr = false := by
        refine Bool.eq_false_iff.mpr fun covered => ?_
        exact outside ((covers_iff base size addr).mp covered).1
      rw [added addr onBus, read8Hooked_eq io b onBus]
      exact View.look_congr (View.first_append_of_not uncovered)
    · intro addr onBus
      rw [removed addr onBus, read8Hooked_eq io b onBus, flatWithout, View.look_filter_eq_iff]
      intro owned o found gone
      exact fits.ownBase addr onBus owned o found (by simpa using gone)

end Flat

/-! ## The sparse bus -/

section Sparse
variable (b : SparseMemoryBus) (base size : BitVec 32) (data : ℕ)

/-- The regions, and the pages under them. -/
def sparseView : View SparseRegion (BitVec 32) (BitVec 8) where
  covers r addr := r.base ≤ addr && addr < r.base + r.size
  shows r addr := b.host (r.data + (addr - r.base).toNat)
  front := fun _ => none
  under addr :=
    match b.pages.find (SparseMemoryBus.getPageAddr addr) with
    | some page => page (SparseMemoryBus.getPageOffset addr)
    | none => 0xFF

theorem read8_eq {addr : BitVec 32} (onBus : addr &&& b.addrMask = addr) :
    b.read8 addr = (sparseView b).look b.regions addr := by
  unfold SparseMemoryBus.read8 SparseMemoryBus.peek8 SparseMemoryBus.peek8Raw
  rw [onBus, onBus, onBus]
  dsimp only
  cases found : b.findRegion addr with
  | some r => exact (View.look_of_first (v := sparseView b) rfl found).symm
  | none => exact (View.look_of_none (v := sparseView b) rfl found).symm

/-- What the regions of other bases and the pages show. -/
def sparseWithout (addr : BitVec 32) : BitVec 8 :=
  (sparseView b).look (b.regions.filter fun r => !(r.base == base)) addr

/-- The range ends within the 32 bits, and the regions that go with it hide nothing else. -/
structure SparseFits : Prop where
  free : ∀ addr, addr &&& b.addrMask = addr → InRange base size addr →
    base.toNat + size.toNat < 2 ^ 32 ∨ b.read8 addr = b.host (data + (addr - base).toNat)
  ownBase : ∀ addr, addr &&& b.addrMask = addr →
    ∀ r, b.findRegion addr = some r → r.base = base →
      sparseWithout b base addr = b.host (r.data + (addr - r.base).toNat)

def SparseStacks : Prop :=
  Stacks b.addrMask base size b.read8 (b.addRomOverlay base size data).read8
    ((b.addRomOverlay base size data).removeRomOverlay base).read8
    fun offset => b.host (data + offset.toNat)

theorem sparseStacks_iff : SparseStacks b base size data ↔ SparseFits b base size data := by
  have added (addr : BitVec 32) (onBus : addr &&& b.addrMask = addr) :
      (b.addRomOverlay base size data).read8 addr =
        (sparseView b).look (⟨base, size, data, false⟩ :: b.regions) addr :=
    read8_eq (b.addRomOverlay base size data) onBus
  have removed (addr : BitVec 32) (onBus : addr &&& b.addrMask = addr) :
      ((b.addRomOverlay base size data).removeRomOverlay base).read8 addr =
        sparseWithout b base addr := by
    refine (read8_eq ((b.addRomOverlay base size data).removeRomOverlay base) onBus).trans ?_
    unfold sparseWithout SparseMemoryBus.removeRomOverlay SparseMemoryBus.addRomOverlay
    rw [List.filter_cons_of_neg (by simp)]
    rfl
  have shows (addr : BitVec 32) (onBus : addr &&& b.addrMask = addr)
      (inside : InRange base size addr) :
      (b.addRomOverlay base size data).read8 addr = b.host (data + (addr - base).toNat) ↔
        base.toNat + size.toNat < 2 ^ 32 ∨ b.read8 addr = b.host (data + (addr - base).toNat) := by
    have covered : (sparseView b).covers ⟨base, size, data, false⟩ addr = true ↔
        base.toNat + size.toNat < 2 ^ 32 :=
      (covers_iff base size addr).trans (and_iff_right inside)
    rw [added addr onBus, read8_eq b onBus, ← covered]
    exact View.look_cons_eq_iff (v := sparseView b) ⟨base, size, data, false⟩ rfl (fun _ => rfl)
  constructor
  · intro both
    refine ⟨?_, ?_⟩
    · intro addr onBus inside
      exact (shows addr onBus inside).mp (both.shown addr onBus inside)
    · intro addr onBus r found same
      have back := both.back addr onBus
      rw [removed addr onBus, read8_eq b onBus, sparseWithout, View.look_filter_eq_iff] at back
      exact back rfl r found (by simp [same])
  · intro fits
    refine ⟨?_, ?_, ?_⟩
    · intro addr onBus inside
      exact (shows addr onBus inside).mpr (fits.free addr onBus inside)
    · intro addr onBus outside
      have uncovered : (sparseView b).covers ⟨base, size, data, false⟩ addr = false := by
        refine Bool.eq_false_iff.mpr fun covered => ?_
        exact outside ((covers_iff base size addr).mp covered).1
      rw [added addr onBus, read8_eq b onBus]
      exact View.look_congr (View.first_cons_of_not uncovered)
    · intro addr onBus
      rw [removed addr onBus, read8_eq b onBus, sparseWithout, View.look_filter_eq_iff]
      intro _ r found gone
      exact fits.ownBase addr onBus r found (by simpa using gone)

end Sparse

/-- On either bus an overlay stacks exactly where it fits: on the flat bus where nothing that is
there hides it, on both where no other overlay that matters has its base. -/
theorem overlays_stack_iff (io : IoHooks) (flat : FlatMemoryBus) (sparse : SparseMemoryBus)
    (base size : BitVec 32) (data : BitVec 32 → BitVec 8) (pointer : ℕ) :
    (FlatStacks io flat base size data ↔ FlatFits io flat base size data) ∧
      (SparseStacks sparse base size pointer ↔ SparseFits sparse base size pointer) :=
  ⟨flatStacks_iff io flat base size data, sparseStacks_iff sparse base size pointer⟩

/-- A machine with one byte of its own ROM at `$8000`. -/
def withRom : FlatMemoryBus := (FlatMemoryBus.new 16).addRomOverlay 0x8000 1 fun _ => 0xAA

/-- The same on a sparse bus; a cartridge's byte lies at host address 1. -/
def sparseWithRom : SparseMemoryBus :=
  (SparseMemoryBus.new 16 ⟨fun _ keys key => key :: keys, front_perm⟩
    fun pointer => if pointer = 0 then 0xAA else 0xBB).addRomOverlay 0x8000 1 0

/-- A cartridge over the machine's ROM does not show on the flat bus, and on both buses the ROM
goes when the cartridge goes. -/
theorem rom_goes_with_cartridge :
    ¬ FlatStacks .none withRom 0x8000 1 (fun _ => 0xBB) ∧
      ¬ SparseStacks sparseWithRom 0x8000 1 1 := by
  constructor
  · intro both
    have shown := both.shown 0x8000 (by decide) (by unfold InRange; decide)
    revert shown
    decide
  · intro both
    have back := both.back 0x8000 (by decide)
    revert back
    decide

end Mmemu.Guarantees.RomOverlays
