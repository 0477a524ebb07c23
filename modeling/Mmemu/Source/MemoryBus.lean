import Mathlib.Data.BitVec
import Mmemu.Source.CircularBuffer

/-!
# Flat memory bus

Source: src/libmem/main/memory_bus.cpp, memory_bus.h and ibus.h. No I/O hooks are
installed, so both sides of the `m_ioLowBase` test do the same. The observer is told of
every access after the array changed; who that is belongs to the world the bus is part of.
-/
namespace Mmemu.Source.MemoryBus

/-- What a CPU core sees of the system behind its bus pointer. -/
class IBus (ω : Type) where
  read8 : ω → BitVec 32 → BitVec 8 × ω
  write8 : ω → BitVec 32 → BitVec 8 → ω
  peek8 : ω → BitVec 32 → BitVec 8

structure WriteLogEntry where
  address : BitVec 32
  before : BitVec 8
  after : BitVec 8
  deriving DecidableEq, Repr, Inhabited

structure RomOverlay where
  base : BitVec 32
  size : BitVec 32
  data : BitVec 32 → BitVec 8
  writable : Bool

structure FlatMemoryBus where
  addrMask : BitVec 32
  data : BitVec 32 → BitVec 8
  overlays : List RomOverlay
  writeLog : CircularBuffer WriteLogEntry

namespace FlatMemoryBus

def new (addrBits : ℕ) : FlatMemoryBus where
  addrMask := if addrBits = 32 then 0xFFFFFFFF else (1 <<< addrBits) - 1
  data := fun _ => 0
  overlays := []
  writeLog := .new 1000 default

def findOverlay (b : FlatMemoryBus) (addr : BitVec 32) : Option RomOverlay :=
  b.overlays.find? fun o => o.base ≤ addr && addr < o.base + o.size

def peek8 (b : FlatMemoryBus) (addr : BitVec 32) : BitVec 8 :=
  let addr := addr &&& b.addrMask
  match b.findOverlay addr with
  | some o => o.data (addr - o.base)
  | none => b.data addr

/-- The byte a read returns; reading leaves the bus as it is. -/
def read8 (b : FlatMemoryBus) (addr : BitVec 32) : BitVec 8 := b.peek8 addr

/-- A write lands in the array, under a writable overlay too, and is ignored under a
read-only one. -/
def write8 (b : FlatMemoryBus) (addr : BitVec 32) (val : BitVec 8) : FlatMemoryBus :=
  let before := b.peek8 addr
  let addr := addr &&& b.addrMask
  let stored : FlatMemoryBus :=
    { b with
      data := Function.update b.data addr val
      writeLog := b.writeLog.push ⟨addr, before, val⟩ }
  match b.findOverlay addr with
  | some o => if o.writable then stored else b
  | none => stored

/-- The array has a byte for each address, so the mask is one less than a power of two. -/
def size (b : FlatMemoryBus) : ℕ := b.addrMask.toNat + 1

/-- The mask is that of some number of address bits. -/
def Sized (b : FlatMemoryBus) : Prop := ∃ addrBits ≤ 32, b.size = 2 ^ addrBits

/-- A new overlay goes behind those that are there. -/
def addOverlay (b : FlatMemoryBus) (base size : BitVec 32) (data : BitVec 32 → BitVec 8)
    (writable : Bool) : FlatMemoryBus :=
  { b with overlays := b.overlays ++ [⟨base, size, data, writable⟩] }

def addRomOverlay (b : FlatMemoryBus) (base size : BitVec 32) (data : BitVec 32 → BitVec 8) :
    FlatMemoryBus := b.addOverlay base size data false

/-- Every overlay with that base goes. -/
def removeRomOverlay (b : FlatMemoryBus) (base : BitVec 32) : FlatMemoryBus :=
  { b with overlays := b.overlays.filter fun o => !(o.base == base) }

def reset (b : FlatMemoryBus) : FlatMemoryBus := { b with writeLog := b.writeLog.clear }

def saveState (b : FlatMemoryBus) : List (BitVec 8) :=
  (List.range b.size).map fun i => b.data (BitVec.ofNat 32 i)

def loadState (b : FlatMemoryBus) (buf : List (BitVec 8)) : FlatMemoryBus :=
  { b with data := fun addr => if addr.toNat < b.size then buf.getD addr.toNat 0 else b.data addr }

@[simp] theorem addrMask_write8 (b : FlatMemoryBus) (addr : BitVec 32) (val : BitVec 8) :
    (b.write8 addr val).addrMask = b.addrMask := by
  unfold write8
  dsimp only
  split
  · split <;> rfl
  · rfl

@[simp] theorem overlays_write8 (b : FlatMemoryBus) (addr : BitVec 32) (val : BitVec 8) :
    (b.write8 addr val).overlays = b.overlays := by
  unfold write8
  dsimp only
  split
  · split <;> rfl
  · rfl

/-- Without overlays every address is RAM. -/
theorem peek8_of_ram (b : FlatMemoryBus) (ram : b.overlays = []) (addr : BitVec 32) :
    b.peek8 addr = b.data (addr &&& b.addrMask) := by
  simp [peek8, findOverlay, ram]

theorem data_write8_of_ram (b : FlatMemoryBus) (ram : b.overlays = []) (addr : BitVec 32)
    (val : BitVec 8) :
    (b.write8 addr val).data = Function.update b.data (addr &&& b.addrMask) val := by
  simp [write8, findOverlay, ram]

theorem masked_lt_size (b : FlatMemoryBus) (addr : BitVec 32) :
    (addr &&& b.addrMask).toNat < b.size := by
  rw [size, BitVec.toNat_and]
  exact Nat.lt_succ_of_le Nat.and_le_right

theorem Sized.masked {b : FlatMemoryBus} (sized : b.Sized) {addr : BitVec 32}
    (inside : addr.toNat < b.size) : addr &&& b.addrMask = addr := by
  obtain ⟨addrBits, -, size⟩ := sized
  have mask : b.addrMask.toNat = 2 ^ addrBits - 1 := by
    rw [← size, FlatMemoryBus.size, Nat.add_sub_cancel]
  refine BitVec.eq_of_toNat_eq ?_
  rw [BitVec.toNat_and, mask, Nat.and_two_pow_sub_one_eq_mod, Nat.mod_eq_of_lt (size ▸ inside)]

theorem getD_saveState (b : FlatMemoryBus) {addr : BitVec 32} (inside : addr.toNat < b.size) :
    b.saveState.getD addr.toNat 0 = b.data addr := by
  simp [saveState, inside]

/-- An address of the bus shows an overlay or the array. -/
theorem Sized.peek8 {b : FlatMemoryBus} (sized : b.Sized) {addr : BitVec 32}
    (inside : addr.toNat < b.size) :
    b.peek8 addr = match b.findOverlay addr with
      | some o => o.data (addr - o.base)
      | none => b.data addr := by
  unfold FlatMemoryBus.peek8
  rw [sized.masked inside]

/-- Loading brings the array back; the overlays are those of the bus that loads. -/
theorem peek8_loadState (b now : FlatMemoryBus) (mask : now.addrMask = b.addrMask)
    (overlays : now.overlays = b.overlays) (addr : BitVec 32) :
    (now.loadState b.saveState).peek8 addr = b.peek8 addr := by
  have found (a : BitVec 32) : (now.loadState b.saveState).findOverlay a = b.findOverlay a := by
    simp only [findOverlay, loadState, overlays]
  have back : (now.loadState b.saveState).data (addr &&& b.addrMask) =
      b.data (addr &&& b.addrMask) := by
    have inside := b.masked_lt_size addr
    have same : now.size = b.size := by rw [size, size, mask]
    simp only [loadState, same]
    rw [if_pos inside, b.getD_saveState inside]
  have masked : (now.loadState b.saveState).addrMask = b.addrMask := mask
  unfold peek8
  rw [masked]
  dsimp only
  rw [found, back]

end FlatMemoryBus

/-- The hooks of a bus as they answer at a moment: `ioRead` gives the byte of an address that a
device owns. -/
structure IoHooks where
  ioLowBase : BitVec 32
  ioRead : BitVec 32 → Option (BitVec 8)

/-- No hooks are installed. -/
def IoHooks.none : IoHooks := ⟨0xFFFFFFFF, fun _ => .none⟩

/-- The byte of a device; below `ioLowBase` no hook is asked. -/
def IoHooks.owns (io : IoHooks) (addr : BitVec 32) : Option (BitVec 8) :=
  if addr < io.ioLowBase then .none else io.ioRead addr

/-- `read8` with hooks installed. -/
def FlatMemoryBus.read8Hooked (b : FlatMemoryBus) (io : IoHooks) (addr : BitVec 32) : BitVec 8 :=
  match io.owns (addr &&& b.addrMask) with
  | some val => val
  | .none => b.peek8 addr

/-- A bus that nobody observes. -/
instance : IBus FlatMemoryBus where
  read8 b addr := (b.read8 addr, b)
  write8 b addr val := b.write8 addr val
  peek8 b addr := b.peek8 addr

end Mmemu.Source.MemoryBus
