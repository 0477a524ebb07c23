import Mathlib.Tactic.FinCases
import Mmemu.Library.Literals
import Mmemu.Source.SparseMemoryBus

/-!
# The 45GS02 MAP controller

Source: src/plugins/devices/map_mmu/main/map_mmu.cpp, map_mmu.h and imap_controller.h. The
physical bus is part of the controller here, since nothing else of the machine holds it; the
hypervisor RAM is host memory of that bus. No I/O hooks are installed. What the callback of
the overlay answers is an argument.
-/
namespace Mmemu.Source
open Mmemu.Library.LittleEndian

/-- `padding` is what the compiler leaves behind `enables`; it is copied with the rest. -/
structure MapState where
  offsets : Fin 8 → BitVec 32
  enables : BitVec 8
  padding : BitVec 24
  megabyteLow : BitVec 32
  megabyteHigh : BitVec 32
  deriving DecidableEq

namespace MapState

def zero : MapState := ⟨fun _ => 0, 0, 0, 0, 0⟩

/-- The memory of a `MapState`. -/
def layout (s : MapState) : List (ℕ × ℕ) :=
  (List.ofFn fun i => (4, (s.offsets i).toNat)) ++
    [(1, s.enables.toNat), (3, s.padding.toNat), (4, s.megabyteLow.toNat),
      (4, s.megabyteHigh.toNat)]

def widths : List ℕ := [4, 4, 4, 4, 4, 4, 4, 4, 1, 3, 4, 4]

def bytes (s : MapState) : List Byte := record s.layout

def ofBytes (buf : List Byte) : MapState :=
  let values := fields widths buf
  { offsets := fun i => BitVec.ofNat 32 (values.getD i 0)
    enables := BitVec.ofNat 8 (values.getD 8 0)
    padding := BitVec.ofNat 24 (values.getD 9 0)
    megabyteLow := BitVec.ofNat 32 (values.getD 10 0)
    megabyteHigh := BitVec.ofNat 32 (values.getD 11 0) }

theorem ofBytes_bytes (s : MapState) : ofBytes s.bytes = s := by
  have laid : fields widths s.bytes = s.layout.map fun f => f.2 % 256 ^ f.1 := by
    have := fields_record s.layout []
    rwa [List.append_nil] at this
  obtain ⟨offsets, enables, padding, low, high⟩ := s
  unfold ofBytes
  simp only [laid, MapState.mk.injEq]
  refine ⟨?_, ofNat_mod_pow 1 enables (by omega), ofNat_mod_pow 3 padding (by omega),
    ofNat_mod_pow 4 low (by omega), ofNat_mod_pow 4 high (by omega)⟩
  funext i
  fin_cases i <;> exact ofNat_mod_pow 4 (offsets _) (by omega)

end MapState

structure MapMmu where
  physBus : SparseMemoryBus
  mapState : MapState
  hyperRam : Option ℕ
  hyperBase : BitVec 16
  hyperSize : BitVec 32

namespace MapMmu

def new (physBus : SparseMemoryBus) : MapMmu where
  physBus := physBus
  mapState := .zero
  hyperRam := none
  hyperBase := 0
  hyperSize := 0

/-- The low 20 bits of a block's offset are added with no carry into the megabyte. -/
def translate (s : MapState) (vaddr : BitVec 32) : BitVec 32 :=
  let vaddr := vaddr &&& 0xFFFF
  let block := (vaddr >>> 13 &&& 7).toNat
  if s.enables.getLsbD block then
    let offset := s.offsets (Fin.ofNat 8 block) &&& 0xFFFFF
    let megabyte := if block < 4 then s.megabyteLow else s.megabyteHigh
    let sum12bit := (((offset >>> 8) &&& 0xFFF) + ((vaddr >>> 8) &&& 0xFF)) &&& 0xFFF
    megabyte + (sum12bit <<< 8 ||| vaddr &&& 0xFF)
  else vaddr

/-- The byte of the hypervisor RAM that the overlay shows at an address, if it does. -/
def hyperPointer (m : MapMmu) (active : Bool) (addr : BitVec 32) : Option ℕ :=
  match m.hyperRam with
  | some ram =>
    if m.hyperBase.setWidth 32 ≤ addr ∧ addr < m.hyperBase.setWidth 32 + m.hyperSize ∧ active then
      some (ram + (addr - m.hyperBase.setWidth 32).toNat)
    else none
  | none => none

def peek8 (m : MapMmu) (active : Bool) (addr : BitVec 32) : BitVec 8 :=
  let addr := addr &&& 0xFFFF
  match m.hyperPointer active addr with
  | some pointer => m.physBus.host pointer
  | none => m.physBus.peek8 (translate m.mapState addr)

/-- The byte a read returns; reading leaves the bus as it is. -/
def read8 (m : MapMmu) (active : Bool) (addr : BitVec 32) : BitVec 8 :=
  let addr := addr &&& 0xFFFF
  match m.hyperPointer active addr with
  | some pointer => m.physBus.host pointer
  | none => m.physBus.read8 (translate m.mapState addr)

def write8 (m : MapMmu) (active : Bool) (addr : BitVec 32) (val : BitVec 8) : MapMmu :=
  let addr := addr &&& 0xFFFF
  match m.hyperPointer active addr with
  | some pointer =>
    { m with
      physBus := { m.physBus with host := Function.update m.physBus.host pointer val } }
  | none => { m with physBus := m.physBus.write8 (translate m.mapState addr) val }

/-- A byte of the hypervisor RAM, which the CPU reaches directly too. -/
def hyperWrite8 (m : MapMmu) (offset : ℕ) (val : BitVec 8) : MapMmu :=
  match m.hyperRam with
  | some ram =>
    { m with
      physBus := { m.physBus with host := Function.update m.physBus.host (ram + offset) val } }
  | none => m

def setMapState (m : MapMmu) (state : MapState) : MapMmu := { m with mapState := state }

def clearMapState (m : MapMmu) : MapMmu := { m with mapState := .zero }

def reset (m : MapMmu) : MapMmu := m.clearMapState

/-- `sizeof(MapState)` -/
def stateSize (_ : MapMmu) : ℕ := 44

def saveState (m : MapMmu) : List Byte := m.mapState.bytes

def loadState (m : MapMmu) (buf : List Byte) : MapMmu := { m with mapState := .ofBytes buf }

/-! ## Memory by place -/

/-- The place of the physical bus that an address shows. -/
def readPlace (m : MapMmu) (active : Bool) (addr : BitVec 32) : SparseMemoryBus.Place :=
  let addr := addr &&& 0xFFFF
  match m.hyperPointer active addr with
  | some pointer => .host pointer
  | none => m.physBus.readPlace (translate m.mapState addr)

def writePlace (m : MapMmu) (active : Bool) (addr : BitVec 32) : SparseMemoryBus.Place :=
  let addr := addr &&& 0xFFFF
  match m.hyperPointer active addr with
  | some pointer => .host pointer
  | none => m.physBus.writePlace (translate m.mapState addr)

theorem peek8_eq (m : MapMmu) (active : Bool) (addr : BitVec 32) :
    m.peek8 active addr = m.physBus.memory (m.readPlace active addr) := by
  unfold peek8 readPlace
  dsimp only
  split
  · rfl
  · exact m.physBus.peek8_eq _

theorem memory_write8 (m : MapMmu) (active : Bool) (addr : BitVec 32) (val : BitVec 8) :
    (m.write8 active addr val).physBus.memory =
      Function.update m.physBus.memory (m.writePlace active addr) val := by
  unfold write8 writePlace
  dsimp only
  split
  · exact m.physBus.memory_host _ val
  · exact m.physBus.memory_write8 _ val

/-- How the controller was set up: what neither accesses nor MAP instructions change. -/
structure SameSetup (m m' : MapMmu) : Prop where
  physBus : m.physBus.SameSetup m'.physBus
  hyperRam : m'.hyperRam = m.hyperRam
  hyperBase : m'.hyperBase = m.hyperBase
  hyperSize : m'.hyperSize = m.hyperSize

theorem SameSetup.refl (m : MapMmu) : SameSetup m m := ⟨.refl _, rfl, rfl, rfl⟩

theorem SameSetup.trans {m m' m'' : MapMmu} (h : SameSetup m m') (h' : SameSetup m' m'') :
    SameSetup m m'' :=
  ⟨h.physBus.trans h'.physBus, h'.hyperRam.trans h.hyperRam, h'.hyperBase.trans h.hyperBase,
    h'.hyperSize.trans h.hyperSize⟩

theorem SameSetup.symm {m m' : MapMmu} (h : SameSetup m m') : SameSetup m' m :=
  ⟨h.physBus.symm, h.hyperRam.symm, h.hyperBase.symm, h.hyperSize.symm⟩

/-- Under one mapping an address is found at one place. -/
theorem SameSetup.readPlace {m m' : MapMmu} (h : SameSetup m m') (mapped : m'.mapState = m.mapState)
    (active : Bool) (addr : BitVec 32) : m'.readPlace active addr = m.readPlace active addr := by
  simp only [MapMmu.readPlace, hyperPointer, h.hyperRam, h.hyperBase, h.hyperSize, mapped,
    h.physBus.readPlace]

theorem sameSetup_write8 (m : MapMmu) (active : Bool) (addr : BitVec 32) (val : BitVec 8) :
    SameSetup m (m.write8 active addr val) := by
  unfold write8
  dsimp only
  split
  · exact ⟨⟨rfl, rfl⟩, rfl, rfl, rfl⟩
  · exact ⟨m.physBus.sameSetup_write8 _ val, rfl, rfl, rfl⟩

theorem sameSetup_hyperWrite8 (m : MapMmu) (offset : ℕ) (val : BitVec 8) :
    SameSetup m (m.hyperWrite8 offset val) := by
  unfold hyperWrite8
  split
  · exact ⟨⟨rfl, rfl⟩, rfl, rfl, rfl⟩
  · exact .refl m

theorem mapState_loadState (m now : MapMmu) : (now.loadState m.saveState).mapState = m.mapState :=
  m.mapState.ofBytes_bytes

end MapMmu

end Mmemu.Source
