import Mathlib.Data.Fintype.Card
import Mmemu.Library.WordBytes
import Mmemu.Source.MemoryBus

/-!
# Sparse memory bus

Source: src/libmem/main/sparse_memory_bus.cpp and sparse_memory_bus.h. A region is a pointer
into host memory, so two regions may show the same bytes. Everything else is in pages of
4 KiB, kept in an `std::unordered_map` whose iteration order the standard leaves open.
-/
namespace Mmemu.Source
open Mmemu.Library.LittleEndian
open Mmemu.Source.MemoryBus

def PAGE_SIZE : ℕ := 4096

abbrev Page := BitVec 12 → BitVec 8

/-- Where a new key lands when a hash map that made so many insertions before is iterated. -/
structure IterationOrder where
  add : ℕ → List (BitVec 20) → BitVec 20 → List (BitVec 20)
  perm : ∀ n keys key, (add n keys key).Perm (key :: keys)

theorem front_perm (_ : ℕ) (keys : List (BitVec 20)) (key : BitVec 20) :
    (key :: keys).Perm (key :: keys) := .refl _

/-- The map from page addresses to pages: its keys in iteration order. A page address is an
address shifted right by 12, so 20 bits hold it. -/
structure PageMap where
  order : IterationOrder
  inserted : ℕ
  keys : List (BitVec 20)
  page : BitVec 20 → Page
  nodup : keys.Nodup

namespace PageMap

def new (order : IterationOrder) : PageMap where
  order := order
  inserted := 0
  keys := []
  page := fun _ _ => 0xFF
  nodup := List.nodup_nil

def find (m : PageMap) (pageAddr : BitVec 20) : Option Page :=
  if pageAddr ∈ m.keys then some (m.page pageAddr) else none

def clear (m : PageMap) : PageMap where
  order := m.order
  inserted := m.inserted
  keys := []
  page := m.page
  nodup := List.nodup_nil

/-- A page that is not there yet is filled with `$FF`. -/
def allocatePage (m : PageMap) (pageAddr : BitVec 20) : PageMap :=
  if fresh : pageAddr ∈ m.keys then m
  else
    { order := m.order
      inserted := m.inserted + 1
      keys := m.order.add m.inserted m.keys pageAddr
      page := Function.update m.page pageAddr fun _ => 0xFF
      nodup := (m.order.perm _ _ _).nodup_iff.mpr (List.nodup_cons.mpr ⟨fresh, m.nodup⟩) }

/-- Allocate a page and write into it. -/
def modifyPage (m : PageMap) (pageAddr : BitVec 20) (f : Page → Page) : PageMap :=
  let m := m.allocatePage pageAddr
  { m with page := Function.update m.page pageAddr (f (m.page pageAddr)) }

theorem mem_keys_allocatePage (m : PageMap) (pageAddr k : BitVec 20) :
    k ∈ (m.allocatePage pageAddr).keys ↔ k = pageAddr ∨ k ∈ m.keys := by
  unfold allocatePage
  split
  next there =>
    constructor
    · exact .inr
    · rintro (rfl | old)
      · exact there
      · exact old
  next => rw [(m.order.perm _ _ _).mem_iff, List.mem_cons]

/-- What the page of an address holds; `$FF` where there is none. -/
def byteAt (m : PageMap) (pageAddr : BitVec 20) (offset : BitVec 12) : BitVec 8 :=
  match m.find pageAddr with
  | some page => page offset
  | none => 0xFF

theorem find_clear (m : PageMap) (k : BitVec 20) : m.clear.find k = none := by
  simp [find, clear]

/-- A page allocated now reads as before. -/
theorem page_allocatePage (m : PageMap) (k : BitVec 20) :
    (m.allocatePage k).page k = m.byteAt k := by
  unfold allocatePage byteAt find
  split
  next => simp
  next => simp

theorem find_modifyPage (m : PageMap) (pageAddr k : BitVec 20) (f : Page → Page) :
    (m.modifyPage pageAddr f).find k =
      if k = pageAddr then some (f (m.byteAt pageAddr)) else m.find k := by
  unfold modifyPage
  simp only [find, mem_keys_allocatePage]
  by_cases same : k = pageAddr
  · subst same
    simp [page_allocatePage]
  · have kept : (m.allocatePage pageAddr).page k = m.page k := by
      unfold allocatePage
      split
      · rfl
      · exact Function.update_of_ne same _ _
    simp [same, kept]

/-- The count of pages fits the four bytes it is saved in. -/
theorem length_keys_lt (m : PageMap) : m.keys.length < 2 ^ 32 := by
  have injective : Function.Injective (BitVec.toFin (w := 20)) := fun _ _ => BitVec.eq_of_toFin_eq
  have bound := (m.nodup.map injective).length_le_card
  rw [List.length_map, Fintype.card_fin] at bound
  omega

end PageMap

structure SparseRegion where
  base : BitVec 32
  size : BitVec 32
  data : ℕ
  writable : Bool
  deriving DecidableEq, Repr

/-- The bus, with the host memory its regions point into. -/
structure SparseMemoryBus where
  addrMask : BitVec 32
  regions : List SparseRegion
  pages : PageMap
  writeLog : CircularBuffer WriteLogEntry
  host : ℕ → BitVec 8

namespace SparseMemoryBus

def new (addrBits : ℕ) (order : IterationOrder) (host : ℕ → BitVec 8) : SparseMemoryBus where
  addrMask := if addrBits = 32 then 0xFFFFFFFF else (1 <<< addrBits) - 1
  regions := []
  pages := .new order
  writeLog := .new 1000 default
  host := host

def addRegion (b : SparseMemoryBus) (base size : BitVec 32) (data : ℕ) (writable : Bool) :
    SparseMemoryBus :=
  { b with regions := b.regions ++ [⟨base, size, data, writable⟩] }

/-- A new overlay goes in front of the regions that are there. -/
def addRomOverlay (b : SparseMemoryBus) (base size : BitVec 32) (data : ℕ) : SparseMemoryBus :=
  { b with regions := ⟨base, size, data, false⟩ :: b.regions }

/-- Every region with that base goes. -/
def removeRomOverlay (b : SparseMemoryBus) (base : BitVec 32) : SparseMemoryBus :=
  { b with regions := b.regions.filter fun r => !(r.base == base) }

def findRegion (b : SparseMemoryBus) (addr : BitVec 32) : Option SparseRegion :=
  b.regions.find? fun r => r.base ≤ addr && addr < r.base + r.size

def getPageAddr (addr : BitVec 32) : BitVec 20 := (addr >>> 12).setWidth 20

def getPageOffset (addr : BitVec 32) : BitVec 12 := addr.setWidth 12

def peek8Raw (b : SparseMemoryBus) (addr : BitVec 32) : BitVec 8 :=
  let addr := addr &&& b.addrMask
  match b.findRegion addr with
  | some region => b.host (region.data + (addr - region.base).toNat)
  | none =>
    match b.pages.find (getPageAddr addr) with
    | some page => page (getPageOffset addr)
    | none => 0xFF

def peek8 (b : SparseMemoryBus) (addr : BitVec 32) : BitVec 8 := b.peek8Raw (addr &&& b.addrMask)

/-- The byte a read returns; reading leaves the bus as it is. -/
def read8 (b : SparseMemoryBus) (addr : BitVec 32) : BitVec 8 := b.peek8 (addr &&& b.addrMask)

/-- `allocatePage(pageAddr)[offset] = val` -/
def storePage (b : SparseMemoryBus) (addr : BitVec 32) (val : BitVec 8) : SparseMemoryBus :=
  { b with
    pages := b.pages.modifyPage (getPageAddr addr) fun page =>
      Function.update page (getPageOffset addr) val }

/-- A write into a read-only region goes to the page under it. -/
def write8 (b : SparseMemoryBus) (addr : BitVec 32) (val : BitVec 8) : SparseMemoryBus :=
  let addr := addr &&& b.addrMask
  let before := b.peek8Raw addr
  let stored : SparseMemoryBus :=
    match b.findRegion addr with
    | some region =>
      if region.writable then
        { b with host := Function.update b.host (region.data + (addr - region.base).toNat) val }
      else b.storePage addr val
    | none => b.storePage addr val
  { stored with writeLog := stored.writeLog.push ⟨addr, before, val⟩ }

def reset (b : SparseMemoryBus) : SparseMemoryBus :=
  { b with writeLog := b.writeLog.clear, pages := b.pages.clear }

def stateSize (b : SparseMemoryBus) : ℕ := 4 + b.pages.keys.length * (4 + PAGE_SIZE)

/-- The bytes of a page, in order. -/
def pageBytes (page : Page) : List Byte :=
  (List.range PAGE_SIZE).map fun i => page (BitVec.ofNat 12 i)

/-- The number of pages, then the address and the bytes of each, in iteration order. -/
def saveState (b : SparseMemoryBus) : List Byte :=
  encode 4 b.pages.keys.length ++
    b.pages.keys.flatMap fun pageAddr => encode 4 pageAddr.toNat ++ pageBytes (b.pages.page pageAddr)

/-- The loop of `loadState` over the pages left. -/
def loadPages : ℕ → List Byte → PageMap → PageMap
  | 0, _, m => m
  | pageCount + 1, ptr, m =>
    let pageAddr := BitVec.ofNat 20 (decode (ptr.take 4))
    let ptr := ptr.drop 4
    loadPages pageCount (ptr.drop PAGE_SIZE)
      (m.modifyPage pageAddr fun _ offset => ptr.getD offset.toNat 0)

def loadState (b : SparseMemoryBus) (buf : List Byte) : SparseMemoryBus :=
  let b := b.reset
  { b with pages := loadPages (decode (buf.take 4)) (buf.drop 4) b.pages }

/-! ## Memory by place -/

/-- Where the bus keeps a byte. -/
inductive Place where
  | host (pointer : ℕ)
  | page (pageAddr : BitVec 20) (offset : BitVec 12)
  deriving DecidableEq, Repr

def memory (b : SparseMemoryBus) : Place → BitVec 8
  | .host pointer => b.host pointer
  | .page pageAddr offset => b.pages.byteAt pageAddr offset

def pagePlace (addr : BitVec 32) : Place := .page (getPageAddr addr) (getPageOffset addr)

/-- The place a read looks at. -/
def readPlace (b : SparseMemoryBus) (addr : BitVec 32) : Place :=
  let addr := addr &&& b.addrMask
  match b.findRegion addr with
  | some region => .host (region.data + (addr - region.base).toNat)
  | none => pagePlace addr

/-- The place a write changes. -/
def writePlace (b : SparseMemoryBus) (addr : BitVec 32) : Place :=
  let addr := addr &&& b.addrMask
  match b.findRegion addr with
  | some region =>
    if region.writable then .host (region.data + (addr - region.base).toNat) else pagePlace addr
  | none => pagePlace addr

theorem peek8_eq (b : SparseMemoryBus) (addr : BitVec 32) :
    b.peek8 addr = b.memory (b.readPlace addr) := by
  have masked : addr &&& b.addrMask &&& b.addrMask = addr &&& b.addrMask := by
    rw [BitVec.and_assoc, BitVec.and_self]
  unfold peek8 peek8Raw readPlace
  rw [masked]
  dsimp only
  split
  · rfl
  · rfl

theorem memory_storePage (b : SparseMemoryBus) (addr : BitVec 32) (val : BitVec 8) :
    (b.storePage addr val).memory = Function.update b.memory (pagePlace addr) val := by
  funext place
  cases place with
  | host pointer => rfl
  | page pageAddr offset =>
    unfold storePage memory pagePlace
    simp only [PageMap.byteAt, PageMap.find_modifyPage]
    by_cases here : pageAddr = getPageAddr addr
    · subst here
      by_cases there : offset = getPageOffset addr
      · simp [there]
      · simp [there, PageMap.byteAt]
    · simp [here]

theorem memory_host (b : SparseMemoryBus) (pointer : ℕ) (val : BitVec 8) :
    { b with host := Function.update b.host pointer val }.memory =
      Function.update b.memory (.host pointer) val := by
  funext place
  cases place with
  | host p => by_cases here : p = pointer <;> simp [memory, here]
  | page pageAddr offset => simp [memory]

/-- A write changes one place. -/
theorem memory_write8 (b : SparseMemoryBus) (addr : BitVec 32) (val : BitVec 8) :
    (b.write8 addr val).memory = Function.update b.memory (b.writePlace addr) val := by
  have logged : ∀ (s : SparseMemoryBus) log, { s with writeLog := log }.memory = s.memory := by
    intro s log
    funext place
    cases place <;> rfl
  unfold write8 writePlace
  simp only [logged]
  split
  · split
    · exact b.memory_host _ val
    · exact memory_storePage b _ val
  · exact memory_storePage b _ val

/-- How the bus was set up: what no access changes. -/
structure SameSetup (b b' : SparseMemoryBus) : Prop where
  addrMask : b'.addrMask = b.addrMask
  regions : b'.regions = b.regions

theorem SameSetup.refl (b : SparseMemoryBus) : SameSetup b b := ⟨rfl, rfl⟩

theorem SameSetup.trans {b b' b'' : SparseMemoryBus} (h : SameSetup b b') (h' : SameSetup b' b'') :
    SameSetup b b'' :=
  ⟨h'.addrMask.trans h.addrMask, h'.regions.trans h.regions⟩

theorem SameSetup.symm {b b' : SparseMemoryBus} (h : SameSetup b b') : SameSetup b' b :=
  ⟨h.addrMask.symm, h.regions.symm⟩

theorem SameSetup.readPlace {b b' : SparseMemoryBus} (h : SameSetup b b') (addr : BitVec 32) :
    b'.readPlace addr = b.readPlace addr := by
  simp only [SparseMemoryBus.readPlace, findRegion, h.addrMask, h.regions]

theorem SameSetup.writePlace {b b' : SparseMemoryBus} (h : SameSetup b b') (addr : BitVec 32) :
    b'.writePlace addr = b.writePlace addr := by
  simp only [SparseMemoryBus.writePlace, findRegion, h.addrMask, h.regions]

theorem sameSetup_write8 (b : SparseMemoryBus) (addr : BitVec 32) (val : BitVec 8) :
    SameSetup b (b.write8 addr val) := by
  unfold write8
  dsimp only
  split
  · split
    · exact ⟨rfl, rfl⟩
    · exact ⟨rfl, rfl⟩
  · exact ⟨rfl, rfl⟩

/-! ## Saving and loading -/

@[simp] theorem length_pageBytes (page : Page) : (pageBytes page).length = PAGE_SIZE := by
  simp [pageBytes]

theorem getD_pageBytes (page : Page) (rest : List Byte) (offset : BitVec 12) :
    (pageBytes page ++ rest).getD offset.toNat 0 = page offset := by
  have bound : offset.toNat < (pageBytes page).length := by
    rw [length_pageBytes]
    exact offset.isLt
  rw [List.getD_eq_getElem?_getD, List.getElem?_append_left bound, List.getElem?_eq_getElem bound]
  simp [pageBytes]

/-- Loading saved pages puts each of them in place and leaves the others. -/
theorem find_loadPages (page : BitVec 20 → Page) (keys : List (BitVec 20)) (m : PageMap)
    (k : BitVec 20) :
    (loadPages keys.length
        (keys.flatMap fun pageAddr => encode 4 pageAddr.toNat ++ pageBytes (page pageAddr)) m).find k =
      if k ∈ keys then some (page k) else m.find k := by
  induction keys generalizing m with
  | nil => rfl
  | cons key keys ih =>
    have address := ofNat_decode_encode 4 key (by omega)
    simp only [List.flatMap_cons, List.length_cons, loadPages, List.append_assoc,
      List.take_left' (length_encode _ _), List.drop_left' (length_encode _ _),
      List.drop_left' (length_pageBytes _), address, getD_pageBytes, ih, PageMap.find_modifyPage]
    by_cases here : k = key
    · subst here
      simp
    · simp [here]

/-- Loading puts the saved pages in place and leaves the host memory as it is. -/
theorem memory_loadState (b now : SparseMemoryBus) :
    (now.loadState b.saveState).memory =
      fun place => match place with
        | .host pointer => now.host pointer
        | .page pageAddr offset => b.pages.byteAt pageAddr offset := by
  funext place
  cases place with
  | host pointer => rfl
  | page pageAddr offset =>
    have count : decode (encode 4 b.pages.keys.length) = b.pages.keys.length := by
      rw [decode_encode, Nat.mod_eq_of_lt]
      exact b.pages.length_keys_lt
    unfold loadState saveState memory PageMap.byteAt
    simp only [List.take_left' (length_encode _ _), List.drop_left' (length_encode _ _), count,
      find_loadPages, reset, PageMap.find_clear]
    rfl

theorem sameSetup_loadState (b : SparseMemoryBus) (buf : List Byte) :
    SameSetup b (b.loadState buf) := ⟨rfl, rfl⟩

end SparseMemoryBus

end Mmemu.Source
