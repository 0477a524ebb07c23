import Mmemu.Source.SidFile

/-!
# Tune and play driver in memory

A tune ends within the 64 KB, and the driver goes to the first of its places that the tune leaves
free. Only a tune that covers every such place is refused after its data was written.
-/
namespace Mmemu.Guarantees.SidPlacement
open Mmemu.Library.Splice Mmemu.Source.MemoryBus Mmemu.Source.SidFile

/-! ## Memory -/

/-- 64 KB of RAM or more. -/
structure Ram (b : FlatMemoryBus) : Prop where
  ram : b.overlays = []
  sized : b.Sized
  wide : 0x10000 ≤ b.size

/-- The bytes are in memory from this address on. -/
def Holds (b : FlatMemoryBus) (at_ : ℕ) (bytes : List Byte) : Prop :=
  ∀ i b', bytes[i]? = some b' → b.peek8 (BitVec.ofNat 32 (at_ + i)) = b'

def Unchanged (b b' : FlatMemoryBus) : Prop := ∀ addr, b'.peek8 addr = b.peek8 addr

section Memory
variable {b : FlatMemoryBus} {bytes : List Byte} {at_ : ℕ}

theorem Ram.write8 (ram : Ram b) (addr : BitVec 32) (val : Byte) : Ram (b.write8 addr val) where
  ram := by rw [FlatMemoryBus.overlays_write8, ram.ram]
  sized := by
    obtain ⟨bits, few, size⟩ := ram.sized
    exact ⟨bits, few, by rw [FlatMemoryBus.size, FlatMemoryBus.addrMask_write8, ← size]; rfl⟩
  wide := by
    rw [FlatMemoryBus.size, FlatMemoryBus.addrMask_write8]
    exact ram.wide

theorem Ram.writeBytes (ram : Ram b) (bytes : List Byte) (at_ : ℕ) : Ram (writeBytes b at_ bytes) := by
  induction bytes generalizing b at_ with
  | nil => exact ram
  | cons byte rest ih => exact ih (ram.write8 _ _) (at_ + 1)

theorem addrMask_writeBytes (b : FlatMemoryBus) (bytes : List Byte) (at_ : ℕ) :
    (writeBytes b at_ bytes).addrMask = b.addrMask := by
  induction bytes generalizing b at_ with
  | nil => rfl
  | cons byte rest ih => exact (ih _ _).trans (b.addrMask_write8 _ _)

theorem Ram.masked (ram : Ram b) (inside : at_ < 0x10000) :
    BitVec.ofNat 32 at_ &&& b.addrMask = BitVec.ofNat 32 at_ := by
  refine ram.sized.masked ?_
  have wide := ram.wide
  rw [BitVec.toNat_ofNat, Nat.mod_eq_of_lt (by omega)]
  omega

theorem peek8_write8 (ram : Ram b) (inside : at_ < 0x10000) (val : Byte) (addr : BitVec 32) :
    (b.write8 (BitVec.ofNat 32 at_) val).peek8 addr =
      if (addr &&& b.addrMask).toNat = at_ then val else b.peek8 addr := by
  have place : (BitVec.ofNat 32 at_).toNat = at_ := by
    rw [BitVec.toNat_ofNat, Nat.mod_eq_of_lt (by omega)]
  rw [FlatMemoryBus.peek8_of_ram _ (ram.write8 _ _).ram, FlatMemoryBus.data_write8_of_ram _ ram.ram,
    FlatMemoryBus.addrMask_write8, ram.masked inside, FlatMemoryBus.peek8_of_ram _ ram.ram,
    Function.update_apply]
  refine if_congr ?_ rfl rfl
  rw [← BitVec.toNat_inj, place]

/-- Outside of what is written, memory stays. -/
theorem peek8_writeBytes_apart (ram : Ram b) (inside : at_ + bytes.length ≤ 0x10000)
    {addr : BitVec 32} (apart : (addr &&& b.addrMask).toNat < at_ ∨
      at_ + bytes.length ≤ (addr &&& b.addrMask).toNat) :
    (writeBytes b at_ bytes).peek8 addr = b.peek8 addr := by
  induction bytes generalizing b at_ with
  | nil => rfl
  | cons byte rest ih =>
    rw [List.length_cons] at inside apart
    refine (ih (ram.write8 _ _) (by omega) ?_).trans ?_
    · rw [FlatMemoryBus.addrMask_write8]
      omega
    · rw [peek8_write8 ram (by omega), if_neg (by omega)]

theorem holds_writeBytes (ram : Ram b) (inside : at_ + bytes.length ≤ 0x10000) :
    Holds (writeBytes b at_ bytes) at_ bytes := by
  induction bytes generalizing b at_ with
  | nil => exact nofun
  | cons byte rest ih =>
    rw [List.length_cons] at inside
    intro i b' here
    cases i with
    | zero =>
      obtain rfl := Option.some.inj here
      have small : at_ < 0x10000 := by omega
      have mask := (ram.write8 (BitVec.ofNat 32 at_) byte).masked small
      have place : (BitVec.ofNat 32 at_).toNat = at_ := by
        rw [BitVec.toNat_ofNat, Nat.mod_eq_of_lt (by omega)]
      refine (peek8_writeBytes_apart (ram.write8 _ _) (by omega) (.inl ?_)).trans ?_
      · rw [Nat.add_zero, mask, place]
        omega
      · rw [FlatMemoryBus.addrMask_write8] at mask
        rw [peek8_write8 ram (by omega), Nat.add_zero, mask, place, if_pos rfl]
    | succ i =>
      have rest_ : Holds (writeBytes (b.write8 (BitVec.ofNat 32 at_) byte) (at_ + 1) rest) (at_ + 1) rest :=
        ih (ram.write8 _ _) (by omega)
      have there := rest_ i b' here
      rwa [Nat.add_right_comm] at there

theorem Holds.apart (holds : Holds b at_ bytes) (ram : Ram b) {bytes' : List Byte} {at_' : ℕ}
    (inside : at_ + bytes.length ≤ 0x10000) (inside' : at_' + bytes'.length ≤ 0x10000)
    (apart : at_ + bytes.length ≤ at_' ∨ at_' + bytes'.length ≤ at_) :
    Holds (writeBytes b at_' bytes') at_ bytes := by
  intro i b' here
  have few : i < bytes.length := (List.getElem?_eq_some_iff.mp here).1
  have place : (BitVec.ofNat 32 (at_ + i) &&& b.addrMask).toNat = at_ + i := by
    rw [ram.masked (by omega), BitVec.toNat_ofNat, Nat.mod_eq_of_lt (by omega)]
  refine (peek8_writeBytes_apart ram inside' ?_).trans (holds i b' here)
  rw [place]
  omega

/-- Writing changes nothing exactly if it is there already. -/
theorem unchanged_iff (ram : Ram b) (inside : at_ + bytes.length ≤ 0x10000) :
    Unchanged b (writeBytes b at_ bytes) ↔ Holds b at_ bytes := by
  have written := holds_writeBytes ram inside
  constructor
  · intro same i b' here
    rw [← same]
    exact written i b' here
  · intro holds addr
    by_cases apart : (addr &&& b.addrMask).toNat < at_ ∨
        at_ + bytes.length ≤ (addr &&& b.addrMask).toNat
    · exact peek8_writeBytes_apart ram inside apart
    · obtain ⟨low, high⟩ := not_or.mp apart
      obtain ⟨i, place⟩ := Nat.exists_eq_add_of_le (Nat.le_of_not_lt low)
      have few : i < bytes.length := by omega
      have same : ∀ b' : FlatMemoryBus, Ram b' → b'.addrMask = b.addrMask →
          b'.peek8 addr = b'.peek8 (BitVec.ofNat 32 (at_ + i)) := by
        intro b' ram' mask
        have cell : addr &&& b.addrMask = BitVec.ofNat 32 (at_ + i) := by
          rw [← place, BitVec.ofNat_toNat, BitVec.setWidth_eq]
        rw [b'.peek8_of_ram ram'.ram, b'.peek8_of_ram ram'.ram, ram'.masked (by omega), mask, cell]
      have here : bytes[i]? = some bytes[i] := List.getElem?_eq_getElem few
      rw [same b ram rfl, same _ (ram.writeBytes _ _) (addrMask_writeBytes ..), holds i _ here]
      exact written i _ here

end Memory

/-! ## The tune -/

/-- What follows the header and a load address behind it. -/
def data (file : List Byte) : List Byte :=
  file.drop (be16 file 0x06 + if embedded file then 2 else 0)

section Tune
variable {file : List Byte} {info : Info}

theorem parse_ok (parsed : parse file = .ok info) :
    tune file info = data file ∧ info.dataLen = (data file).length ∧
      info.loadAddr + (data file).length ≤ 0x10000 := by
  unfold parse at parsed
  dsimp only at parsed
  split at parsed
  · cases parsed
  · split at parsed
    · cases parsed
    · split at parsed
      · cases parsed
      · split at parsed
        · cases parsed
        · split at parsed
          · cases parsed
          next fits =>
            obtain rfl := Except.ok.inj parsed
            have length : dataLength file = (data file).length := by
              unfold dataLength data
              rw [List.length_drop]
              dsimp only
              split <;> omega
            refine ⟨?_, length, length ▸ Nat.le_of_not_lt fits⟩
            unfold tune slice
            dsimp only
            rw [length]
            exact List.take_length

/-! ## The driver -/

theorem length_driver (info : Info) (at_ : ℕ) : (driver info at_).length ≤ DRIVER_SIZE := by
  unfold driver
  rw [List.length_map]
  by_cases cia : info.ciaSpeed = true
  · by_cases self : info.playAddr = 0
    · simp [cia, self, setTimer, DRIVER_SIZE]
    · simp [cia, self, setTimer, DRIVER_SIZE]
  · by_cases self : info.playAddr = 0
    · simp [cia, self, DRIVER_SIZE]
    · simp [cia, self, setTimer, DRIVER_SIZE]

theorem mem_steps {from_ upTo cand : ℕ} :
    cand ∈ steps from_ upTo ↔ ∃ i < (upTo - from_) / 64, from_ + i * 64 = cand := by
  simp [steps, DRIVER_SIZE]

/-- A tune over every place for the driver. -/
def Crowded (info : Info) : Prop := info.loadAddr < 0x240 ∧ 0xCFC0 < info.loadAddr + info.dataLen

theorem overlaps_eq_true {a aLen b bLen : ℕ} :
    overlaps a aLen b bLen = true ↔ a < b + bLen ∧ b < a + aLen := by
  simp [overlaps]

theorem overlaps_eq_false {a aLen b bLen : ℕ} :
    overlaps a aLen b bLen = false ↔ b + bLen ≤ a ∨ a + aLen ≤ b := by
  rw [overlaps, Bool.and_eq_false_iff, decide_eq_false_iff_not, decide_eq_false_iff_not]
  omega

/-- The places of the driver. -/
def Place (cand : ℕ) : Prop :=
  cand ∈ [0x0334, 0x0200] ∨ cand ∈ steps 0xC000 0xD000 ∨ cand ∈ steps 0x1000 0xA000

theorem place_bounds {cand : ℕ} (place : Place cand) : 0x200 ≤ cand ∧ cand ≤ 0xCFC0 := by
  rcases place with low | high | mid
  · simp only [List.mem_cons, List.not_mem_nil, or_false] at low
    omega
  · obtain ⟨i, few, rfl⟩ := mem_steps.mp high
    omega
  · obtain ⟨i, few, rfl⟩ := mem_steps.mp mid
    omega

theorem findFree_some {at_ : ℕ} (found : findFree info = some at_) :
    Place at_ ∧ overlaps at_ DRIVER_SIZE info.loadAddr info.dataLen = false := by
  have of_find {cands : List ℕ} (here : (cands.find? fun cand =>
      !overlaps cand DRIVER_SIZE info.loadAddr info.dataLen) = some at_) :
      at_ ∈ cands ∧ overlaps at_ DRIVER_SIZE info.loadAddr info.dataLen = false :=
    ⟨List.mem_of_find?_eq_some here, by simpa using List.find?_some here⟩
  rcases Option.or_eq_some_iff.mp found with low | ⟨-, later⟩
  · exact (of_find low).imp .inl id
  · rcases Option.or_eq_some_iff.mp later with high | ⟨-, mid⟩
    · exact (of_find high).imp (.inr ∘ .inl) id
    · exact (of_find mid).imp (.inr ∘ .inr) id

theorem findFree_none : findFree info = none ↔ Crowded info := by
  have all : findFree info = none ↔
      ∀ cand, Place cand → overlaps cand DRIVER_SIZE info.loadAddr info.dataLen = true := by
    simp only [findFree, Option.or_eq_none_iff, List.find?_eq_none, Bool.not_eq_true',
      Bool.not_eq_false, Place, or_imp, forall_and]
  rw [all]
  constructor
  · intro each
    have first := each 0x200 (.inl (by simp))
    have last := each 0xCFC0 (.inr (.inl (mem_steps.mpr ⟨63, by decide, rfl⟩)))
    rw [overlaps_eq_true] at first last
    exact ⟨first.2, last.1⟩
  · rintro ⟨low, high⟩ cand place
    obtain ⟨above, below⟩ := place_bounds place
    rw [overlaps_eq_true, DRIVER_SIZE]
    omega

end Tune

/-! ## Loading -/

/-- The two do not share an address. -/
def Apart (at_ : ℕ) (bytes : List Byte) (at_' : ℕ) (bytes' : List Byte) : Prop :=
  at_ + bytes.length ≤ at_' ∨ at_' + bytes'.length ≤ at_

/-- After a success the tune and its driver are in memory, one beside the other; after a failure
memory is unchanged. -/
def Cleanly (file : List Byte) (b : FlatMemoryBus) (o : Loaded FlatMemoryBus) : Prop :=
  match o.answer with
  | .ok info =>
    Holds o.bus info.loadAddr (data file) ∧ Holds o.bus info.driverAddr (driver info info.driverAddr) ∧
      Apart info.loadAddr (data file) info.driverAddr (driver info info.driverAddr)
  | .error _ => Unchanged b o.bus

section Load
variable {file : List Byte} {b : FlatMemoryBus} {info : Info}

/-- With a free place. -/
theorem cleanly_found (whole : tune file info = data file) (length : info.dataLen = (data file).length)
    (fits : info.loadAddr + (data file).length ≤ 0x10000) (ram : Ram b) {at_ : ℕ}
    (found : findFree info = some at_) :
    Cleanly file b ⟨writeBytes (writeBytes b info.loadAddr (tune file info)) at_ (driver info at_),
      .ok { info with driverAddr := at_ }, some at_⟩ := by
  obtain ⟨place, free⟩ := findFree_some found
  obtain ⟨low, high⟩ := place_bounds place
  have small : (driver info at_).length ≤ 64 := length_driver info at_
  have apart := overlaps_eq_false.mp free
  unfold DRIVER_SIZE at apart
  rw [length] at apart
  rw [whole]
  have ram' := ram.writeBytes (data file) info.loadAddr
  refine ⟨?_, holds_writeBytes ram' (by omega), ?_⟩
  · exact (holds_writeBytes ram fits).apart ram' fits (by omega) (by omega)
  · change info.loadAddr + _ ≤ at_ ∨ at_ + (driver info at_).length ≤ info.loadAddr
    omega

/-- What a tune that was parsed leaves. -/
theorem cleanly_parsed (whole : tune file info = data file)
    (length : info.dataLen = (data file).length)
    (fits : info.loadAddr + (data file).length ≤ 0x10000) (ram : Ram b) :
    Cleanly file b (place file info b) ↔ (Crowded info → Holds b info.loadAddr (data file)) := by
  unfold place
  cases found : findFree info with
  | none =>
    rw [imp_iff_right (findFree_none.mp found), ← unchanged_iff ram fits, ← whole]
    exact Iff.rfl
  | some at_ =>
    refine iff_of_true (cleanly_found whole length fits ram found) fun crowded => ?_
    rw [findFree_none.mpr crowded] at found
    cases found

/-- A load keeps tune and driver apart and fails with memory unchanged, unless the tune covers
every place of the driver and is not in memory already. -/
theorem cleanly_iff (file : List Byte) (subtune : ℤ) (machine : Bool) (b : FlatMemoryBus)
    (ram : Ram b) : Cleanly file b (load file subtune machine b) ↔
      ∀ info, parse file = .ok info → machine = true → Crowded info →
        Holds b info.loadAddr (data file) := by
  unfold load
  cases parsed : parse file with
  | error err => exact iff_of_true (fun _ => rfl) nofun
  | ok info =>
    cases machine with
    | false => exact iff_of_true (fun _ => rfl) nofun
    | true =>
      obtain ⟨whole, length, fits⟩ := parse_ok parsed
      simp only [Bool.not_true, Bool.false_eq_true, if_false, Except.ok.injEq, forall_eq', true_imp_iff]
      exact cleanly_parsed whole length fits ram

end Load

/-! ## One tune -/

/-- A tune at $0200. -/
def psidOf (bytes : List Byte) : List Byte :=
  [0x50, 0x53, 0x49, 0x44, 0, 1, 0, 0x76, 2, 0, 2, 0, 2, 0, 0, 1, 0, 1, 0, 0, 0, 0] ++
    (List.replicate 96 0 ++ bytes)

theorem parse_psidOf (bytes : List Byte) (some_ : bytes ≠ [])
    (fits : 0x200 + bytes.length ≤ 0x10000) : ∃ info, parse (psidOf bytes) = .ok info ∧
      info.loadAddr = 0x200 ∧ info.dataLen = bytes.length ∧ data (psidOf bytes) = bytes := by
  have count : (psidOf bytes).length = 0x76 + bytes.length := by
    rw [psidOf, List.length_append, List.length_append, List.length_replicate, ← Nat.add_assoc]
    rfl
  have pos := List.length_pos_of_ne_nil some_
  have offset : be16 (psidOf bytes) 0x06 = 0x76 := by simp [be16, psidOf]
  have direct : embedded (psidOf bytes) = false := rfl
  have at_ : loadAddress (psidOf bytes) = 0x200 := by
    rw [loadAddress, direct]
    simp [be16, psidOf]
  have length : dataLength (psidOf bytes) = bytes.length := by
    simp [dataLength, direct, offset, count]
  have magic : (psidOf bytes).take 4 = PSID := rfl
  have header : ¬(psidOf bytes).length < 0x76 := by
    rw [count]
    exact Nat.not_lt.mpr (Nat.le_add_right ..)
  have more : ¬(psidOf bytes).length ≤ be16 (psidOf bytes) 0x06 := by
    rw [count, offset]
    exact Nat.not_le.mpr (Nat.lt_add_of_pos_right pos)
  have inside : ¬loadAddress (psidOf bytes) + dataLength (psidOf bytes) > 0x10000 := by
    rw [at_, length]
    exact Nat.not_lt.mpr fits
  have bytes_ : data (psidOf bytes) = bytes := by
    rw [data, direct, offset]
    simp [psidOf]
  unfold parse
  dsimp only
  rw [if_neg header, if_neg fun other => other.1 magic, if_neg more, if_neg (by simp [direct]),
    if_neg inside]
  exact ⟨_, rfl, at_, length, bytes_⟩

theorem ram_new : Ram (.new 16) := ⟨rfl, ⟨16, by decide, rfl⟩, le_rfl⟩

theorem cleanly_iff_small :
    Cleanly (psidOf [0x60]) (.new 16) (load (psidOf [0x60]) 1 true (.new 16)) := by
  refine (cleanly_iff (psidOf [0x60]) 1 true (.new 16) ram_new).mpr fun info parsed _ crowded => ?_
  obtain ⟨info', parsed', at_, length, -⟩ := parse_psidOf [0x60] (by simp) (by decide)
  obtain rfl := Except.ok.inj (parsed.symm.trans parsed')
  have high := crowded.2
  rw [at_, length, List.length_singleton] at high
  omega

/-- A tune from $0200 to $CFFF is refused with its data in memory. -/
theorem not_cleanly_crowded :
    ¬Cleanly (psidOf (List.replicate 0xCE00 1)) (.new 16)
      (load (psidOf (List.replicate 0xCE00 1)) 1 true (.new 16)) := by
  rw [cleanly_iff _ _ _ _ ram_new]
  intro all
  have count : (List.replicate 0xCE00 (1 : Byte)).length = 0xCE00 := List.length_replicate
  obtain ⟨info, parsed, at_, length, bytes⟩ := parse_psidOf (List.replicate 0xCE00 1)
    (List.ne_nil_of_length_pos (by rw [count]; omega)) (by rw [count]; omega)
  have holds := all info parsed rfl ⟨by omega, by rw [length, count, at_]; omega⟩
  have first := holds 0 1 (by rw [bytes, List.getElem?_replicate]; rfl)
  rw [FlatMemoryBus.peek8_of_ram _ rfl] at first
  cases first

end Mmemu.Guarantees.SidPlacement
