import Mmemu.Source.Atari2600

/-!
# Atari 2600 cartridges: banks and RAM

What a cartridge shows depends on the accesses since the last reset only: the last hotspot chooses the
bank, the last write fills a byte of the RAM. No access leaves the image or the RAM, unless the image
is empty: then the cartridge is made with a division by zero.
-/
namespace Mmemu.Guarantees.CartridgeBanks
open Mmemu.Library.CheckedBuffer Mmemu.Source.MemoryBus Mmemu.Source.Atari2600

/-! ## What a cartridge should show -/

/-- An access that a cartridge sees: its own addresses, and writes to the others. -/
inductive Access where
  | read (a : ℕ)
  | write (a : ℕ) (v : Byte)
  | low (addr13 : ℕ) (v : Byte)

/-- The address of the cartridge that is accessed. -/
def Access.at? : Access → Option ℕ
  | read a | write a _ => some a
  | low _ _ => none

/-- What the last access that tells something tells. The accesses are listed newest first. -/
def latest {α : Type} (tells : Access → Option α) (history : List Access) (start : α) : α :=
  (history.findSome? tells).getD start

/-- The first and the last hotspot of a type with 4K banks. -/
def hotspots : CartType → Option (ℕ × ℕ)
  | .F8 | .F8SC => some (0xFF8, 0xFF9)
  | .F6 | .F6SC => some (0xFF6, 0xFF9)
  | .F4 | .F4SC => some (0xFF4, 0xFFB)
  | .FA => some (0xFF8, 0xFFA)
  | _ => none

/-- The 4K bank that an access chooses. -/
def choosesBank (type : CartType) (access : Access) : Option ℕ := do
  let a ← access.at?
  let (first, last) ← hotspots type
  if first ≤ a ∧ a ≤ last then some (a - first) else none

/-- The 1K bank that an access chooses for a quarter of E0's space. -/
def choosesSlice (quarter : ℕ) (access : Access) : Option ℕ := do
  let a ← access.at?
  if 0xFE0 ≤ a ∧ a ≤ 0xFF7 ∧ (a - 0xFE0) / 8 = quarter then some (a % 8) else none

/-- The 2K bank that a write chooses for 3F's lower half. -/
def choosesLow (n : ℕ) : Access → Option ℕ
  | .low addr13 v => if addr13 ≤ 0x3F then some (v.toNat % (n / 2048)) else none
  | _ => none

def writesRam (i : ℕ) : Access → Option Byte
  | .write a v => if a = i then some v else none
  | _ => none

/-- The byte of the image that is shown at an address. -/
def shown (image : List Byte) (type : CartType) (history : List Access) (a : ℕ) : Byte :=
  let n := image.length
  image.getD
    (match type with
    | .k2K => a % n
    | .E0 => latest (choosesSlice (a / 1024)) history (4 + a / 1024) * 1024 + a % 1024
    | .k3F => if a < 2048 then latest (choosesLow n) history 0 * 2048 + a else n - 2048 + a % 2048
    | _ => latest (choosesBank type) history (n / 4096 - 1) * 4096 + a) 0

def ramByte (history : List Access) (i : ℕ) : Byte := latest (writesRam i) history 0

/-- What a read returns: of the RAM below its ports' end, else of the image after the access. -/
def returned (image : List Byte) (type : CartType) (history : List Access) (a : ℕ) : Byte :=
  let rs := Cart.ramSize type
  if a < rs then ramByte history a
  else if a < 2 * rs then ramByte history (a - rs)
  else shown image type history a

/-! ## The cartridge follows its history -/

/-- The sizes that a type is detected for. -/
def Sized (type : CartType) (n : ℕ) : Prop :=
  match type with
  | .k2K => n ≤ 2048 ∨ n = 4096
  | .k4K => n = 4096 ∨ n = 8192
  | .F8 | .F8SC | .E0 => n = 8192
  | .k3F => 2048 < n
  | .FA => n = 12288
  | .F6 | .F6SC => n = 16384
  | .F4 | .F4SC => n = 32768

theorem detectType_sized {image : List Byte} {type : CartType} (detected : detectType image = some type) :
    Sized type image.length := by
  unfold detectType at detected
  dsimp only at detected
  split_ifs at detected
  all_goals
    cases detected
    simp only [Sized]
    omega

structure Follows (image : List Byte) (type : CartType) (history : List Access) (c : Cart) : Prop where
  type_ : c.m_type = type
  rom : c.m_rom = if type = .k2K then ⟨4096, fun i => image.getD (i % image.length) 0⟩
    else ⟨image.length, fun i => image.getD i 0⟩
  ramSize : c.m_ram.size = Cart.ramSize type
  ram : ∀ i, i < Cart.ramSize type → c.m_ram.item i = ramByte history i
  bank : c.m_bank = latest (choosesBank type) history (c.banks - 1)
  slice : type = .E0 → ∀ quarter, c.m_slice quarter = latest (choosesSlice quarter) history (4 + quarter)
  low : type = .k3F → c.m_bank3f = latest (choosesLow image.length) history 0

theorem latest_cons {α : Type} (tells : Access → Option α) (access : Access) (history : List Access) (start : α) :
    latest tells (access :: history) start = (tells access).getD (latest tells history start) := by
  unfold latest
  rw [List.findSome?_cons]
  cases tells access with
  | none => rfl
  | some x => rfl

theorem latest_elim {α : Type} {p : α → Prop} {tells : Access → Option α} {start : α} (first : p start)
    (each : ∀ access x, tells access = some x → p x) (history : List Access) : p (latest tells history start) := by
  unfold latest
  cases found : history.findSome? tells with
  | none => exact first
  | some x =>
    obtain ⟨access, -, told⟩ := List.exists_of_findSome?_eq_some found
    exact each access x told

section Hotspots
variable {c : Cart} {access : Access} {a : ℕ}

theorem hotspot_rest (c : Cart) (a : ℕ) :
    (c.hotspot a).m_type = c.m_type ∧ (c.hotspot a).m_rom = c.m_rom ∧ (c.hotspot a).m_ram = c.m_ram ∧
      (c.hotspot a).m_bank3f = c.m_bank3f := by
  unfold Cart.hotspot
  split
  all_goals first
    | exact ⟨rfl, rfl, rfl, rfl⟩
    | split <;> exact ⟨rfl, rfl, rfl, rfl⟩

theorem hotspot_bank (c : Cart) (here : access.at? = some a) :
    (c.hotspot a).m_bank = (choosesBank c.m_type access).getD c.m_bank := by
  have between (c : Cart) (first last : ℕ) :
      (if a ≥ first ∧ a ≤ last then { c with m_bank := a - first } else c).m_bank =
        (if first ≤ a ∧ a ≤ last then some (a - first) else none).getD c.m_bank := by
    split_ifs <;> rfl
  unfold choosesBank
  rw [here]
  obtain ⟨rom, type, ram, bank, bank3f, slice⟩ := c
  cases type with
  | F8 | F8SC => exact between _ 0xFF8 0xFF9
  | F6 | F6SC => exact between _ 0xFF6 0xFF9
  | F4 | F4SC => exact between _ 0xFF4 0xFFB
  | FA => exact between _ 0xFF8 0xFFA
  | E0 => exact (apply_ite Cart.m_bank ..).trans (ite_self _)
  | k2K | k4K | k3F => rfl

theorem hotspot_slice (c : Cart) (here : access.at? = some a) (e0 : c.m_type = .E0) (quarter : ℕ) :
    (c.hotspot a).m_slice quarter = (choosesSlice quarter access).getD (c.m_slice quarter) := by
  have eighth : (a - 0xFE0) >>> 3 = (a - 0xFE0) / 8 := Nat.shiftRight_eq_div_pow _ 3
  have low : a &&& 7 = a % 8 := Nat.and_two_pow_sub_one_eq_mod a 3
  unfold Cart.hotspot choosesSlice
  rw [here, e0, eighth, low]
  simp only [Option.bind_eq_bind, Option.bind_some]
  by_cases inside : 0xFE0 ≤ a ∧ a ≤ 0xFF7
  · rw [if_pos inside]
    by_cases mine : (a - 0xFE0) / 8 = quarter
    · rw [if_pos ⟨inside.1, inside.2, mine⟩, mine]
      exact Function.update_self ..
    · rw [if_neg fun both => mine both.2.2]
      exact Function.update_of_ne (Ne.symm mine) ..
  · rw [if_neg inside, if_neg fun both => inside ⟨both.1, both.2.1⟩]
    rfl

end Hotspots

namespace Follows
variable {image : List Byte} {type : CartType} {history : List Access} {c : Cart}

/-- An access of the cartridge's own addresses that leaves the RAM as it is. -/
theorem touch (follows : Follows image type history c) {access : Access} {a : ℕ} (here : access.at? = some a)
    (quiet : ∀ i < Cart.ramSize type, writesRam i access = none) :
    Follows image type (access :: history) (c.hotspot a) := by
  obtain ⟨same_type, same_rom, same_ram, same_low⟩ := hotspot_rest c a
  have none_low (n : ℕ) : choosesLow n access = none := by
    cases access with
    | read | write => rfl
    | low => cases here
  refine ⟨same_type.trans follows.type_, same_rom.trans follows.rom, ?_, fun i inside => ?_, ?_, ?_, ?_⟩
  · rw [same_ram]
    exact follows.ramSize
  · rw [same_ram, ramByte, latest_cons, quiet i inside]
    exact follows.ram i inside
  · rw [hotspot_bank c here, latest_cons, Cart.banks, same_rom, follows.bank, follows.type_]
    rfl
  · intro e0 quarter
    rw [hotspot_slice c here (follows.type_.trans e0), latest_cons, follows.slice e0]
  · intro is3F
    rw [same_low, latest_cons, none_low]
    exact follows.low is3F

theorem write (follows : Follows image type history c) (a : ℕ) (v : Byte) :
    ∃ c', c.write a v = some c' ∧ Follows image type (.write a v :: history) c' := by
  have size : (c.hotspot a).m_ram.size = Cart.ramSize type := by
    rw [(hotspot_rest c a).2.2.1]
    exact follows.ramSize
  by_cases inside : a < Cart.ramSize type
  · -- the bank is followed as for a read, the RAM has the byte besides
    have touched : Follows image type (.read a :: history) (c.hotspot a) := follows.touch rfl fun _ _ => rfl
    refine ⟨{ c.hotspot a with m_ram := ⟨(c.hotspot a).m_ram.size, Function.update (c.hotspot a).m_ram.item a v⟩ },
      ?_, ⟨touched.type_, touched.rom, touched.ramSize, fun i small => ?_, ?_, ?_, ?_⟩⟩
    · unfold Cart.write
      dsimp only
      rw [if_pos ⟨by omega, by omega⟩, Buffer.set_of_lt (by omega)]
      rfl
    · rw [ramByte, latest_cons]
      by_cases same : a = i
      · simp [writesRam, same]
      · rw [show writesRam i (.write a v) = none from if_neg same]
        exact (Function.update_of_ne (Ne.symm same) ..).trans (touched.ram i small)
    · exact touched.bank
    · exact touched.slice
    · exact touched.low
  · refine ⟨c.hotspot a, ?_, follows.touch rfl fun i small => if_neg (by omega)⟩
    unfold Cart.write
    dsimp only
    rw [if_neg (by omega)]

theorem lowWrite (follows : Follows image type history c) (sized : Sized type image.length) (addr13 : ℕ) (v : Byte) :
    ∃ c', c.lowWrite addr13 v = some c' ∧ Follows image type (.low addr13 v :: history) c' := by
  have size : type = .k3F → c.m_rom.size = image.length := by
    rintro rfl
    rw [follows.rom]
    rfl
  by_cases selects : type = .k3F ∧ addr13 ≤ 0x3F
  · have large : 2048 < image.length := by
      rw [selects.1] at sized
      exact sized
    refine ⟨{ c with m_bank3f := v.toNat % (image.length / 2048) }, ?_,
      ⟨follows.type_, follows.rom, follows.ramSize, follows.ram, follows.bank, follows.slice, fun _ => ?_⟩⟩
    · unfold Cart.lowWrite
      rw [follows.type_, size selects.1, if_pos selects, if_neg (by omega)]
    · rw [latest_cons, choosesLow, if_pos selects.2]
      rfl
  · refine ⟨c, ?_, ⟨follows.type_, follows.rom, follows.ramSize, follows.ram, follows.bank, follows.slice,
      fun is3F => ?_⟩⟩
    · unfold Cart.lowWrite
      rw [follows.type_, if_neg selects]
    · rw [latest_cons, choosesLow, if_neg fun small => selects ⟨is3F, small⟩]
      exact follows.low is3F

end Follows

/-! ## Inside of the image -/

section Bounds
variable {type : CartType} {n a : ℕ} (history : List Access)

/-- A hotspot of a type chooses one of the banks that its images have. -/
theorem bank_inside (sized : Sized type n) (large : 4096 ≤ n) :
    latest (choosesBank type) history (n / 4096 - 1) * 4096 + 4096 ≤ n := by
  refine latest_elim (p := fun bank => bank * 4096 + 4096 ≤ n) (by omega) (fun access bank chosen => ?_) history
  unfold choosesBank at chosen
  cases at_ : access.at? with
  | none => simp [at_] at chosen
  | some a =>
    rw [at_] at chosen
    cases type with
    | F8 | F8SC | F6 | F6SC | F4 | F4SC | FA =>
      simp only [hotspots, Option.bind_eq_bind, Option.bind_some, Option.ite_none_right_eq_some,
        Option.some.injEq] at chosen
      simp only [Sized] at sized
      omega
    | k2K | k4K | E0 | k3F => simp [hotspots] at chosen

theorem slice_inside {quarter : ℕ} (four : quarter < 4) : latest (choosesSlice quarter) history (4 + quarter) < 8 := by
  refine latest_elim (p := fun slice => slice < 8) (by omega) (fun access slice chosen => ?_) history
  unfold choosesSlice at chosen
  cases at_ : access.at? with
  | none => simp [at_] at chosen
  | some a =>
    simp only [at_, Option.bind_eq_bind, Option.bind_some, Option.ite_none_right_eq_some, Option.some.injEq] at chosen
    omega

theorem low_inside (large : 2048 < n) : latest (choosesLow n) history 0 * 2048 + 2048 ≤ n := by
  have some_ : 0 < n / 2048 := by omega
  have inside : latest (choosesLow n) history 0 < n / 2048 := by
    refine latest_elim (p := fun bank => bank < n / 2048) some_ (fun access bank chosen => ?_) history
    cases access with
    | read | write => cases chosen
    | low addr13 v =>
      simp only [choosesLow, Option.ite_none_right_eq_some, Option.some.injEq] at chosen
      rw [← chosen.2]
      exact Nat.mod_lt _ some_
  omega

end Bounds

namespace Follows
variable {image : List Byte} {type : CartType} {history : List Access} {c : Cart} {a : ℕ}

/-- The byte that an address selects lies in the image. -/
theorem get_offset (follows : Follows image type history c) (sized : Sized type image.length) (small : a < 4096) :
    c.m_rom.get (c.offset a) = some (shown image type history a) := by
  have quarter : a >>> 10 = a / 1024 := Nat.shiftRight_eq_div_pow a 10
  have inQuarter : a &&& 0x3FF = a % 1024 := Nat.and_two_pow_sub_one_eq_mod a 10
  have inHalf : a &&& 0x7FF = a % 2048 := Nat.and_two_pow_sub_one_eq_mod a 11
  obtain ⟨rom, type', ram, bank, bank3f, slice⟩ := c
  obtain ⟨is_type, is_rom, -, -, is_bank, is_slice, is_low⟩ := follows
  dsimp only [Cart.banks] at is_type is_rom is_bank is_slice is_low
  subst is_type is_rom
  -- outside of 2K the image is what the cartridge holds
  have inside {o : ℕ} (lt : o < image.length) : (⟨image.length, fun i => image.getD i 0⟩ : Bytes).get o =
      some (image.getD o 0) := Buffer.get_of_lt lt
  have banked (large : 4096 ≤ image.length) :
      latest (choosesBank type') history (image.length / 4096 - 1) * 4096 + a < image.length := by
    have bank := bank_inside history sized large
    omega
  unfold shown
  cases type' with
  | k2K =>
    have zero : bank = 0 := by
      rw [is_bank]
      refine latest_elim (p := fun bank => bank = 0) (by simp) (fun access bank chosen => ?_) history
      unfold choosesBank at chosen
      cases at_ : access.at? <;> simp [at_, hotspots] at chosen
    change Buffer.get _ (bank * 4096 + a) = _
    rw [zero, Nat.zero_mul, Nat.zero_add]
    exact Buffer.get_of_lt small
  | E0 =>
    have slices := slice_inside history (show a / 1024 < 4 by omega)
    change Buffer.get _ (slice (a >>> 10) * 1024 + (a &&& 0x3FF)) = _
    rw [is_slice rfl, quarter, inQuarter]
    refine inside ?_
    simp only [Sized] at sized
    omega
  | k3F =>
    change Buffer.get _ (if a < 0x800 then bank3f * 2048 + a else image.length - 2048 + (a &&& 0x7FF)) = _
    have lower := low_inside history sized
    rw [is_low rfl, inHalf]
    refine inside ?_
    simp only [Sized] at sized
    split <;> omega
  | _ =>
    change Buffer.get _ (bank * 4096 + a) = _
    rw [is_bank]
    refine inside (banked ?_)
    simp only [Sized] at sized
    omega

theorem look (follows : Follows image type history c) (sized : Sized type image.length) (small : a < 4096) :
    c.look a = some (returned image type history a) := by
  unfold Cart.look returned
  dsimp only
  rw [follows.ramSize]
  by_cases low : a < Cart.ramSize type
  · rw [if_neg (by omega), if_pos ⟨by omega, low⟩, if_pos low, Buffer.get_of_lt (by rw [follows.ramSize]; exact low),
      follows.ram a low]
  · by_cases port : a < 2 * Cart.ramSize type
    · rw [if_pos ⟨by omega, by omega, port⟩, if_neg low, if_pos port,
        Buffer.get_of_lt (by rw [follows.ramSize]; omega), follows.ram _ (by omega)]
    · rw [if_neg (by omega), if_neg (by omega), if_neg low, if_neg port]
      exact follows.get_offset sized small

end Follows

/-! ## The bus -/

/-- The 13 bits of an address that the 6507 has, and its place in the cartridge's space. -/
def busAddr (addr : BitVec 32) : BitVec 16 := (addr &&& 0x1FFF).setWidth 16

def cartAddr (addr : BitVec 32) : ℕ := (busAddr addr &&& 0x0FFF).toNat

theorem cartAddr_lt (addr : BitVec 32) : cartAddr addr < 4096 := by
  unfold cartAddr
  rw [BitVec.toNat_and]
  exact Nat.and_lt_two_pow _ (by decide : (0x0FFF#16).toNat < 2 ^ 12)

/-- The bus has no fault and a cartridge that follows the history. -/
def Holds (image : List Byte) (type : CartType) (history : List Access) (b : A2600Bus) : Prop :=
  b.fault = false ∧ ∃ c, b.m_cart = some c ∧ Follows image type history c

/-- What the cartridge sees of a read and of a write. -/
def seesRead (history : List Access) (addr : BitVec 32) : List Access :=
  if A2600Bus.target (busAddr addr) = .cart then .read (cartAddr addr) :: history else history

def seesWrite (history : List Access) (addr : BitVec 32) (v : Byte) : List Access :=
  if A2600Bus.target (busAddr addr) = .cart then .write (cartAddr addr) v :: history
  else .low (busAddr addr).toNat v :: history

section Bus
variable {image : List Byte} {type : CartType} {history : List Access} {b : A2600Bus}

theorem syncTo_cart (b : A2600Bus) (cycle : ℕ) :
    (b.syncTo cycle).m_cart = b.m_cart ∧ (b.syncTo cycle).fault = b.fault := by
  unfold A2600Bus.syncTo
  split <;> exact ⟨rfl, rfl⟩

theorem readAt_holds (holds : Holds image type history b) (sized : Sized type image.length) (at_ : ℕ)
    (addr : BitVec 32) :
    Holds image type (seesRead history addr) (b.readAt at_ (busAddr addr)).2 ∧
      (A2600Bus.target (busAddr addr) = .cart → (b.readAt at_ (busAddr addr)).1 =
        returned image type (.read (cartAddr addr) :: history) (cartAddr addr)) := by
  obtain ⟨sound, c, here, follows⟩ := holds
  have synced := syncTo_cart b at_
  unfold seesRead A2600Bus.readAt
  cases target : A2600Bus.target (busAddr addr) with
  | cart =>
    have touched : Follows image type (.read (cartAddr addr) :: history) (c.hotspot (cartAddr addr)) :=
      follows.touch rfl fun _ _ => rfl
    have byte := touched.look sized (cartAddr_lt addr)
    unfold A2600Bus.readCart
    dsimp only
    rw [here]
    change Holds image type _ { b with
        m_cart := some (c.hotspot (cartAddr addr))
        fault := b.fault || ((c.hotspot (cartAddr addr)).look (cartAddr addr)).isNone } ∧
      (_ → ((c.hotspot (cartAddr addr)).look (cartAddr addr)).getD 0 = _)
    rw [byte, sound]
    exact ⟨⟨rfl, _, rfl, touched⟩, fun _ => rfl⟩
  | tia => exact ⟨⟨synced.2.trans sound, c, synced.1.trans here, follows⟩, fun other => by cases other⟩
  | ram => exact ⟨⟨sound, c, here, follows⟩, fun other => by cases other⟩
  | riot => exact ⟨⟨synced.2.trans sound, c, synced.1.trans here, follows⟩, fun other => by cases other⟩

theorem read8_holds (holds : Holds image type history b) (sized : Sized type image.length) (addr : BitVec 32) :
    Holds image type (seesRead history addr) (b.read8 addr).2 ∧
      (A2600Bus.target (busAddr addr) = .cart →
        (b.read8 addr).1 = returned image type (.read (cartAddr addr) :: history) (cartAddr addr)) :=
  readAt_holds (b := { b with m_access := b.m_access + 1 }) holds sized _ addr

theorem peek8_shows (holds : Holds image type history b) (sized : Sized type image.length) {addr : BitVec 32}
    (target : A2600Bus.target (busAddr addr) = .cart) :
    b.peek8 addr = returned image type history (cartAddr addr) := by
  obtain ⟨-, c, here, follows⟩ := holds
  unfold A2600Bus.peek8
  dsimp only
  rw [show A2600Bus.target ((addr &&& 0x1FFF).setWidth 16) = .cart from target, here]
  change (c.look (cartAddr addr)).getD 0 = _
  rw [follows.look sized (cartAddr_lt addr)]
  rfl

theorem writeCart_holds (sound : b.fault = false) {c c' : Cart} (here : b.m_cart = some c) {w : Cart → Option Cart}
    (written : w c = some c') {history' : List Access} (follows : Follows image type history' c') :
    Holds image type history' (b.writeCart w) := by
  unfold A2600Bus.writeCart
  rw [here]
  dsimp only
  rw [written]
  exact ⟨sound, c', rfl, follows⟩

theorem write8_holds (holds : Holds image type history b) (sized : Sized type image.length) (addr : BitVec 32)
    (v : Byte) : Holds image type (seesWrite history addr v) (b.write8 addr v) := by
  obtain ⟨sound, c, here, follows⟩ := holds
  obtain ⟨c', written, follows'⟩ := follows.write (cartAddr addr) v
  obtain ⟨c'', low, follows''⟩ := follows.lowWrite sized (busAddr addr).toNat v
  have below := writeCart_holds (b := { b with m_access := b.m_access + 1, m_dataBus := v }) sound here
    (w := fun cart => cart.lowWrite (busAddr addr).toNat v) low follows''
  unfold seesWrite A2600Bus.write8
  have same : A2600Bus.target ((addr &&& 0x1FFF).setWidth 16) = A2600Bus.target (busAddr addr) := rfl
  dsimp only
  rw [same]
  cases target : A2600Bus.target (busAddr addr) with
  | cart =>
    exact writeCart_holds (b := { b with m_access := b.m_access + 1, m_dataBus := v }) sound here
      (w := fun cart => cart.write (cartAddr addr) v) written follows'
  | tia => exact below
  | ram => exact below
  | riot => exact below

end Bus

/-! ## Runs -/

/-- What is done to the bus, and resets of the machine. -/
inductive Event where
  | read (addr : BitVec 32)
  | write (addr : BitVec 32) (v : Byte)
  | peek (addr : BitVec 32)
  | reset

/-- The accesses of the CPU when it is reset: it reads its vector. -/
def vectorReads : List Access := [.read 0xFFD, .read 0xFFC]

/-- The accesses since the last reset. -/
def sees (history : List Access) : Event → List Access
  | .read addr => seesRead history addr
  | .write addr v => seesWrite history addr v
  | .peek _ => history
  | .reset => vectorReads

/-- A step. The peek's byte is all that it returns. -/
def step (m : Machine) : Event → Machine
  | .read addr => { m with bus := (m.bus.read8 addr).2 }
  | .write addr v => { m with bus := m.bus.write8 addr v }
  | .peek _ => m
  | .reset => m.onReset

section Runs
variable {image : List Byte} {type : CartType} {history : List Access} {m : Machine}

theorem reset_follows {c : Cart} (follows : Follows image type history c) : Follows image type [] c.reset where
  type_ := follows.type_
  rom := follows.rom
  ramSize := follows.ramSize
  ram _ _ := rfl
  bank := rfl
  slice _ _ := rfl
  low _ := rfl

/-- Only the cartridge and the faults count. -/
theorem onReset_holds (sized : Sized type image.length) (sound : m.bus.fault = false) {c : Cart}
    (here : m.bus.m_cart = some c) (follows : Follows image type [] c.reset) :
    Holds image type vectorReads m.onReset.bus := by
  let b := { m.bus with m_tia := m.bus.m_tia.reset, m_riot := m.bus.m_riot.reset, m_cart := m.bus.m_cart.map Cart.reset }
  have begun : Holds image type [] b.resetClock := ⟨sound, c.reset, congrArg (·.map Cart.reset) here, follows⟩
  have first := (read8_holds begun sized 0xFFFC).1
  have second := (read8_holds first sized 0xFFFD).1
  exact second

theorem step_holds (holds : Holds image type history m.bus) (sized : Sized type image.length) (event : Event) :
    Holds image type (sees history event) (step m event).bus := by
  cases event with
  | read addr => exact (read8_holds holds sized addr).1
  | write addr v => exact write8_holds holds sized addr v
  | peek => exact holds
  | reset =>
    obtain ⟨sound, c, here, follows⟩ := holds
    exact onReset_holds sized sound here (reset_follows follows)

theorem run_holds (sized : Sized type image.length) (events : List Event) :
    ∀ {m : Machine} {history : List Access}, Holds image type history m.bus →
      Holds image type (events.foldl sees history) (events.foldl step m).bus := by
  induction events with
  | nil => exact fun holds => holds
  | cons event events ih => exact fun holds => ih (step_holds holds sized event)

theorem new_follows (some_ : image ≠ []) (type : CartType) :
    ∃ c, Cart.new image type = some c ∧ Follows image type [] c.reset := by
  have size : image.length ≠ 0 := fun zero => some_ (List.length_eq_zero_iff.mp zero)
  unfold Cart.new
  dsimp only
  by_cases is2K : type = .k2K
  · rw [if_pos is2K, if_neg size]
    exact ⟨_, rfl, rfl, (if_pos is2K).symm, rfl, fun _ _ => rfl, rfl, fun _ _ => rfl, fun _ => rfl⟩
  · rw [if_neg is2K]
    exact ⟨_, rfl, rfl, (if_neg is2K).symm, rfl, fun _ _ => rfl, rfl, fun _ _ => rfl, fun _ => rfl⟩

/-- No fault, and every read of the cartridge returns what the history says, outside of the RAM's
ports and at its read port; so does a peek. -/
structure Right (image : List Byte) (type : CartType) (history : List Access) (b : A2600Bus) : Prop where
  fault : b.fault = false
  rom : ∀ addr, A2600Bus.target (busAddr addr) = .cart → 2 * Cart.ramSize type ≤ cartAddr addr →
    (b.read8 addr).1 = shown image type (.read (cartAddr addr) :: history) (cartAddr addr)
  ram : ∀ addr, A2600Bus.target (busAddr addr) = .cart → Cart.ramSize type ≤ cartAddr addr →
    cartAddr addr < 2 * Cart.ramSize type →
    (b.read8 addr).1 = ramByte history (cartAddr addr - Cart.ramSize type)
  peek : ∀ addr, A2600Bus.target (busAddr addr) = .cart →
    b.peek8 addr = returned image type history (cartAddr addr)

theorem Holds.right {b : A2600Bus} (holds : Holds image type history b) (sized : Sized type image.length) :
    Right image type history b where
  fault := holds.1
  rom addr target above := by
    rw [(read8_holds holds sized addr).2 target, returned]
    rw [if_neg (by omega), if_neg (by omega)]
  ram addr target from_ below := by
    rw [(read8_holds holds sized addr).2 target, returned]
    rw [if_neg (by omega), if_pos below]
    exact (latest_cons ..).trans rfl
  peek addr target := peek8_shows holds sized target

/-- A machine refuses an image and stays as it is, or its bus is right after whatever is done to it. -/
def Accepts (m : Machine) (image : List Byte) : Prop :=
  (∀ err m', m.insertCartridge image = (some err, m') → m' = m) ∧
    ∀ m', m.insertCartridge image = (none, m') → ∃ type, detectType image = some type ∧
      ∀ events : List Event, Right image type (events.foldl sees vectorReads) (events.foldl step m').bus

theorem accepts_of_ne_nil (some_ : image ≠ []) (sound : m.bus.fault = false) : Accepts m image := by
  unfold Accepts Machine.insertCartridge
  cases detected : detectType image with
  | none =>
    dsimp only
    refine ⟨fun err m' is => (Prod.mk.inj is).2.symm, fun m' is => ?_⟩
    cases (Prod.mk.inj is).1
  | some type =>
    obtain ⟨c, new, follows⟩ := new_follows some_ type
    have sized := detectType_sized detected
    dsimp only
    rw [new]
    refine ⟨fun err m' is => ?_, fun m' is => ⟨type, rfl, fun events => ?_⟩⟩
    · cases (Prod.mk.inj is).1
    · rw [← (Prod.mk.inj is).2]
      have begun := onReset_holds (m := { m with bus := { m.bus with m_cart := some c } }) sized sound rfl follows
      exact (run_holds sized events begun).right sized

end Runs

/-- Whatever machine an image is given to, it is refused or the cartridge stays inside of it and shows
what the accesses chose, exactly if the image is not empty. -/
theorem accepts_iff (image : List Byte) :
    (∀ m : Machine, m.bus.fault = false → Accepts m image) ↔ image ≠ [] := by
  constructor
  · rintro all rfl
    obtain ⟨-, taken⟩ := all (Machine.create .NTSC) rfl
    obtain ⟨type, -, right⟩ := taken _ rfl
    exact absurd (right []).fault (by decide)
  · exact fun some_ m sound => accepts_of_ne_nil some_ sound

/-- The empty image is taken for one of 2K, and divides by zero. -/
theorem empty_image : detectType [] = some .k2K ∧ Cart.new [] .k2K = none ∧
    ((Machine.create .NTSC).insertCartridge []).1 = none ∧
    ((Machine.create .NTSC).insertCartridge []).2.bus.fault = true := by
  decide

end Mmemu.Guarantees.CartridgeBanks
