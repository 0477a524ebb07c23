import Mmemu.Library.Runs
import Mmemu.Source.Atari8
import Mmemu.Source.Cpu6502Frame

/-!
# Cartridges of the Atari 8-bit machines

The image of a cartridge has the size of its type, and the bits that a type keeps of an access to $D5xx
do not count further than its banks. So whatever the processor and the chips do, a window that the
cartridge enables shows bytes of the image. The bank the two-chip types select by no chip is the only
one with nothing behind it. Every byte can be brought into a window by one access.
-/
namespace Mmemu.Guarantees.AtariCartridges
open Mmemu.Source Mmemu.Source.Atari8 Mmemu.Source.MemoryBus Mmemu.Library.GuardedRun

/-! ## Bank states -/

/-- The states that the accesses to $D5xx leave a type in. -/
def within (t : CartType) (s : BitVec 32) : Bool :=
  match t with
  | .OSS_034M_16 | .OSS_043M_16 => s = -1 || s = 0xFF || s.toNat < 4
  | .OSS_M091_16 => s = -1 || s.toNat < 4
  | .OSS_8 => s = -1 || s.toNat < 2
  | .WILL_32 => (s &&& 7).toNat < 4
  | t =>
    if t.isXegs then (s &&& 0x7F).toNat < t.kb / 8
    else if t.isMega then (s &&& 0x7F).toNat < t.kb / 16
    else true

theorem bank_le (s mask : BitVec 32) : (s &&& mask).toNat ≤ mask.toNat := by
  rw [BitVec.toNat_and]
  exact Nat.and_le_right

theorem masked_lt (s mask low : BitVec 32) {n : ℕ} (small : (mask &&& low).toNat < n) :
    (s &&& mask &&& low).toNat < n := by
  rw [BitVec.and_assoc]
  exact (bank_le s (mask &&& low)).trans_lt small

theorem reset_within (c : Cartridge) : within c.reset.m_type c.reset.m_state = true := by
  have zero (t : CartType) : within t 0 = true := by cases t <;> decide
  obtain ⟨t, s, rom, sized⟩ := c
  cases t
  case OSS_034M_16 | ATMAX_OLD_1024 => rfl
  all_goals exact zero _

theorem switched_within {c : Cartridge} (h : within c.m_type c.m_state = true) (a : BitVec 32) :
    within c.m_type (c.switched a) = true := by
  obtain ⟨t, s, rom, sized⟩ := c
  cases t
  case OSS_034M_16 | OSS_043M_16 | OSS_M091_16 | OSS_8 =>
    simp only [Cartridge.switched]
    split_ifs <;> rfl
  case DB_32 => exact decide_eq_true (masked_lt a 0x03 0x7F (n := CartType.kb .DB_32 / 8) (by decide))
  case WILL_32 => exact decide_eq_true (masked_lt a 0x0B 7 (by decide))
  all_goals exact h

/-- The states of the types that are switched by the value of a write. -/
theorem masked_within {t : CartType} {mask : Byte} (switches : Cartridge.valueMask t = some mask) (v : Byte) :
    within t ((v &&& mask).setWidth 32) = true := by
  rw [BitVec.setWidth_and]
  cases t
  all_goals first
    | cases switches
      exact decide_eq_true (masked_lt _ _ 0x7F (by decide))
    | cases switches

theorem written_within {c : Cartridge} (h : within c.m_type c.m_state = true) (addr : BitVec 16) (v : Byte) :
    within (c.writeCctl addr v).m_type (c.writeCctl addr v).m_state = true := by
  unfold Cartridge.writeCctl
  cases switches : Cartridge.valueMask c.m_type with
  | some mask => exact masked_within switches v
  | none => exact switched_within h _

theorem filled_within {t : CartType} {bytes : List Byte} {c : Cartridge} (h : Cartridge.filled t bytes = .ok c) :
    within c.m_type c.m_state = true := by
  unfold Cartridge.filled at h
  split at h
  · cases h
    exact reset_within _
  · cases h

theorem load_within {bytes : List Byte} {c : Cartridge} (h : Cartridge.load bytes = .ok c) :
    within c.m_type c.m_state = true := by
  unfold Cartridge.load at h
  split at h
  · dsimp only at h
    split at h
    · cases h
    · exact filled_within h
  · split at h
    · exact filled_within h
    · split at h
      · exact filled_within h
      · cases h

/-! ## The windows -/

/-- The place is in the image. -/
def Inside (c : Cartridge) (addr : BitVec 16) : Prop := ∃ i, c.offset addr = some i ∧ i < c.m_rom.length

/-- The bank of the two-chip types that no chip answers. -/
def NoChip (c : Cartridge) (addr : BitVec 16) : Prop :=
  (c.m_type = .OSS_034M_16 ∨ c.m_type = .OSS_043M_16) ∧ c.m_state = 0xFF ∧ 0xA000 ≤ addr ∧ addr < 0xB000 ∧
    c.offset addr = none

theorem low_inside {c : Cartridge} (h : within c.m_type c.m_state = true) {addr : BitVec 16}
    (above : 0x8000 ≤ addr) (below : addr < 0xA000) (enabled : c.rd4 = true) : Inside c addr := by
  have off : (addr - 0x8000).toNat < 0x2000 := by bv_omega
  obtain ⟨t, s, rom, sized⟩ := c
  cases t
  case STD_16 | BLIZZARD_16 =>
    have size : rom.length = 0x4000 := sized
    exact ⟨_, if_pos below, by rw [size]; omega⟩
  case MEGA_16 | MEGA_32 | MEGA_64 | MEGA_128 | MEGA_256 | MEGA_512 | MEGA_1024 | MEGA_2048 =>
    have bank := of_decide_eq_true h
    refine ⟨_, if_pos below, ?_⟩
    dsimp only at sized bank ⊢
    omega
  all_goals first
    | exact absurd enabled Bool.false_ne_true
    | have bank := of_decide_eq_true h
      refine ⟨_, if_pos below, ?_⟩
      dsimp only at sized bank ⊢
      omega

/-- The window of the OSS types: a bank, below one that stays. -/
theorem oss_inside (c : Cartridge) (fixed banks : ℕ) {addr : BitVec 16} (few : banks ≤ 4)
    (window : c.offset addr =
      let off := (addr - 0xA000).toNat
      if 0x1000 ≤ off then some (fixed + off - 0x1000)
      else if c.m_state = 0xFF then none
      else some (c.m_state.signExtend 64 * 0x1000 + BitVec.ofNat 64 off).toNat)
    (size : c.m_rom.length = banks * 0x1000) (room : fixed + 0x1000 ≤ banks * 0x1000)
    (off : (addr - 0xA000).toNat < 0x2000) (enabled : c.m_state.msb = false)
    (state : c.m_state = -1 ∨ c.m_state = 0xFF ∨ c.m_state.toNat < banks) :
    Inside c addr ∨ c.m_state = 0xFF ∧ (addr - 0xA000).toNat < 0x1000 ∧ c.offset addr = none := by
  by_cases upper : 0x1000 ≤ (addr - 0xA000).toNat
  · exact .inl ⟨_, window.trans (if_pos upper), by omega⟩
  rw [window]
  dsimp only
  rw [if_neg upper]
  rcases state with off_ | none_ | bank
  · rw [off_] at enabled
    cases enabled
  · exact .inr ⟨none_, by omega, if_pos none_⟩
  · have chip : c.m_state ≠ 0xFF := fun none_ => by
      rw [none_] at bank
      exact absurd (bank.trans_le few) (by decide)
    refine .inl ⟨_, (window.trans (if_neg upper)).trans (if_neg chip), ?_⟩
    rw [BitVec.signExtend_eq_setWidth_of_msb_false enabled, size]
    have page : (0x1000 : BitVec 64).toNat = 0x1000 := rfl
    rw [BitVec.toNat_add, BitVec.toNat_mul, BitVec.toNat_setWidth, BitVec.toNat_ofNat, page]
    omega

theorem high_inside {c : Cartridge} (h : within c.m_type c.m_state = true) {addr : BitVec 16}
    (above : 0xA000 ≤ addr) (below : addr < 0xC000) (enabled : c.rd5 = true) : Inside c addr ∨ NoChip c addr := by
  have off : (addr - 0xA000).toNat < 0x2000 := by bv_omega
  have high : ¬ addr < 0xA000 := by bv_omega
  obtain ⟨t, s, rom, sized⟩ := c
  cases t
  case STD_8 | PHOENIX_8 =>
    have size : rom.length = 0x2000 := sized
    exact .inl ⟨_, if_neg high, by rw [size]; omega⟩
  case STD_16 | BLIZZARD_16 =>
    have size : rom.length = 0x4000 := sized
    exact .inl ⟨_, if_neg high, by rw [size]; omega⟩
  case WILL_64 | EXP_64 | DIAMOND_64 | SDX_64 =>
    have size : rom.length = 0x10000 := sized
    have bank : (s &&& 7).toNat ≤ 7 := bank_le s 7
    refine .inl ⟨_, if_neg high, ?_⟩
    dsimp only
    omega
  case WILL_32 =>
    have size : rom.length = 0x8000 := sized
    have bank : (s &&& 7).toNat < 4 := of_decide_eq_true h
    refine .inl ⟨_, if_neg high, ?_⟩
    dsimp only
    omega
  case SDX_128 =>
    have size : rom.length = 0x20000 := sized
    have bank : (s &&& 7).toNat ≤ 7 := bank_le s 7
    have half : (s &&& 0x10).toNat ≤ 0x10 := bank_le s 0x10
    refine .inl ⟨_, if_neg high, ?_⟩
    dsimp only
    omega
  case ATMAX_128 =>
    have size : rom.length = 0x20000 := sized
    have bank : (s &&& 0x0F).toNat ≤ 0x0F := bank_le s 0x0F
    refine .inl ⟨_, if_neg high, ?_⟩
    dsimp only
    omega
  case ATMAX_OLD_1024 | ATMAX_NEW_1024 =>
    have size : rom.length = 0x100000 := sized
    have bank : (s &&& 0x7F).toNat ≤ 0x7F := bank_le s 0x7F
    refine .inl ⟨_, if_neg high, ?_⟩
    dsimp only
    omega
  case OSS_034M_16 | OSS_043M_16 =>
    have state : s = -1 ∨ s = 0xFF ∨ s.toNat < 4 := by
      simpa only [within, Bool.or_eq_true, decide_eq_true_eq, or_assoc] using h
    have on : s.msb = false := Bool.not_eq_true' s.msb ▸ enabled
    rcases oss_inside ⟨_, s, rom, sized⟩ 0x3000 4 le_rfl (if_neg high) sized (by omega) off on state with
      inside | ⟨none_, low, nothing⟩
    · exact .inl inside
    · exact .inr ⟨by simp, none_, above, by bv_omega, nothing⟩
  case OSS_M091_16 =>
    have state : s = -1 ∨ s.toNat < 4 := by
      simpa only [within, Bool.or_eq_true, decide_eq_true_eq] using h
    have on : s.msb = false := Bool.not_eq_true' s.msb ▸ enabled
    rcases oss_inside ⟨_, s, rom, sized⟩ 0 4 le_rfl (if_neg high) sized (by omega) off on (state.imp_right .inr) with
      inside | ⟨none_, -⟩
    · exact .inl inside
    · obtain rfl : s = 0xFF := none_
      exact absurd state (by decide)
  case OSS_8 =>
    have state : s = -1 ∨ s.toNat < 2 := by
      simpa only [within, Bool.or_eq_true, decide_eq_true_eq] using h
    have on : s.msb = false := Bool.not_eq_true' s.msb ▸ enabled
    rcases oss_inside ⟨_, s, rom, sized⟩ 0 2 (by omega) (if_neg high) sized (by omega) off on (state.imp_right .inr)
      with inside | ⟨none_, -⟩
    · exact .inl inside
    · obtain rfl : s = 0xFF := none_
      exact absurd state (by decide)
  all_goals
    have bank := of_decide_eq_true h
    refine .inl ⟨_, if_neg high, ?_⟩
    dsimp only at sized bank ⊢
    omega

/-! ## The bus -/

section Bus
variable {δ : Type} {b : AtariBus δ}

/-- The images are complete, and no ROM has been read outside of its image. -/
structure Stocked (b : AtariBus δ) : Prop where
  os : b.m_os.length = if b.m_xl then 16384 else 10240
  basic : b.m_basic.length = 8192
  cart : ∀ c ∈ b.m_cart, within c.m_type c.m_state = true
  fault : b.fault = false

/-- What the bus shows of its cartridge elsewhere, and that the self-test is a part of the OS. -/
structure Fitted (b : AtariBus δ) : Prop extends Stocked b where
  trig3 : b.m_xl = true → b.trig3 = !b.m_cart.any Cartridge.rd5
  slot : b.m_xl = false → b.m_basicOn = b.m_cart.isNone
  selfTest : b.m_selfTestOn = true → b.m_osOn = true

theorem Stocked.setPortB (h : Stocked b) (v : Byte) : Stocked (b.setPortB v) := by
  unfold AtariBus.setPortB
  split
  · exact ⟨h.os, h.basic, h.cart, h.fault⟩
  · exact h

theorem Stocked.ports (h : Stocked b) (levels : List Byte) : Stocked (levels.foldl AtariBus.setPortB b) := by
  induction levels generalizing b with
  | nil => exact h
  | cons v rest ih => exact ih (h.setPortB v)

theorem Stocked.resetBanking (h : Stocked b) : Stocked b.resetBanking := by
  unfold AtariBus.resetBanking
  split
  · exact h.setPortB 0xFF
  · exact ⟨h.os, h.basic, h.cart, h.fault⟩

theorem Stocked.insert (h : Stocked b) {slot : Option Cartridge}
    (fits : ∀ c ∈ slot, within c.m_type c.m_state = true) : Stocked { b with m_cart := slot } :=
  ⟨h.os, h.basic, fits, h.fault⟩

theorem Fitted.setPortB (h : Fitted b) (v : Byte) : Fitted (b.setPortB v) := by
  unfold AtariBus.setPortB
  split
  next xl =>
    refine ⟨⟨h.os, h.basic, h.cart, h.fault⟩, h.trig3, ?_, fun on => (Bool.and_eq_true_iff.mp on).2⟩
    intro plain
    exact absurd (xl.symm.trans plain) (by decide)
  next => exact h

theorem Fitted.ports (h : Fitted b) (levels : List Byte) : Fitted (levels.foldl AtariBus.setPortB b) := by
  induction levels generalizing b with
  | nil => exact h
  | cons v rest ih => exact ih (h.setPortB v)

theorem Fitted.move (h : Fitted b) (d : δ) : Fitted { b with chips := d } :=
  ⟨⟨h.os, h.basic, h.cart, h.fault⟩, h.trig3, h.slot, h.selfTest⟩

/-- The GTIA is told of the cartridge. -/
theorem Stocked.signalled [Chips δ] (h : Stocked b) (slot : b.m_xl = false → b.m_basicOn = b.m_cart.isNone)
    (selfTest : b.m_selfTestOn = true → b.m_osOn = true) : Fitted b.cartChanged := by
  unfold AtariBus.cartChanged
  split
  next => exact ⟨⟨h.os, h.basic, h.cart, h.fault⟩, fun _ => rfl, slot, selfTest⟩
  next plain => exact ⟨h, fun xl => absurd xl plain, slot, selfTest⟩

theorem Stocked.banked [Chips δ] (h : Stocked b) : Fitted b.resetBanking.cartChanged := by
  refine h.resetBanking.signalled ?_ ?_
  · unfold AtariBus.resetBanking
    split
    next xl =>
      unfold AtariBus.setPortB
      rw [if_pos xl]
      intro plain
      exact absurd (xl.symm.trans plain) (by decide)
    next =>
      have some_ : b.m_basic.isEmpty = false :=
        List.isEmpty_eq_false_iff.mpr fun none_ => absurd (none_ ▸ h.basic : [].length = 8192) (by decide)
      intro _
      dsimp only
      rw [some_, Bool.not_false, Bool.true_and]
  · unfold AtariBus.resetBanking
    split
    next xl =>
      unfold AtariBus.setPortB
      rw [if_pos xl]
      exact fun _ => rfl
    next => exact fun _ => rfl

/-- An access to $D5xx. -/
theorem Fitted.switch [Chips δ] (h : Fitted b) {c c' : Cartridge} (inserted : b.m_cart = some c)
    (fits : within c'.m_type c'.m_state = true) : Fitted (AtariBus.cartChanged { b with m_cart := some c' }) := by
  refine (h.toStocked.insert ?_).signalled (fun plain => ?_) h.selfTest
  · rintro c'' ⟨⟩
    exact fits
  · exact (h.slot plain).trans (by rw [inserted]; rfl)

theorem Fitted.rom (h : Fitted b) {image : List Byte} {i : ℕ} (inside : i < image.length) :
    Fitted (b.rom image i).2 := by
  have fine : (b.fault || decide (image.length ≤ i)) = false := by
    rw [h.fault, Bool.false_or]
    exact decide_eq_false (by omega)
  exact ⟨⟨h.os, h.basic, h.cart, fine⟩, h.trig3, h.slot, h.selfTest⟩

theorem Fitted.memory (h : Fitted b) (addr : BitVec 16) : Fitted (b.memory addr).2 := by
  have os := h.os
  have basic := h.basic
  unfold AtariBus.memory
  simp only [Bool.and_eq_true, Bool.or_eq_true, decide_eq_true_eq]
  split
  next xl =>
    rw [if_pos xl] at os
    split
    next => exact h.rom (by rw [os]; bv_omega)
    split
    next => exact h.rom (by rw [os]; bv_omega)
    split
    next => exact h.rom (by rw [basic]; bv_omega)
    next => exact h
  next plain =>
    rw [if_neg plain] at os
    split
    next => exact h.rom (by rw [os]; bv_omega)
    split
    next => exact h
    split
    next => exact h.rom (by rw [basic]; bv_omega)
    next => exact h

variable [Chips δ]

theorem Fitted.read (h : Fitted b) (addr : BitVec 16) (peek : Bool) : Fitted (b.read addr peek).2 := by
  unfold AtariBus.read
  split
  next =>
    split
    next => exact h
    next cart inserted =>
      split
      next => exact h
      next => exact h.switch inserted (switched_within (h.cart cart inserted) _)
  next =>
    split
    next => exact h
    next =>
      split
      next =>
        split
        next => exact h
        next =>
          split
          next => exact h
          next => exact h.move _
      next => exact h.memory addr

theorem Fitted.write (h : Fitted b) (addr : BitVec 32) (val : Byte) : Fitted (IBus.write8 b addr val) := by
  change Fitted (ite _ _ _)
  split
  next =>
    split
    next => exact h
    next cart inserted => exact h.switch inserted (written_within (h.cart cart inserted) _ val)
  next =>
    split
    next =>
      split
      next => exact h
      next => exact (h.move _).ports _
    next =>
      split
      next => exact ⟨⟨h.os, h.basic, h.cart, h.fault⟩, h.trig3, h.slot, h.selfTest⟩
      next => exact h

theorem Stocked.resetBus (h : Stocked b) : Fitted (resetBus b) := by
  have chips : Stocked { b with chips := (Chips.reset b.chips).1, trig3 := false } := ⟨h.os, h.basic, h.cart, h.fault⟩
  refine (((chips.ports _).insert ?_).setPortB 0xFF).banked
  intro c mem
  obtain ⟨cart, -, rfl⟩ := Option.map_eq_some_iff.mp mem
  exact reset_within cart

end Bus

/-! ## Runs -/

section Machines
variable {δ : Type} [Chips δ]

/-- An access keeps what holds of the bus. -/
def KeepsFitted (b b' : AtariBus δ) : Prop := Fitted b → Fitted b'

instance : Cpu6502.Closed (KeepsFitted (δ := δ)) where
  refl _ := id
  trans _ _ _ first second h := second (first h)
  read8 _ addr h := h.read (addr.setWidth 16) false
  write8 _ addr val h := h.write addr val

/-- What a session does with a machine: the processor steps, something else uses the bus, the chips go
on in any way, with the lines they drive, and cartridges are changed. -/
inductive Event (δ : Type) where
  | step
  | read (addr : BitVec 32)
  | write (addr : BitVec 32) (val : Byte)
  | chips (d : δ) (nmi irq : Bool)
  | insert (image : List Byte)
  | remove
  | reset

def next (m : Machine δ) : Event δ → Machine δ
  | .step => (Cpu6502.step wiring m).2
  | .read addr => { m with bus := (IBus.read8 m.bus addr).2 }
  | .write addr val => { m with bus := IBus.write8 m.bus addr val }
  | .chips d nmi irq =>
    { m with bus := { m.bus with chips := d }, state := { m.state with nmiLine := nmi, irqLine := irq } }
  | .insert image => (insertCartridge m image).toOption.getD m
  | .remove => removeCartridge m
  | .reset => onReset m

theorem onReset_fitted {m : Machine δ} (h : Stocked m.bus) : Fitted (onReset m).bus :=
  (h.resetBus.read 0xFFFC false).read 0xFFFD false

omit [Chips δ] in
theorem setCartridge_stocked {b : AtariBus δ} (h : Stocked b) {slot : Option Cartridge}
    (fits : ∀ c ∈ slot, within c.m_type c.m_state = true) : Stocked (b.setCartridge slot) :=
  (h.insert fits).resetBanking

theorem step_fitted {m : Machine δ} (h : Fitted m.bus) : Fitted (Cpu6502.step wiring m).2.bus := by
  cases asleep : m.state.asleep with
  | true =>
    rw [Cpu6502.step_asleep wiring asleep]
    exact h
  | false =>
    exact (Cpu6502.step_nmiLine (r := KeepsFitted) rfl rfl (fun f mem => by cases mem) asleep).2.2 h

theorem next_fitted {m : Machine δ} (h : Fitted m.bus) (e : Event δ) : Fitted (next m e).bus := by
  cases e with
  | step => exact step_fitted h
  | read addr => exact h.read _ false
  | write addr val => exact h.write addr val
  | chips d nmi irq => exact h.move d
  | insert image =>
    change Fitted ((insertCartridge m image).toOption.getD m).bus
    unfold insertCartridge
    cases loaded : Cartridge.load image with
    | error refusal => exact h
    | ok cart =>
      have fits : ∀ c ∈ some cart, within c.m_type c.m_state = true := by
        rintro c ⟨⟩
        exact load_within loaded
      exact onReset_fitted (m := { m with bus := m.bus.setCartridge (some cart) })
        (setCartridge_stocked h.toStocked fits)
  | remove => exact onReset_fitted (setCartridge_stocked h.toStocked fun c mem => by cases mem)
  | reset => exact onReset_fitted h.toStocked

theorem createMachine_fitted {xl : Bool} {os basic : List Byte} {d : δ} {m : Machine δ}
    (made : createMachine xl os basic d = some m) : Fitted m.bus := by
  obtain ⟨sizes, made⟩ := Option.ite_none_right_eq_some.mp made
  obtain rfl := Option.some.inj made
  exact onReset_fitted (Stocked.resetBanking ⟨sizes.1, sizes.2, fun c mem => (by cases mem), rfl⟩)

theorem run_fitted {m : Machine δ} (h : Fitted m.bus) (events : List (Event δ)) :
    Fitted (events.foldl next m).bus := by
  induction events generalizing m with
  | nil => exact h
  | cons e rest ih => exact ih (next_fitted h e)

/-- In every state that a session reaches, no ROM has been read outside of its image, the GTIA is told
whether the cartridge has $A000, BASIC is on in an 800 exactly if no cartridge is in, the self-test is
on only with the OS, and an enabled window shows the image, or the two-chip types' bank without a chip. -/
theorem session_windows {xl : Bool} {os basic : List Byte} {d : δ} {m : Machine δ}
    (made : createMachine xl os basic d = some m) (events : List (Event δ)) :
    let b := (events.foldl next m).bus
    b.fault = false ∧ (b.m_xl = true → b.trig3 = !b.m_cart.any Cartridge.rd5) ∧
      (b.m_xl = false → b.m_basicOn = b.m_cart.isNone) ∧ (b.m_selfTestOn = true → b.m_osOn = true) ∧
      ∀ c ∈ b.m_cart, ∀ addr, AtariBus.selects c addr = true → Inside c addr ∨ NoChip c addr := by
  have fitted := run_fitted (createMachine_fitted made) events
  refine ⟨fitted.fault, fitted.trig3, fitted.slot, fitted.selfTest, fun c mem addr selected => ?_⟩
  simp only [AtariBus.selects, Bool.and_eq_true, decide_eq_true_eq] at selected
  obtain ⟨⟨above, below⟩, enabled⟩ := selected
  split at enabled
  next low => exact .inl (low_inside (fitted.cart c mem) above low enabled)
  next high => exact high_inside (fitted.cart c mem) (by bv_omega) below enabled

/-- Chips that are a port B at every address. -/
instance : Chips Unit where
  ioRead _ _ _ := (0xFF, ())
  ioPeek _ _ _ := 0xFF
  ioWrite _ _ _ v := ((), [v])
  reset _ := ((), [])
  setTrigger _ _ := ()

theorem session_windows_xl : ∃ m, createMachine true (.replicate 16384 0) (.replicate 8192 0) () = some m ∧
    ([Event.insert (.replicate 8192 0), .step].foldl next m).bus.fault = false :=
  ⟨_, if_pos ⟨List.length_replicate, List.length_replicate⟩,
    (session_windows (if_pos ⟨List.length_replicate, List.length_replicate⟩) _).1⟩

/-! ## The RAM behind the windows -/

/-- The address shows RAM. -/
def showsRam (b : AtariBus δ) (addr : BitVec 16) : Bool := !(0xD000 ≤ addr && addr < 0xD800) && b.writable addr

theorem read_shown {b : AtariBus δ} {addr : BitVec 16} (shown : showsRam b addr = true) (peek : Bool) :
    (b.read addr peek).1 = b.m_ram addr := by
  simp only [showsRam, Bool.and_eq_true, Bool.not_eq_true', Bool.and_eq_false_iff, decide_eq_false_iff_not] at shown
  obtain ⟨outside, writable⟩ := shown
  have apart : ¬ (0xD500 ≤ addr && addr < 0xD600) = true := by
    simp only [Bool.and_eq_true, decide_eq_true_eq]
    bv_omega
  have memory_ : ¬ (0xD000 ≤ addr && addr < 0xD800) = true := by
    simp only [Bool.and_eq_true, decide_eq_true_eq]
    bv_omega
  unfold AtariBus.writable at writable
  split at writable
  · cases writable
  next free =>
    have none_ : b.m_cart.filter (AtariBus.selects · addr) = none := by
      rw [Option.filter_eq_none_iff]
      intro c mem selects
      exact free ((Option.any_eq_true _ _).mpr ⟨c, mem, selects⟩)
    unfold AtariBus.read
    rw [if_neg apart, none_]
    dsimp only
    rw [if_neg memory_]
    unfold AtariBus.memory
    cases xl : b.m_xl with
    | true =>
      rw [xl, if_pos rfl] at writable
      split at writable
      · cases writable
      next os =>
        split at writable
        · cases writable
        next basic =>
          rw [if_pos rfl, if_neg os, if_neg (ne_true_of_eq_false ((Bool.not_eq_true' _).mp writable)), if_neg basic]
    | false =>
      rw [xl, if_neg Bool.false_ne_true] at writable
      split at writable
      · cases writable
      next low =>
        rw [if_neg Bool.false_ne_true, if_neg (by bv_omega), if_neg low,
          if_neg (ne_true_of_eq_false ((Bool.not_eq_true' _).mp writable))]

omit [Chips δ] in
theorem setPortB_ram (b : AtariBus δ) (v : Byte) : (b.setPortB v).m_ram = b.m_ram := by
  unfold AtariBus.setPortB
  split <;> rfl

omit [Chips δ] in
theorem ports_ram (levels : List Byte) (b : AtariBus δ) : (levels.foldl AtariBus.setPortB b).m_ram = b.m_ram := by
  induction levels generalizing b with
  | nil => rfl
  | cons v rest ih => rw [List.foldl_cons, ih, setPortB_ram]

theorem banked_ram (b : AtariBus δ) : b.resetBanking.m_ram = b.m_ram ∧ b.cartChanged.m_ram = b.m_ram := by
  unfold AtariBus.resetBanking AtariBus.cartChanged
  exact ⟨by split <;> [exact setPortB_ram b 0xFF; rfl], by split <;> rfl⟩

theorem read_ram (b : AtariBus δ) (addr : BitVec 16) (peek : Bool) : (b.read addr peek).2.m_ram = b.m_ram := by
  unfold AtariBus.read AtariBus.cartChanged AtariBus.memory
  repeat' split
  all_goals rfl

theorem onReset_ram (m : Machine δ) : (onReset m).bus.m_ram = m.bus.m_ram := by
  change (((resetBus m.bus).read 0xFFFC false).2.read 0xFFFD false).2.m_ram = _
  rw [read_ram, read_ram]
  unfold resetBus
  rw [(banked_ram _).2, (banked_ram _).1, setPortB_ram]
  exact ports_ram _ _

theorem write_ram (b : AtariBus δ) (addr : BitVec 32) (val : Byte) :
    (IBus.write8 b addr val).m_ram =
      if showsRam b (addr.setWidth 16) then Function.update b.m_ram (addr.setWidth 16) val else b.m_ram := by
  have hidden (io : (0xD000 ≤ addr.setWidth 16 && addr.setWidth 16 < 0xD800) = true) :
      showsRam b (addr.setWidth 16) = false := by
    unfold showsRam
    rw [io]
    rfl
  dsimp only [IBus.write8]
  split
  next control =>
    rw [hidden (by simp only [Bool.and_eq_true, decide_eq_true_eq] at control ⊢; bv_omega)]
    split
    · rfl
    · exact (banked_ram _).2
  next =>
    split
    next io =>
      rw [hidden io]
      split
      · rfl
      · exact ports_ram _ _
    next memory =>
      have same : showsRam b (addr.setWidth 16) = b.writable (addr.setWidth 16) := by
        unfold showsRam
        rw [Bool.eq_false_iff.mpr memory]
        rfl
      rw [same]
      split <;> rfl

/-- Nothing is stored at the address: no step changes it, and it shows something else when it is written. -/
def Spares (addr : BitVec 16) (m : Machine δ) : Event δ → Prop
  | .step => (next m .step).bus.m_ram addr = m.bus.m_ram addr
  | .write a _ => a.setWidth 16 = addr → showsRam m.bus addr = false
  | _ => True

theorem next_ram {addr : BitVec 16} {m : Machine δ} {e : Event δ} (spares : Spares addr m e) :
    (next m e).bus.m_ram addr = m.bus.m_ram addr := by
  have slot (slot : Option Cartridge) : (onReset { m with bus := m.bus.setCartridge slot }).bus.m_ram = m.bus.m_ram :=
    (onReset_ram _).trans (banked_ram _).1
  cases e with
  | step => exact spares
  | read a => exact congrFun (read_ram m.bus _ false) addr
  | write a val =>
    change (IBus.write8 m.bus a val).m_ram addr = _
    rw [write_ram]
    split
    next shown =>
      refine Function.update_of_ne (fun same => ?_) ..
      rw [same] at spares
      exact absurd shown (ne_true_of_eq_false (spares rfl))
    next => rfl
  | chips d nmi irq => rfl
  | insert image =>
    change ((insertCartridge m image).toOption.getD m).bus.m_ram addr = _
    unfold insertCartridge
    cases Cartridge.load image with
    | error refusal => rfl
    | ok cart => exact congrFun (slot (some cart)) addr
  | remove => exact congrFun (slot none) addr
  | reset => exact congrFun (onReset_ram m) addr

/-- A byte that was written where RAM shows is read when RAM shows there again, whatever is mapped over it,
and written to that, in between. -/
theorem ram_reads_back (m : Machine δ) {addr : BitVec 32} (val : Byte)
    (shown : showsRam m.bus (addr.setWidth 16) = true) {events : List (Event δ)}
    (spared : Guarded next (Spares (addr.setWidth 16)) (next m (.write addr val)) events)
    (again : showsRam (events.foldl next (next m (.write addr val))).bus (addr.setWidth 16) = true) :
    (IBus.read8 (events.foldl next (next m (.write addr val))).bus addr).1 = val := by
  have stored : (next m (.write addr val)).bus.m_ram (addr.setWidth 16) = val := by
    change (IBus.write8 m.bus addr val).m_ram _ = _
    rw [write_ram, if_pos shown, Function.update_self]
  have kept := foldl_invariant next _ (fun m' : Machine δ => m'.bus.m_ram (addr.setWidth 16) = val)
    (fun _ _ same spares => (next_ram spares).trans same) _ events stored spared
  exact (read_shown again false).trans kept

/-- An XL with BASIC off, as a reset leaves it. -/
def bare : Machine Unit where
  state := default
  bus :=
    { m_xl := true, m_os := [], m_basic := [], m_ram := fun _ => 0, m_osOn := true, m_basicOn := false
      m_selfTestOn := false, m_cart := none, chips := (), trig3 := false, fault := false }
  cmos := false
  curOp := 0
  branchTarget := 0

/-- BASIC is switched on over a byte, written to and switched off. -/
theorem ram_reads_back_basic : (IBus.read8 ([Event.write 0xD301 0xFD, .write 0xA000 2, .write 0xD301 0xFF].foldl next
    (next bare (.write 0xA000 1))).bus 0xA000).1 = 1 :=
  ram_reads_back bare 1 (by decide) ⟨fun apart => absurd apart (by decide), fun _ => by decide,
    fun apart => absurd apart (by decide), trivial⟩ (by decide)

end Machines

end Mmemu.Guarantees.AtariCartridges
