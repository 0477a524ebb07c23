import Mathlib.Data.List.Basic
import Mmemu.Library.WordBytes
import Mmemu.Source.KernalHle

/-!
# LOAD and SAVE from the host: they return, and what was saved is loaded

A served call ends in RTS, for the CPU's own kind of stack, with carry set if it failed. The one exit
that does not is that of a file with no load address. What SAVE writes under a name is loaded under it
if LOAD finds the same file: SAVE takes a drive, a replace mark and a type off the name.
-/
namespace Mmemu.Guarantees.HostLoadSave
open Mmemu.Source.MemoryBus Mmemu.Source.KernalHle

/-! ## The stack -/

/-- Where the byte lies that is pulled as the `n`th. -/
def slot (n : BitVec 8) : Cpu → BitVec 16
  | .mos6502 s => 0x01#8 ++ (s.sp + n)
  | .mos45gs02 s =>
    if s.p.getLsbD 5 then s.sp.extractLsb' 8 8 ++ (s.sp.setWidth 8 + n) else s.sp + n.setWidth 16

/-- The stack pointer after two pulls. -/
def twoHigher : Cpu → BitVec 32
  | .mos6502 s => (s.sp + 2).setWidth 32
  | .mos45gs02 s => (slot 2 (.mos45gs02 s)).setWidth 32

theorem and_low (x : BitVec 32) : (x &&& 0xFF).toNat = x.toNat % 256 := by
  rw [BitVec.toNat_and]
  exact Nat.and_two_pow_sub_one_eq_mod x.toNat 8

theorem and_word (x : BitVec 32) : (x &&& 0xFFFF).toNat = x.toNat % 65536 := by
  rw [BitVec.toNat_and]
  exact Nat.and_two_pow_sub_one_eq_mod x.toNat 16

theorem low_byte (x : BitVec 32) : (x &&& 0xFF).setWidth 16 = (x.setWidth 8).setWidth 16 := by
  refine BitVec.eq_of_toNat_eq ?_
  rw [BitVec.toNat_setWidth, and_low, BitVec.toNat_setWidth, BitVec.toNat_setWidth]

/-- A byte below a page. -/
theorem page_or (page low : BitVec 8) : (page ++ 0#8) ||| low.setWidth 16 = page ++ low := by
  ext i bound
  rw [BitVec.getElem_or, BitVec.getElem_append, BitVec.getElem_append, BitVec.getElem_setWidth]
  split
  · rename_i inside
    simp [BitVec.getLsbD_eq_getElem inside]
  · rename_i above
    rw [BitVec.getLsbD_of_ge low i (Nat.not_lt.mp above), Bool.or_false]

theorem page_of (sp : BitVec 16) :
    (sp.setWidth 32 &&& 0xFF00).setWidth 16 = sp.extractLsb' 8 8 ++ 0#8 := by
  have mask : ((0xFF00 : BitVec 32).setWidth 16) = 0xFF#8 ++ 0#8 := by decide
  rw [BitVec.setWidth_and, mask, BitVec.setWidth_setWidth_of_le _ (by decide), BitVec.setWidth_eq]
  ext i bound
  rw [BitVec.getElem_and, BitVec.getElem_append, BitVec.getElem_append]
  split
  · simp
  · rename_i above
    have ones : ∀ j, (inside : j < 8) → (0xFF#8)[j] = true := by decide
    rw [ones (i - 8) (by omega), Bool.and_true, BitVec.getElem_extractLsb', Nat.add_sub_of_le (by omega),
      BitVec.getLsbD_eq_getElem bound]

/-- An address of the stack, as the intercept computes it within a page. -/
theorem narrow_add (x : BitVec 8) (n : BitVec 32) :
    ((x.setWidth 32 + n) &&& 0xFF).setWidth 16 = (x + n.setWidth 8).setWidth 16 := by
  rw [low_byte, BitVec.setWidth_add _ _ (by decide), BitVec.setWidth_setWidth_of_le _ (by decide),
    BitVec.setWidth_eq]

theorem low_add (sp : BitVec 16) (n : BitVec 32) :
    ((sp.setWidth 32 + n) &&& 0xFF).setWidth 16 = (sp.setWidth 8 + n.setWidth 8).setWidth 16 := by
  rw [low_byte, BitVec.setWidth_add _ _ (by decide), BitVec.setWidth_setWidth_of_le _ (by decide)]

theorem wide_add (sp : BitVec 16) (n : BitVec 32) :
    ((sp.setWidth 32 + n) &&& 0xFFFF).setWidth 16 = sp + n.setWidth 16 := by
  have mask : ((0xFFFF : BitVec 32).setWidth 16) = BitVec.allOnes 16 := by decide
  rw [BitVec.setWidth_and, mask, BitVec.and_allOnes, BitVec.setWidth_add _ _ (by decide),
    BitVec.setWidth_setWidth_of_le _ (by decide), BitVec.setWidth_eq]

theorem pulls_eq (cpu : Cpu) : pulls cpu = (slot 1 cpu, slot 2 cpu, twoHigher cpu) := by
  cases cpu with
  | mos6502 s =>
    have at_ (n : BitVec 32) :
        0x0100 ||| ((s.sp.setWidth 32 + n) &&& 0xFF).setWidth 16 = 0x01#8 ++ (s.sp + n.setWidth 8) := by
      rw [narrow_add]
      exact page_or 0x01#8 (s.sp + n.setWidth 8)
    have low : (s.sp.setWidth 32 + 2) &&& 0xFF = (s.sp + 2).setWidth 32 := by
      refine BitVec.eq_of_toNat_eq ?_
      rw [and_low, BitVec.toNat_add, BitVec.toNat_setWidth, BitVec.toNat_setWidth, BitVec.toNat_add]
      have small := s.sp.isLt
      change (s.sp.toNat % 4294967296 + 2) % 4294967296 % 256 = (s.sp.toNat + 2) % 256 % 4294967296
      omega
    exact Prod.ext (at_ 1) (Prod.ext (at_ 2) low)
  | mos45gs02 s =>
    have flag : (s.p.setWidth 32 &&& 0x20 ≠ 0) ↔ s.p.getLsbD 5 = true := by
      have bit : (0x20 : BitVec 32) = BitVec.twoPow 32 5 := by decide
      rw [bit, BitVec.and_twoPow, BitVec.getLsbD_setWidth]
      cases s.p.getLsbD 5 <;> decide
    have inPage (n : BitVec 32) :
        (s.sp.setWidth 32 &&& 0xFF00).setWidth 16 ||| ((s.sp.setWidth 32 + n) &&& 0xFF).setWidth 16 =
          s.sp.extractLsb' 8 8 ++ (s.sp.setWidth 8 + n.setWidth 8) := by
      rw [page_of, low_add]
      exact page_or _ _
    have wide : (s.sp.setWidth 32 + 2) &&& 0xFFFF = (s.sp + 2).setWidth 32 := by
      refine BitVec.eq_of_toNat_eq ?_
      rw [and_word, BitVec.toNat_add, BitVec.toNat_setWidth, BitVec.toNat_setWidth, BitVec.toNat_add]
      have small := s.sp.isLt
      change (s.sp.toNat % 4294967296 + 2) % 4294967296 % 65536 = (s.sp.toNat + 2) % 65536 % 4294967296
      omega
    by_cases narrow : s.p.getLsbD 5 = true
    · have at_ (n : BitVec 8) : slot n (.mos45gs02 s) = s.sp.extractLsb' 8 8 ++ (s.sp.setWidth 8 + n) :=
        if_pos narrow
      have first : pulls (.mos45gs02 s) = _ := if_pos (flag.mpr narrow)
      rw [first, twoHigher, at_, at_]
      exact Prod.ext (inPage 1) (Prod.ext (inPage 2) (congrArg (BitVec.setWidth 32) (inPage 2)))
    · have at_ (n : BitVec 8) : slot n (.mos45gs02 s) = s.sp + n.setWidth 16 := if_neg narrow
      have first : pulls (.mos45gs02 s) = _ := if_neg fun set_ => narrow (flag.mp set_)
      rw [first, twoHigher, at_, at_]
      exact Prod.ext (wide_add s.sp 1) (Prod.ext (wide_add s.sp 2) wide)

/-! ## Plain memory -/

/-- Addresses of a bus that are memory: a read has no effect on them, and a write only on its own. -/
structure Plain (ω : Type) [IBus ω] where
  holds : BitVec 16 → Prop
  ram : ω → BitVec 16 → Byte
  read : ∀ b a, holds a → (IBus.read8 b (a.setWidth 32)).1 = ram b a
  read_keeps : ∀ b addr a, holds a → ram (IBus.read8 b addr).2 a = ram b a
  write : ∀ b addr v a, holds a → addr.setWidth 16 = a → ram (IBus.write8 b addr v) a = v
  write_keeps : ∀ b addr v a, holds a → addr.setWidth 16 ≠ a → ram (IBus.write8 b addr v) a = ram b a

variable {ω : Type} [IBus ω]

/-- The plain memory is as it was, but for some addresses. -/
def Kept (mem : Plain ω) (stored : BitVec 16 → Prop) (b b' : ω) : Prop :=
  ∀ a, mem.holds a → ¬ stored a → mem.ram b' a = mem.ram b a

theorem Kept.trans {mem : Plain ω} {stored : BitVec 16 → Prop} {b b' b'' : ω} (h : Kept mem stored b b')
    (h' : Kept mem stored b' b'') : Kept mem stored b b'' :=
  fun a held other => (h' a held other).trans (h a held other)

theorem Kept.mono {mem : Plain ω} {stored stored' : BitVec 16 → Prop} {b b' : ω} (h : Kept mem stored b b')
    (more : ∀ a, stored a → stored' a) : Kept mem stored' b b' :=
  fun a held other => h a held fun was => other (more a was)

/-- A computation that only looks: it leaves the CPU, the files and all plain memory as they are. -/
def Looks {α : Type} (x : Exec ω α) : Prop :=
  ∀ w, (x w).2.cpu = w.cpu ∧ (x w).2.files = w.files ∧ ∀ mem, Kept mem (fun _ => False) w.bus (x w).2.bus

namespace Looks
variable {α β : Type}

theorem pure (a : α) : Looks (Pure.pure a : Exec ω α) := fun _ => ⟨rfl, rfl, fun _ _ _ _ => rfl⟩

theorem bind {x : Exec ω α} {f : α → Exec ω β} (first : Looks x) (next : ∀ a, Looks (f a)) :
    Looks (x >>= f) := by
  intro w
  obtain ⟨cpu, files, kept⟩ := first w
  obtain ⟨cpu', files', kept'⟩ := next (x w).1 (x w).2
  exact ⟨cpu'.trans cpu, files'.trans files, fun mem => (kept mem).trans (kept' mem)⟩

theorem get_bind {f : World ω → Exec ω β} (next : ∀ w, Looks (f w)) : Looks (get >>= f) := fun w => next w w

theorem busRead (addr : BitVec 32) : Looks (busRead addr : Exec ω Byte) :=
  fun w => ⟨rfl, rfl, fun mem a held _ => mem.read_keeps w.bus addr a held⟩

theorem mapM {f : ℕ → Exec ω β} (each : ∀ i, Looks (f i)) (is : List ℕ) : Looks (is.mapM f) := by
  induction is with
  | nil =>
    rw [List.mapM_nil]
    exact pure []
  | cons i is ih =>
    rw [List.mapM_cons]
    exact (each i).bind fun _ => ih.bind fun _ => pure _

theorem ramByte (h : KernalHLE ω) (addr : BitVec 16) : Looks (h.ramByte addr) := by
  unfold KernalHLE.ramByte
  split
  · exact get_bind fun _ => pure _
  · exact busRead _

theorem ramBytes (h : KernalHLE ω) (from_ : BitVec 16) (n : ℕ) : Looks (h.ramBytes from_ n) :=
  mapM (fun _ => ramByte h _) _

theorem getFilename (h : KernalHLE ω) : Looks h.getFilename :=
  (busRead _).bind fun _ => (busRead _).bind fun _ => (busRead _).bind fun _ => ramBytes h _ _

end Looks

/-! ## Registers -/

/-- The registers that the stack is found by are the same. -/
def SameStack (cpu cpu' : Cpu) : Prop := (∀ n, slot n cpu' = slot n cpu) ∧ twoHigher cpu' = twoHigher cpu

theorem SameStack.trans {cpu cpu' cpu'' : Cpu} (h : SameStack cpu cpu') (h' : SameStack cpu' cpu'') :
    SameStack cpu cpu'' := ⟨fun n => (h'.1 n).trans (h.1 n), h'.2.trans h.2⟩

theorem sameStack_regWrite (cpu : Cpu) (val : BitVec 32) {r : Reg} (other : r = .A ∨ r = .X ∨ r = .Y) :
    SameStack cpu (cpu.regWrite val r) := by
  rcases other with rfl | rfl | rfl <;> cases cpu <;> exact ⟨fun _ => rfl, rfl⟩

/-- A register written keeps the others. -/
theorem regRead_regWrite_of_ne (cpu : Cpu) (val : BitVec 32) {r r' : Reg} (other : r' ≠ r) :
    (cpu.regWrite val r).regRead r' = cpu.regRead r' := by
  cases cpu <;> cases r <;> cases r' <;> first | rfl | exact absurd rfl other

/-- A CPU with its carry set or clear. -/
def withCarry (set : Bool) (cpu : Cpu) : Cpu :=
  let p : Byte := (cpu.regRead .P).setWidth 8
  cpu.regWrite ((if set then p ||| 0x01 else p &&& ~~~0x01).setWidth 32) .P

def carry (cpu : Cpu) : Bool := (cpu.regRead .P).getLsbD 0

theorem carry_bit (set : Bool) (p : Byte) : (if set then p ||| 0x01 else p &&& ~~~0x01).getLsbD 0 = set := by
  cases set <;> simp

theorem carry_page (set : Bool) (p : Byte) :
    (if set then p ||| 0x01 else p &&& ~~~0x01).getLsbD 5 = p.getLsbD 5 := by
  cases set <;> simp

theorem carry_withCarry (set : Bool) (cpu : Cpu) : carry (withCarry set cpu) = set := by
  have bit (x : Byte) : (((x.setWidth 32).setWidth 8 : Byte).setWidth 32 : BitVec 32).getLsbD 0 = x.getLsbD 0 := by
    simp
  cases cpu with
  | mos6502 s => exact (bit _).trans (carry_bit set _)
  | mos45gs02 s => exact (bit _).trans (carry_bit set _)

theorem sameStack_withCarry (set : Bool) (cpu : Cpu) : SameStack cpu (withCarry set cpu) := by
  cases cpu with
  | mos6502 s => exact ⟨fun _ => rfl, rfl⟩
  | mos45gs02 s =>
    -- only bit 5 of P counts for the stack
    have page : ((((if set then (s.p.setWidth 32).setWidth 8 ||| 0x01
        else (s.p.setWidth 32).setWidth 8 &&& ~~~0x01 : Byte)).setWidth 32).setWidth 8 : Byte).getLsbD 5 =
          s.p.getLsbD 5 := by
      rw [BitVec.setWidth_setWidth_of_le _ (by decide), BitVec.setWidth_eq, carry_page]
      simp
    have slots (n : BitVec 8) : slot n (withCarry set (.mos45gs02 s)) = slot n (.mos45gs02 s) := by
      simp only [slot, withCarry, Cpu.regWrite, Cpu.regRead, page]
    exact ⟨slots, congrArg (BitVec.setWidth 32) (slots 2)⟩

/-! ## The return -/

/-- A world in which the call of another has done its work: RTS finds the same stack. -/
structure Ready (stored : BitVec 16 → Prop) (w w' : World ω) : Prop where
  stack : SameStack w.cpu w'.cpu
  kept : ∀ mem, Kept mem stored w.bus w'.bus

theorem Ready.trans {stored : BitVec 16 → Prop} {w w' w'' : World ω} (h : Ready stored w w')
    (h' : Ready stored w' w'') : Ready stored w w'' :=
  ⟨h.stack.trans h'.stack, fun mem => (h.kept mem).trans (h'.kept mem)⟩

theorem Ready.of_same {w w' : World ω} (same : w'.cpu = w.cpu)
    (kept : ∀ mem, Kept mem (fun _ => False) w.bus w'.bus) (stored : BitVec 16 → Prop) : Ready stored w w' := by
  refine ⟨?_, fun mem => (kept mem).mono fun _ no => no.elim⟩
  rw [same]
  exact ⟨fun _ => rfl, rfl⟩

theorem Looks.ready {α : Type} {x : Exec ω α} (h : Looks x) (stored : BitVec 16 → Prop) (w : World ω) :
    Ready stored w (x w).2 := Ready.of_same (h w).1 (h w).2.2 stored

/-- The word that RTS pulls from plain memory. -/
def pulled (mem : Plain ω) (cpu : Cpu) (b : ω) : BitVec 16 := mem.ram b (slot 2 cpu) ++ mem.ram b (slot 1 cpu)

/-- A call that has returned: RTS is done on the caller's stack, the carry says whether it failed, and
plain memory is as it was but for what the call stores. -/
structure Returned (failed : Bool) (stored : BitVec 16 → Prop) (w w' : World ω) : Prop where
  sp : w'.cpu.regRead .SP = twoHigher w.cpu
  pc : ∀ mem : Plain ω, mem.holds (slot 1 w.cpu) → mem.holds (slot 2 w.cpu) →
    w'.cpu.pc = pulled mem w.cpu w'.bus + 1
  carry : carry w'.cpu = failed
  kept : ∀ mem, Kept mem stored w.bus w'.bus

theorem regRead_setPc (cpu : Cpu) (addr : BitVec 16) (r : Reg) : (cpu.setPc addr).regRead r = cpu.regRead r := by
  cases cpu <;> cases r <;> rfl

theorem pc_setPc (cpu : Cpu) (addr : BitVec 16) : (cpu.setPc addr).pc = addr := by
  cases cpu <;> rfl

/-- The stack pointer takes what RTS gives it. -/
theorem regWrite_twoHigher (cpu : Cpu) : (cpu.regWrite (twoHigher cpu) .SP).regRead .SP = twoHigher cpu := by
  have back (n : ℕ) (sp : BitVec n) (room : n ≤ 32) : (sp.setWidth 32).setWidth n = sp := by
    rw [BitVec.setWidth_setWidth_of_le _ room, BitVec.setWidth_eq]
  cases cpu with
  | mos6502 s => exact congrArg (BitVec.setWidth 32) (back 8 _ (by decide))
  | mos45gs02 s => exact congrArg (BitVec.setWidth 32) (back 16 _ (by decide))

theorem twoHigher_low (cpu : Cpu) : (twoHigher cpu).setWidth 8 = (cpu.regRead .SP).setWidth 8 + 2 := by
  have back (n : ℕ) (sp : BitVec n) (room : n ≤ 32) : (sp.setWidth 32).setWidth 8 = sp.setWidth 8 :=
    BitVec.setWidth_setWidth_of_le sp (by omega)
  cases cpu with
  | mos6502 s =>
    change ((s.sp + 2).setWidth 32).setWidth 8 = (s.sp.setWidth 32).setWidth 8 + 2
    rw [back 8 _ (by decide), back 8 _ (by decide), BitVec.setWidth_eq, BitVec.setWidth_eq]
  | mos45gs02 s =>
    change ((slot 2 (.mos45gs02 s)).setWidth 32).setWidth 8 = (s.sp.setWidth 32).setWidth 8 + 2
    rw [back 16 _ (by decide), back 16 _ (by decide)]
    by_cases narrow : s.p.getLsbD 5 = true
    · have at_ : slot 2 (.mos45gs02 s) = s.sp.extractLsb' 8 8 ++ (s.sp.setWidth 8 + 2) := if_pos narrow
      rw [at_, BitVec.setWidth_append_eq_right]
    · have at_ : slot 2 (.mos45gs02 s) = s.sp + 2 := if_neg narrow
      rw [at_, BitVec.setWidth_add _ _ (by decide)]
      rfl

/-- Two pulls move the stack pointer. -/
theorem twoHigher_ne (cpu : Cpu) : cpu.regRead .SP ≠ twoHigher cpu := by
  intro same
  have low := twoHigher_low cpu
  rw [← same] at low
  have nat := congrArg BitVec.toNat low
  rw [BitVec.toNat_add] at nat
  have two : (2 : BitVec 8).toNat = 2 := rfl
  omega

theorem simulateRts_eq (w : World ω) :
    (simulateRts w).2 =
      let lo := IBus.read8 w.bus ((slot 1 w.cpu).setWidth 32)
      let hi := IBus.read8 lo.2 ((slot 2 w.cpu).setWidth 32)
      { w with
        cpu := (w.cpu.regWrite (twoHigher w.cpu) .SP).setPc (hi.1 ++ lo.1 + 1)
        bus := hi.2 } := by
  have unfolds : (simulateRts w).2 =
      let stack := pulls w.cpu
      let lo := IBus.read8 w.bus (stack.1.setWidth 32)
      let hi := IBus.read8 lo.2 (stack.2.1.setWidth 32)
      { w with cpu := (w.cpu.regWrite stack.2.2 .SP).setPc (hi.1 ++ lo.1 + 1), bus := hi.2 } := rfl
  rw [unfolds, pulls_eq]

/-- RTS from a world that is ready. -/
theorem Ready.returns {stored : BitVec 16 → Prop} {w w' : World ω} (h : Ready stored w w') {failed : Bool}
    (flag : carry w'.cpu = failed) : Returned failed stored w (simulateRts w').2 := by
  rw [simulateRts_eq]
  obtain ⟨slots, sp⟩ := h.stack
  refine ⟨?_, fun mem low high => ?_, ?_, fun mem => ?_⟩
  · rw [regRead_setPc, regWrite_twoHigher, sp]
  · dsimp only
    rw [pc_setPc, slots, slots, mem.read _ _ low, mem.read _ _ high, mem.read_keeps _ _ _ high, pulled,
      mem.read_keeps _ _ _ low, mem.read_keeps _ _ _ high, mem.read_keeps _ _ _ low, mem.read_keeps _ _ _ high]
  · rw [carry, regRead_setPc, regRead_regWrite_of_ne _ _ (by decide)]
    exact flag
  · refine (h.kept mem).trans fun a held _ => ?_
    rw [mem.read_keeps _ _ _ held, mem.read_keeps _ _ _ held]

/-! ## What is written -/

theorem Ready.refl (stored : BitVec 16 → Prop) (w : World ω) : Ready stored w w :=
  ⟨⟨fun _ => rfl, rfl⟩, fun _ _ _ _ => rfl⟩

theorem Ready.busWrite {stored : BitVec 16 → Prop} {w w' : World ω} (h : Ready stored w w') {addr : BitVec 32}
    (own : stored (addr.setWidth 16)) (val : Byte) : Ready stored w (busWrite addr val w').2 := by
  refine h.trans ⟨⟨fun _ => rfl, rfl⟩, fun mem a held other => mem.write_keeps _ _ _ _ held ?_⟩
  rintro rfl
  exact other own

theorem Ready.regWrite {stored : BitVec 16 → Prop} {w w' : World ω} (h : Ready stored w w') {r : Reg}
    (other : r = .A ∨ r = .X ∨ r = .Y) (val : BitVec 32) : Ready stored w (regWrite r val w').2 :=
  h.trans ⟨sameStack_regWrite w'.cpu val other, fun _ _ _ _ => rfl⟩

theorem Ready.setCarry {stored : BitVec 16 → Prop} {w w' : World ω} (h : Ready stored w w') (set : Bool) :
    Ready stored w (setCarry set w').2 :=
  h.trans ⟨sameStack_withCarry set w'.cpu, fun _ _ _ _ => rfl⟩

/-- The addresses that `n` bytes are injected at. -/
def injected (addr : BitVec 32) (n : ℕ) (a : BitVec 16) : Prop :=
  ∃ i < n, a = (addr + BitVec.ofNat 32 i).setWidth 16

theorem Ready.inject {stored : BitVec 16 → Prop} {w : World ω} (data : List Byte) :
    ∀ {w' : World ω} (addr : BitVec 32), Ready stored w w' → (∀ a, injected addr data.length a → stored a) →
      Ready stored w (KernalHLE.inject addr data w').2 := by
  induction data with
  | nil => exact fun _ h _ => h
  | cons b data ih =>
    intro w' addr h own
    refine ih (addr + 1) (h.busWrite (own _ ⟨0, Nat.succ_pos _, ?_⟩) b) fun a within => own a ?_
    · rw [BitVec.add_zero]
    · obtain ⟨i, inside, rfl⟩ := within
      refine ⟨i + 1, Nat.succ_lt_succ inside, ?_⟩
      rw [Nat.add_comm, BitVec.ofNat_add, ← BitVec.add_assoc]
      rfl

/-! ## LOAD returns -/

namespace Load
variable (h : KernalHLE ω)

/-- Where LOAD puts the first byte of the data. -/
def target (sa : Byte) (cpu : Cpu) (lo hi : Byte) : BitVec 32 :=
  if sa = 0 then cpu.regRead .X ||| cpu.regRead .Y <<< 8 else (hi ++ lo).setWidth 32

/-- LOAD fails on a file that does not open or has no load address. -/
def failed : Option (List Byte) → Bool
  | some (_ :: _ :: _) => false
  | _ => true

/-- What LOAD stores to: the status byte, and the bytes of a file that is loaded. -/
def stored (sa : Byte) (cpu : Cpu) : Option (List Byte) → BitVec 16 → Prop
  | some (lo :: hi :: data), a => a = h.m_zp.status ∨ injected (target sa cpu lo hi) data.length a
  | _, a => a = h.m_zp.status

/-- A file that opens and is too short to have a load address. -/
def Short (file : Option (List Byte)) : Prop := ∃ data, file = some data ∧ data.length < 2

omit [IBus ω] in
theorem status_own : ((h.m_zp.status.setWidth 32).setWidth 16 : BitVec 16) = h.m_zp.status := by
  rw [BitVec.setWidth_setWidth_of_le _ (by decide), BitVec.setWidth_eq]

/-- LOAD returns unless the file is short. -/
theorem loadFile_returns (sa : Byte) (file : Option (List Byte)) {stored' : BitVec 16 → Prop} {w w' : World ω}
    (before : Ready stored' w w') (more : ∀ a, stored h sa w'.cpu file a → stored' a) (long : ¬ Short file) :
    Returned (failed file) stored' w (h.loadFile sa file w').2 := by
  rcases file with _ | _ | ⟨lo, _ | ⟨hi, data⟩⟩
  · have ready := (before.busWrite (more _ (status_own h)) 4).setCarry true
    exact ready.returns (carry_withCarry true _)
  · exact absurd ⟨[], rfl, Nat.zero_lt_two⟩ long
  · exact absurd ⟨[lo], rfl, Nat.one_lt_two⟩ long
  · have bytes := before.inject data (target sa w'.cpu lo hi) fun a within => more a (.inr within)
    exact ((((bytes.regWrite (.inr (.inl rfl)) _).regWrite (.inr (.inr rfl)) _).setCarry false).busWrite
      (more _ (.inl (status_own h))) 0).returns (carry_withCarry false _)

/-- LOAD of a file that has data: the registers and the memory it leaves. -/
theorem loadFile_done (sa lo hi : Byte) (data : List Byte) (w : World ω) :
    let bytes := KernalHLE.inject (target sa w.cpu lo hi) data w
    let w' := (h.loadFile sa (some (lo :: hi :: data)) w).2
    w'.cpu.regRead .X = ((bytes.1 &&& 0xFF).setWidth 8).setWidth 32 ∧
      w'.cpu.regRead .Y = (((bytes.1 >>> 8) &&& 0xFF).setWidth 8).setWidth 32 ∧
      ∀ mem, Kept mem (· = h.m_zp.status) bytes.2.bus w'.bus := by
  intro bytes w'
  -- the return, the status and the carry come after X and Y
  have run : w' = (simulateRts (busWrite (h.m_zp.status.setWidth 32) 0 (setCarry false
      (regWrite .Y ((bytes.1 >>> 8) &&& 0xFF) (regWrite .X (bytes.1 &&& 0xFF) bytes.2).2).2).2).2).2 := rfl
  have regs (r : Reg) (other : r ≠ .SP) (other' : r ≠ .P) : w'.cpu.regRead r =
      ((bytes.2.cpu.regWrite (bytes.1 &&& 0xFF) .X).regWrite ((bytes.1 >>> 8) &&& 0xFF) .Y).regRead r := by
    rw [run, simulateRts_eq]
    dsimp only
    rw [regRead_setPc, regRead_regWrite_of_ne _ _ other]
    exact regRead_regWrite_of_ne _ _ other'
  refine ⟨?_, ?_, fun mem => ?_⟩
  · rw [regs .X (by decide) (by decide), regRead_regWrite_of_ne _ _ (by decide)]
    cases bytes.2.cpu <;> rfl
  · rw [regs .Y (by decide) (by decide)]
    cases bytes.2.cpu.regWrite (bytes.1 &&& 0xFF) .X <;> rfl
  · have stores := ((Ready.refl (· = h.m_zp.status) bytes.2).regWrite (.inr (.inl rfl)) (bytes.1 &&& 0xFF)).regWrite
      (.inr (.inr rfl)) ((bytes.1 >>> 8) &&& 0xFF)
    have ready := (stores.setCarry false).busWrite (status_own h) 0
    exact (ready.returns (carry_withCarry false _)).kept mem

/-- A short file leaves the stack pointer where it was. -/
theorem loadFile_short {sa : Byte} {file : Option (List Byte)} (short : Short file) (w : World ω) :
    ((h.loadFile sa file w).2.cpu).regRead .SP = w.cpu.regRead .SP := by
  obtain ⟨data, rfl, few⟩ := short
  rcases data with _ | ⟨lo, _ | ⟨hi, data⟩⟩
  · exact regRead_regWrite_of_ne _ _ (by decide)
  · exact regRead_regWrite_of_ne _ _ (by decide)
  · exact absurd few (by simp only [List.length_cons]; omega)

end Load

/-! ## SAVE returns -/

namespace Save
variable (h : KernalHLE ω)

/-- SAVE fails if the host does not take the file; it does not fail if the file is there and stays. -/
def failed (replace there : Bool) (taken : HostWrite) : Bool :=
  if there ∧ !replace then false else decide (taken ≠ .done)

/-- A failed SAVE returns. -/
theorem fail_returns {stored : BitVec 16 → Prop} {w w' : World ω} (before : Ready stored w w')
    (kernalError : BitVec 32) : Returned true stored w (KernalHLE.fail kernalError w').2 :=
  ((before.regWrite (.inl rfl) kernalError).setCarry true).returns (carry_withCarry true _)

theorem succeed_returns {stored : BitVec 16 → Prop} {w w' : World ω} (before : Ready stored w w')
    (own : stored h.m_zp.status) : Returned false stored w (h.succeed w').2 := by
  have status : stored ((h.m_zp.status.setWidth 32).setWidth 16) := (Load.status_own h).symm ▸ own
  exact ((before.busWrite status 0).setCarry false).returns (carry_withCarry false _)

theorem hostWrite_ready {stored : BitVec 16 → Prop} {w w' : World ω} (before : Ready stored w w')
    (taken : HostWrite) (path out : List Byte) :
    Ready stored w (KernalHLE.hostWrite taken path out w').2 ∧
      (KernalHLE.hostWrite taken path out w').1 = decide (taken = .done) := by
  cases taken with
  | refused => exact ⟨before, rfl⟩
  | full kept => exact ⟨⟨before.stack, before.kept⟩, rfl⟩
  | done => exact ⟨⟨before.stack, before.kept⟩, rfl⟩

/-- The end of what is saved. -/
def endOf (cpu : Cpu) : BitVec 16 := (cpu.regRead .X ||| cpu.regRead .Y <<< 8).setWidth 16

theorem endOf_bytes (cpu : Cpu) : ∃ x y : Byte,
    cpu.regRead .X = x.setWidth 32 ∧ cpu.regRead .Y = y.setWidth 32 ∧
      (endOf cpu).toNat = 2 ^ 8 * y.toNat + x.toNat := by
  have word (x y : Byte) :
      ((x.setWidth 32 ||| y.setWidth 32 <<< 8).setWidth 16 : BitVec 16).toNat = 2 ^ 8 * y.toNat + x.toNat := by
    have low := x.isLt
    have high := y.isLt
    have page : y.toNat <<< 8 % 2 ^ 32 = y.toNat <<< 8 := by
      rw [Nat.shiftLeft_eq]
      omega
    rw [BitVec.toNat_setWidth, BitVec.toNat_or, BitVec.toNat_shiftLeft, BitVec.toNat_setWidth, BitVec.toNat_setWidth,
      Nat.mod_eq_of_lt (show x.toNat < 2 ^ 32 by omega), Nat.mod_eq_of_lt (show y.toNat < 2 ^ 32 by omega), page,
      Nat.or_comm, ← Nat.shiftLeft_add_eq_or_of_lt low, Nat.shiftLeft_eq]
    omega
  cases cpu with
  | mos6502 s => exact ⟨s.x, s.y, rfl, rfl, word s.x s.y⟩
  | mos45gs02 s => exact ⟨s.x, s.y, rfl, rfl, word s.x s.y⟩

/-- A file that is written. -/
theorem saveFile_writes {taken : HostWrite} {replace : Bool} {path : List Byte} {w : World ω}
    (stays : ¬ ((w.files path).isSome = true ∧ (!replace) = true)) (refused : taken ≠ .refused) (lo hi : Byte) :
    h.saveFile taken replace path lo hi w =
      let data := h.ramBytes (hi ++ lo) ((endOf w.cpu).toNat - (hi ++ lo).toNat) w
      let written := KernalHLE.hostWrite taken path (lo :: hi :: data.1) data.2
      if written.1 then h.succeed written.2 else KernalHLE.fail 5 written.2 := by
  refine (congrFun ((if_neg stays).trans (if_neg refused)) w).trans ?_
  rcases taken with _ | kept | _
  · rfl
  · rfl
  · rfl

/-- What a new file holds. -/
theorem saveFile_done {replace : Bool} {path : List Byte} {w : World ω} (new : w.files path = none) (lo hi : Byte) :
    (h.saveFile .done replace path lo hi w).2.files = Function.update w.files path
      (some ⟨lo :: hi :: (h.ramBytes (hi ++ lo) ((endOf w.cpu).toNat - (hi ++ lo).toNat) w).1, true⟩) := by
  have absent : ¬ ((w.files path).isSome = true ∧ (!replace) = true) := by
    rw [new]
    exact fun there => Bool.false_ne_true there.1
  rw [saveFile_writes h absent HostWrite.noConfusion]
  generalize (endOf w.cpu).toNat - (hi ++ lo).toNat = n
  have files := (Looks.ramBytes h (hi ++ lo) n w).2.1
  change Function.update (h.ramBytes (hi ++ lo) n w).2.files path
    (some ⟨lo :: hi :: (h.ramBytes (hi ++ lo) n w).1,
      (((h.ramBytes (hi ++ lo) n w).2.files path).map File.readable).getD true⟩) = _
  rw [files, new]
  rfl

theorem saveFile_returns {stored : BitVec 16 → Prop} {w w' : World ω} (before : Ready stored w w')
    (own : stored h.m_zp.status) (taken : HostWrite) (replace : Bool) (path : List Byte) (lo hi : Byte) :
    Returned (failed replace (w'.files path).isSome taken) stored w
      (h.saveFile taken replace path lo hi w').2 := by
  by_cases stays : (w'.files path).isSome = true ∧ (!replace) = true
  · have unchanged : failed replace (w'.files path).isSome taken = false := if_pos stays
    have run : h.saveFile taken replace path lo hi w' = h.succeed w' := congrFun (if_pos stays) w'
    rw [unchanged, run]
    exact succeed_returns h before own
  have outcome : failed replace (w'.files path).isSome taken = decide (taken ≠ .done) := if_neg stays
  rw [outcome]
  by_cases refused : taken = .refused
  · have run : h.saveFile taken replace path lo hi w' = KernalHLE.fail 5 w' :=
      congrFun ((if_neg stays).trans (if_pos refused)) w'
    rw [run, refused]
    exact fail_returns before 5
  · have run := saveFile_writes h stays refused lo hi
    rw [run]
    have data := before.trans ((Looks.ramBytes h (hi ++ lo) ((endOf w'.cpu).toNat - (hi ++ lo).toNat)).ready stored w')
    dsimp only
    obtain ⟨written, took⟩ := hostWrite_ready data taken path
      (lo :: hi :: (h.ramBytes (hi ++ lo) ((endOf w'.cpu).toNat - (hi ++ lo).toNat) w').1)
    rw [took]
    by_cases done : taken = .done
    · rw [decide_eq_true done, if_pos rfl, decide_eq_false (not_not.mpr done)]
      exact succeed_returns h written own
    · rw [decide_eq_false done, if_neg Bool.false_ne_true, decide_eq_true done]
      exact fail_returns written 5

end Save

/-! ## The call -/

section
variable (h : KernalHLE ω)

/-- The world in which the device has been read. -/
def entered (w : World ω) : World ω := (h.getDevice w).2

/-- The secondary address, as LOAD reads it. -/
def secondary (w : World ω) : Byte := (h.getSecondaryAddress (entered h w)).1

/-- The file name, as LOAD reads it. -/
def loadName (w : World ω) : List Byte := (h.getFilename (h.getSecondaryAddress (entered h w)).2).1

/-- The file name, as SAVE reads it. -/
def saveName (w : World ω) : List Byte := (h.getFilename (entered h w)).1

/-- The file that LOAD opens. -/
def loadedFile (w : World ω) : Option (List Byte) := KernalHLE.opened w.files (h.path (loadName h w))

/-- SAVE fails on an empty name, or where the host does not take the file. -/
def saveFailed (taken : HostWrite) (w : World ω) : Bool :=
  let parsed := KernalHLE.parseName (saveName h w)
  parsed.2.isEmpty || Save.failed parsed.1 (w.files (h.path parsed.2)).isSome taken

/-- Whether a call fails. -/
def callFailed (taken : HostWrite) (pc : BitVec 32) (w : World ω) : Bool :=
  if pc = h.m_load then Load.failed (loadedFile h w) else saveFailed h taken w

/-- What a call may store to. -/
def callStored (pc : BitVec 32) (w : World ω) (a : BitVec 16) : Prop :=
  if pc = h.m_load then Load.stored h (secondary h w) w.cpu (loadedFile h w) a else a = h.m_zp.status

/-- What a served call runs. -/
theorem served_eq {answered : Byte → Bool} {taken : HostWrite} {pc : BitVec 32} {w : World ω}
    (served : (h.handle answered taken pc w).1 = true) :
    (h.handle answered taken pc w).2 =
      if pc = h.m_load then (h.handleLoad (entered h w)).2 else (h.handleSave taken (entered h w)).2 := by
  by_cases other : pc ≠ h.m_load ∧ pc ≠ h.m_save
  · have run : h.handle answered taken pc w = (false, w) := congrFun (if_pos other) w
    rw [run] at served
    cases served
  by_cases left : (h.getDevice w).1 < 8 ∨ answered (h.getDevice w).1 = true
  · have run : h.handle answered taken pc w = (false, entered h w) :=
      (congrFun (if_neg other) w).trans (congrFun (if_pos left) (entered h w))
    rw [run] at served
    cases served
  by_cases load : pc = h.m_load
  · have run : h.handle answered taken pc w = (true, (h.handleLoad (entered h w)).2) :=
      (congrFun (if_neg other) w).trans
        ((congrFun (if_neg left) (entered h w)).trans (congrFun (if_pos load) (entered h w)))
    rw [run, if_pos load]
  · have run : h.handle answered taken pc w = (true, (h.handleSave taken (entered h w)).2) :=
      (congrFun (if_neg other) w).trans
        ((congrFun (if_neg left) (entered h w)).trans (congrFun (if_neg load) (entered h w)))
    rw [run, if_neg load]

/-- The world in which LOAD has read what it is asked for. -/
def asked (w : World ω) : World ω := (h.getFilename (h.getSecondaryAddress (entered h w)).2).2

theorem asked_looks (w : World ω) :
    (asked h w).cpu = w.cpu ∧ (asked h w).files = w.files ∧
      ∀ mem, Kept mem (fun _ => False) w.bus (asked h w).bus :=
  (Looks.busRead (h.m_zp.fa.setWidth 32)).bind
    (fun _ => (Looks.busRead (h.m_zp.sa.setWidth 32)).bind fun _ => Looks.getFilename h) w

theorem handleLoad_eq (w : World ω) :
    h.handleLoad (entered h w) = h.loadFile (secondary h w) (loadedFile h w) (asked h w) := by
  have run : h.handleLoad (entered h w) =
      h.loadFile (secondary h w) (KernalHLE.opened (asked h w).files (h.path (loadName h w))) (asked h w) := rfl
  rw [run, (asked_looks h w).2.1]
  rfl

/-- The world in which SAVE has read the name. -/
def named (w : World ω) : World ω := (h.getFilename (entered h w)).2

/-- The zero page address that A names. -/
def pointer (w : World ω) : Byte := ((named h w).cpu.regRead .A).setWidth 8

/-- Where the data of SAVE starts. -/
def startLow (w : World ω) : Byte × World ω := busRead ((pointer h w).setWidth 32) (named h w)

def startHigh (w : World ω) : Byte × World ω := busRead ((pointer h w + 1).setWidth 32) (startLow h w).2

theorem named_looks (w : World ω) :
    (named h w).cpu = w.cpu ∧ (named h w).files = w.files ∧
      ∀ mem, Kept mem (fun _ => False) w.bus (named h w).bus :=
  (Looks.busRead (h.m_zp.fa.setWidth 32)).bind (fun _ => Looks.getFilename h) w

theorem startHigh_looks (w : World ω) :
    (startHigh h w).2.cpu = w.cpu ∧ (startHigh h w).2.files = w.files ∧
      ∀ mem, Kept mem (fun _ => False) w.bus (startHigh h w).2.bus :=
  (Looks.busRead (h.m_zp.fa.setWidth 32)).bind (fun _ => (Looks.getFilename h).bind fun _ => Looks.get_bind fun v =>
    (Looks.busRead ((((v.cpu.regRead .A).setWidth 8 : Byte)).setWidth 32)).bind fun _ =>
      Looks.busRead ((((v.cpu.regRead .A).setWidth 8 : Byte) + 1).setWidth 32)) w

theorem handleSave_eq (taken : HostWrite) (w : World ω) :
    h.handleSave taken (entered h w) =
      let parsed := KernalHLE.parseName (saveName h w)
      if parsed.2.isEmpty then KernalHLE.fail 8 (named h w)
      else h.saveFile taken parsed.1 (h.path parsed.2) (startLow h w).1 (startHigh h w).1 (startHigh h w).2 := by
  by_cases unnamed : (KernalHLE.parseName (saveName h w)).2.isEmpty = true
  · rw [if_pos unnamed]
    exact congrFun (if_pos unnamed) _
  · rw [if_neg unnamed]
    exact congrFun (if_neg unnamed) _

theorem load_returns (w : World ω) (long : ¬ Load.Short (loadedFile h w)) :
    Returned (Load.failed (loadedFile h w)) (Load.stored h (secondary h w) w.cpu (loadedFile h w)) w
      (h.handleLoad (entered h w)).2 := by
  obtain ⟨cpu, _, kept⟩ := asked_looks h w
  rw [handleLoad_eq]
  refine Load.loadFile_returns h _ _ (Ready.of_same cpu kept _) (fun a own => ?_) long
  rwa [cpu] at own

theorem save_returns (taken : HostWrite) (w : World ω) :
    Returned (saveFailed h taken w) (· = h.m_zp.status) w (h.handleSave taken (entered h w)).2 := by
  rw [handleSave_eq]
  by_cases unnamed : (KernalHLE.parseName (saveName h w)).2.isEmpty = true
  · have fails : saveFailed h taken w = true := by rw [saveFailed, unnamed, Bool.true_or]
    obtain ⟨cpu, _, kept⟩ := named_looks h w
    rw [fails]
    dsimp only
    rw [if_pos unnamed]
    exact Save.fail_returns (Ready.of_same cpu kept _) 8
  · obtain ⟨cpu, files, kept⟩ := startHigh_looks h w
    have fails : saveFailed h taken w = Save.failed (KernalHLE.parseName (saveName h w)).1
        ((startHigh h w).2.files (h.path (KernalHLE.parseName (saveName h w)).2)).isSome taken := by
      rw [saveFailed, Bool.eq_false_iff.mpr unnamed, Bool.false_or, files]
    rw [fails]
    dsimp only
    rw [if_neg unnamed]
    exact Save.saveFile_returns h (Ready.of_same cpu kept (· = h.m_zp.status)) rfl taken _ _ _ _

/-- A served call returns unless it is a LOAD of a file that is too short for a load address; a call on
such a file does not. -/
theorem call_returned_iff {answered : Byte → Bool} {taken : HostWrite} {pc : BitVec 32} {w : World ω}
    (served : (h.handle answered taken pc w).1 = true) :
    Returned (callFailed h taken pc w) (callStored h pc w) w (h.handle answered taken pc w).2 ↔
      ¬ (pc = h.m_load ∧ Load.Short (loadedFile h w)) := by
  rw [served_eq h served]
  by_cases load : pc = h.m_load
  · have fails : callFailed h taken pc w = Load.failed (loadedFile h w) := if_pos load
    have stores : callStored h pc w = Load.stored h (secondary h w) w.cpu (loadedFile h w) :=
      funext fun _ => if_pos load
    rw [fails, stores, if_pos load]
    refine ⟨fun returned short => ?_, fun long => load_returns h w fun short => long ⟨load, short⟩⟩
    have sp := returned.sp
    rw [handleLoad_eq, Load.loadFile_short h short.2, (asked_looks h w).1] at sp
    exact twoHigher_ne w.cpu sp
  · have fails : callFailed h taken pc w = saveFailed h taken w := if_neg load
    have stores : callStored h pc w = (· = h.m_zp.status) := funext fun _ => if_neg load
    rw [fails, stores, if_neg load]
    exact ⟨fun _ short => load short.1, fun _ => save_returns h taken w⟩

end

/-! ## What was saved is loaded -/

theorem inject_fst (data : List Byte) (addr : BitVec 32) (w : World ω) :
    (KernalHLE.inject addr data w).1 = addr + BitVec.ofNat 32 data.length := by
  induction data generalizing addr w with
  | nil => exact (BitVec.add_zero addr).symm
  | cons b data ih =>
    refine (ih (addr + 1) _).trans ?_
    rw [List.length_cons, Nat.add_comm data.length, BitVec.ofNat_add, ← BitVec.add_assoc]
    rfl

/-- Every byte that is injected is there at the end. -/
theorem inject_ram (mem : Plain ω) (data : List Byte) (few : data.length ≤ 65536) (addr : BitVec 32) (w : World ω)
    (i : ℕ) (inside : i < data.length) (held : mem.holds ((addr + BitVec.ofNat 32 i).setWidth 16)) :
    mem.ram (KernalHLE.inject addr data w).2.bus ((addr + BitVec.ofNat 32 i).setWidth 16) = data[i] := by
  induction data generalizing addr w i with
  | nil => exact absurd inside (Nat.not_lt_zero i)
  | cons b data ih =>
    rw [List.length_cons] at few inside
    have later : (KernalHLE.inject addr (b :: data) w).2 =
        (KernalHLE.inject (addr + 1) data (busWrite addr b w).2).2 := rfl
    rw [later]
    cases i with
    | zero =>
      rw [BitVec.add_zero] at held ⊢
      have rest := (Ready.refl (injected (addr + 1) data.length) (busWrite addr b w).2).inject data (addr + 1)
        fun _ within => within
      rw [rest.kept mem _ held ?_, List.getElem_cons_zero]
      · exact mem.write _ _ _ _ held rfl
      · rintro ⟨j, below, same⟩
        -- the bytes after this one do not come round to it
        have nat := congrArg BitVec.toNat same
        rw [BitVec.toNat_setWidth, BitVec.toNat_setWidth, BitVec.toNat_add, BitVec.toNat_add,
          BitVec.toNat_ofNat] at nat
        have one : (1 : BitVec 32).toNat = 1 := rfl
        omega
    | succ i =>
      have next : addr + BitVec.ofNat 32 (i + 1) = addr + 1 + BitVec.ofNat 32 i := by
        rw [Nat.add_comm i, BitVec.ofNat_add, ← BitVec.add_assoc]
        rfl
      rw [next] at held ⊢
      exact ih (by omega) (addr + 1) _ i (by omega) held

/-- RAM that is plain is read as it is. -/
theorem ramByte_eq (h : KernalHLE ω) (mem : Plain ω)
    (ram : ∀ readRam, h.m_readRam = some readRam → ∀ b a, mem.holds a → readRam b a = mem.ram b a)
    (w : World ω) (a : BitVec 16) (held : mem.holds a) : (h.ramByte a w).1 = mem.ram w.bus a := by
  unfold KernalHLE.ramByte
  cases way : h.m_readRam with
  | none => exact mem.read w.bus a held
  | some readRam => exact ram readRam way w.bus a held

theorem ramBytes_eq (h : KernalHLE ω) (mem : Plain ω)
    (ram : ∀ readRam, h.m_readRam = some readRam → ∀ b a, mem.holds a → readRam b a = mem.ram b a)
    (start : BitVec 16) (n : ℕ) (w : World ω) (held : ∀ i < n, mem.holds (start + BitVec.ofNat 16 i)) :
    (h.ramBytes start n w).1 = (List.range n).map fun i => mem.ram w.bus (start + BitVec.ofNat 16 i) := by
  have each (is : List ℕ) (held : ∀ i ∈ is, mem.holds (start + BitVec.ofNat 16 i)) (w : World ω) :
      (is.mapM (fun i => h.ramByte (start + BitVec.ofNat 16 i)) w).1 =
        is.map fun i => mem.ram w.bus (start + BitVec.ofNat 16 i) := by
    induction is generalizing w with
    | nil => rfl
    | cons i is ih =>
      have first := ramByte_eq h mem ram w _ (held i List.mem_cons_self)
      have rest := ih (fun j there => held j (List.mem_cons_of_mem i there))
        (h.ramByte (start + BitVec.ofNat 16 i) w).2
      rw [List.mapM_cons, List.map_cons]
      refine List.cons_eq_cons.mpr ⟨first, rest.trans (List.map_congr_left fun j there => ?_)⟩
      exact (Looks.ramByte h (start + BitVec.ofNat 16 i) w).2.2 mem _ (held j (List.mem_cons_of_mem i there)) not_false
  exact each (List.range n) (fun i there => held i (List.mem_range.mp there)) w

section
variable (h : KernalHLE ω)

/-- The first address that SAVE saves. -/
def start (w : World ω) : BitVec 16 := (startHigh h w).1 ++ (startLow h w).1

/-- A SAVE of plain RAM that succeeded, under a name that neither the host's file of that name nor the
one SAVE writes was there for; and later, from the files it left, a LOAD of the same name to where the
file says. -/
structure RoundTrip (mem : Plain ω) (answered answered' : Byte → Bool) (taken taken' : HostWrite)
    (w v : World ω) : Prop where
  distinct : h.m_save ≠ h.m_load
  saved : (h.handle answered taken h.m_save w).1 = true
  success : carry (h.handle answered taken h.m_save w).2.cpu = false
  new : w.files (h.path (saveName h w)) = none
  new' : w.files (h.path (KernalHLE.parseName (saveName h w)).2) = none
  some_ : start h w < Save.endOf w.cpu
  plain : ∀ a, start h w ≤ a → a < Save.endOf w.cpu → mem.holds a ∧ a ≠ h.m_zp.status
  ram : ∀ readRam, h.m_readRam = some readRam → ∀ b a, mem.holds a → readRam b a = mem.ram b a
  host : v.files = (h.handle answered taken h.m_save w).2.files
  loaded : (h.handle answered' taken' h.m_load v).1 = true
  name : loadName h v = saveName h w
  sa : secondary h v ≠ 0

/-- LOAD did not fail, X and Y are those that SAVE was called with, and the bytes that were saved are back. -/
structure Restored (mem : Plain ω) (w v' : World ω) : Prop where
  success : carry v'.cpu = false
  x : v'.cpu.regRead .X = w.cpu.regRead .X
  y : v'.cpu.regRead .Y = w.cpu.regRead .Y
  ram : ∀ a, start h w ≤ a → a < Save.endOf w.cpu → mem.ram v'.bus a = mem.ram w.bus a

/-- The bytes that are saved. -/
def savedBytes (mem : Plain ω) (w : World ω) : List Byte :=
  (List.range ((Save.endOf w.cpu).toNat - (start h w).toNat)).map fun i =>
    mem.ram w.bus (start h w + BitVec.ofNat 16 i)

namespace RoundTrip
variable {h} {mem : Plain ω} {answered answered' : Byte → Bool} {taken taken' : HostWrite} {w v : World ω}

theorem length_savedBytes : (savedBytes h mem w).length = (Save.endOf w.cpu).toNat - (start h w).toNat := by
  rw [savedBytes, List.length_map, List.length_range]

theorem not_failed (r : RoundTrip h mem answered answered' taken taken' w v) : saveFailed h taken w = false := by
  have returned := (call_returned_iff h r.saved).mpr fun short => r.distinct short.1
  have fails : callFailed h taken h.m_save w = saveFailed h taken w := if_neg r.distinct
  rw [← fails, ← returned.carry]
  exact r.success

theorem inside (r : RoundTrip h mem answered answered' taken taken' w v) {i : ℕ}
    (below : i < (Save.endOf w.cpu).toNat - (start h w).toNat) :
    start h w ≤ start h w + BitVec.ofNat 16 i ∧ start h w + BitVec.ofNat 16 i < Save.endOf w.cpu := by
  have order := BitVec.lt_def.mp r.some_
  have bound := (Save.endOf w.cpu).isLt
  have sum : (start h w + BitVec.ofNat 16 i).toNat = (start h w).toNat + i := by
    rw [BitVec.toNat_add, BitVec.toNat_ofNat]
    omega
  exact ⟨BitVec.le_def.mpr (by omega), BitVec.lt_def.mpr (by omega)⟩

/-- The file that SAVE leaves. -/
theorem files (r : RoundTrip h mem answered answered' taken taken' w v) :
    v.files = Function.update w.files (h.path (KernalHLE.parseName (saveName h w)).2)
      (some ⟨(startLow h w).1 :: (startHigh h w).1 :: savedBytes h mem w, true⟩) := by
  obtain ⟨cpu, files, kept⟩ := startHigh_looks h w
  obtain ⟨unnamed, written⟩ := Bool.or_eq_false_iff.mp r.not_failed
  rw [r.new'] at written
  have done : taken = .done :=
    not_not.mp (of_decide_eq_false ((if_neg fun there => Bool.false_ne_true there.1).symm.trans written))
  have new : (startHigh h w).2.files (h.path (KernalHLE.parseName (saveName h w)).2) = none := by
    rw [files]
    exact r.new'
  rw [r.host, served_eq h r.saved, if_neg r.distinct, handleSave_eq]
  dsimp only
  rw [if_neg (Bool.eq_false_iff.mp unnamed), done, Save.saveFile_done h new, files]
  have where_ {i : ℕ} (there : i ∈ List.range ((Save.endOf (startHigh h w).2.cpu).toNat - (start h w).toNat)) :
      mem.holds (start h w + BitVec.ofNat 16 i) := by
    rw [cpu] at there
    have range := r.inside (List.mem_range.mp there)
    exact (r.plain _ range.1 range.2).1
  have data := ramBytes_eq h mem r.ram (start h w) ((Save.endOf (startHigh h w).2.cpu).toNat - (start h w).toNat)
    (startHigh h w).2 fun i below => where_ (List.mem_range.mpr below)
  have same : (h.ramBytes (start h w) ((Save.endOf (startHigh h w).2.cpu).toNat - (start h w).toNat)
      (startHigh h w).2).1 = savedBytes h mem w := by
    rw [data, savedBytes, List.map_congr_left fun i there => kept mem _ (where_ there) not_false, cpu]
  exact congrArg (fun bytes => Function.update w.files _ (some ⟨_ :: _ :: bytes, true⟩)) same

/-- What LOAD finds under the name. -/
theorem loadedFile_eq (r : RoundTrip h mem answered answered' taken taken' w v) :
    loadedFile h v =
      if h.path (saveName h w) = h.path (KernalHLE.parseName (saveName h w)).2 then
        some ((startLow h w).1 :: (startHigh h w).1 :: savedBytes h mem w)
      else none := by
  rw [loadedFile, r.name, r.files]
  by_cases same : h.path (saveName h w) = h.path (KernalHLE.parseName (saveName h w)).2
  · rw [if_pos same, same, KernalHLE.opened, Function.update_self]
    rfl
  · rw [if_neg same, KernalHLE.opened, Function.update_of_ne same, r.new]
    rfl

/-- The last address, as it is injected and as it is given back in X and Y. -/
theorem xy_of_end {cpu : Cpu} {loadAddr : BitVec 32} (at_ : loadAddr.toNat = (Save.endOf cpu).toNat) :
    ((loadAddr &&& 0xFF).setWidth 8).setWidth 32 = cpu.regRead .X ∧
      (((loadAddr >>> 8) &&& 0xFF).setWidth 8).setWidth 32 = cpu.regRead .Y := by
  obtain ⟨x, y, readX, readY, both⟩ := Save.endOf_bytes cpu
  have low := x.isLt
  have high := y.isLt
  rw [readX, readY]
  refine ⟨BitVec.eq_of_toNat_eq ?_, BitVec.eq_of_toNat_eq ?_⟩
  · rw [BitVec.toNat_setWidth, BitVec.toNat_setWidth, and_low, BitVec.toNat_setWidth]
    omega
  · rw [BitVec.toNat_setWidth, BitVec.toNat_setWidth, and_low, BitVec.toNat_ushiftRight, Nat.shiftRight_eq_div_pow,
      BitVec.toNat_setWidth]
    omega

theorem restored (r : RoundTrip h mem answered answered' taken taken' w v)
    (same : h.path (saveName h w) = h.path (KernalHLE.parseName (saveName h w)).2) :
    Restored h mem w (h.handle answered' taken' h.m_load v).2 := by
  have file : loadedFile h v = some ((startLow h w).1 :: (startHigh h w).1 :: savedBytes h mem w) := by
    rw [r.loadedFile_eq, if_pos same]
  have long : ¬ Load.Short (loadedFile h v) := by
    rw [file]
    rintro ⟨data, is, few⟩
    cases is
    simp only [List.length_cons] at few
    omega
  have success := (load_returns h v long).carry
  rw [served_eq h r.loaded, if_pos rfl]
  rw [file] at success
  rw [handleLoad_eq, file] at success ⊢
  obtain ⟨x, y, kept⟩ := Load.loadFile_done h (secondary h v) (startLow h w).1 (startHigh h w).1
    (savedBytes h mem w) (asked h v)
  have target : Load.target (secondary h v) (asked h v).cpu (startLow h w).1 (startHigh h w).1 =
      (start h w).setWidth 32 := if_neg r.sa
  have order := BitVec.lt_def.mp r.some_
  have bound := (Save.endOf w.cpu).isLt
  have last : ((start h w).setWidth 32 + BitVec.ofNat 32 (savedBytes h mem w).length).toNat =
      (Save.endOf w.cpu).toNat := by
    rw [length_savedBytes, BitVec.toNat_add, BitVec.toNat_setWidth, BitVec.toNat_ofNat]
    omega
  rw [target] at x y kept
  rw [inject_fst] at x y
  refine ⟨success, x.trans (xy_of_end last).1, y.trans (xy_of_end last).2, fun a from_ below => ?_⟩
  obtain ⟨held, other⟩ := r.plain a from_ below
  have from_ := BitVec.le_def.mp from_
  have below := BitVec.lt_def.mp below
  have count : (savedBytes h mem w).length = _ := length_savedBytes
  have inside : a.toNat - (start h w).toNat < (savedBytes h mem w).length := by omega
  have at_ : (((start h w).setWidth 32 + BitVec.ofNat 32 (a.toNat - (start h w).toNat)).setWidth 16 : BitVec 16) =
      a := by
    refine BitVec.eq_of_toNat_eq ?_
    rw [BitVec.toNat_setWidth, BitVec.toNat_add, BitVec.toNat_setWidth, BitVec.toNat_ofNat]
    omega
  have at_' : start h w + BitVec.ofNat 16 (a.toNat - (start h w).toNat) = a := by
    refine BitVec.eq_of_toNat_eq ?_
    rw [BitVec.toNat_add, BitVec.toNat_ofNat]
    omega
  have byte := inject_ram mem (savedBytes h mem w) (by omega) ((start h w).setWidth 32) (asked h v)
    (a.toNat - (start h w).toNat) inside (at_.symm ▸ held)
  rw [at_] at byte
  rw [kept mem a held other, byte]
  simp only [savedBytes, List.getElem_map, List.getElem_range, at_']

theorem restored_iff (r : RoundTrip h mem answered answered' taken taken' w v) :
    Restored h mem w (h.handle answered' taken' h.m_load v).2 ↔
      h.path (saveName h w) = h.path (KernalHLE.parseName (saveName h w)).2 := by
  refine ⟨fun back => ?_, r.restored⟩
  by_contra other
  -- no file of that name was there, and SAVE wrote another
  have missing : loadedFile h v = none := by rw [r.loadedFile_eq, if_neg other]
  have long : ¬ Load.Short (loadedFile h v) := by
    rw [missing]
    rintro ⟨_, is, _⟩
    cases is
  have fails := (load_returns h v long).carry
  have success := back.success
  rw [served_eq h r.loaded, if_pos rfl, fails, missing] at success
  cases success

end RoundTrip
end

/-- A served call returns, with carry set exactly if it failed and nothing stored but the status byte if it
is a LOAD that failed, exactly if it is not a LOAD of a file that is too short for a load address; and
what was saved under a new name comes back by a LOAD of that name exactly if the host has one path for the
name as it is given and for the name without its drive, its replace mark and its type. -/
theorem host_calls (h : KernalHLE ω) :
    (∀ answered taken pc w, (h.handle answered taken pc w).1 = true →
      (Returned (callFailed h taken pc w) (callStored h pc w) w (h.handle answered taken pc w).2 ↔
        ¬ (pc = h.m_load ∧ Load.Short (loadedFile h w)))) ∧
    ∀ mem answered answered' taken taken' w v, RoundTrip h mem answered answered' taken taken' w v →
      (Restored h mem w (h.handle answered' taken' h.m_load v).2 ↔
        h.path (saveName h w) = h.path (KernalHLE.parseName (saveName h w)).2) :=
  ⟨fun _ _ _ _ served => call_returned_iff h served, fun _ _ _ _ _ _ _ r => r.restored_iff⟩

/-! ## A machine that is all RAM -/

structure Ram where
  bytes : BitVec 16 → Byte

instance : IBus Ram where
  read8 m addr := (m.bytes (addr.setWidth 16), m)
  write8 m addr v := ⟨Function.update m.bytes (addr.setWidth 16) v⟩
  peek8 m addr := m.bytes (addr.setWidth 16)

theorem Ram.narrow (a : BitVec 16) : ((a.setWidth 32).setWidth 16 : BitVec 16) = a := by
  rw [BitVec.setWidth_setWidth_of_le _ (by decide), BitVec.setWidth_eq]

theorem Ram.write_own (m : Ram) (addr : BitVec 32) (v : Byte) (a : BitVec 16) (_ : True) (at_ : addr.setWidth 16 = a) :
    (IBus.write8 m addr v).bytes a = v := by
  subst at_
  exact Function.update_self (addr.setWidth 16) v m.bytes

theorem Ram.write_other (m : Ram) (addr : BitVec 32) (v : Byte) (a : BitVec 16) (_ : True)
    (other : addr.setWidth 16 ≠ a) : (IBus.write8 m addr v).bytes a = m.bytes a :=
  Function.update_of_ne (Ne.symm other) v m.bytes

theorem Ram.read_own (m : Ram) (a : BitVec 16) (_ : True) : (IBus.read8 m (a.setWidth 32)).1 = m.bytes a :=
  congrArg m.bytes (Ram.narrow a)

/-- All of it is plain. -/
def Ram.plain : Plain Ram where
  holds _ := True
  ram := Ram.bytes
  read := Ram.read_own
  read_keeps _ _ _ _ := rfl
  write := Ram.write_own
  write_keeps := Ram.write_other

/-- A call on unit 8 with the name F, the data pointer at $FB. -/
def calling (data : BitVec 16 → Byte) (pc : BitVec 16) (x y : Byte) (files : Files) : World Ram where
  cpu := .mos6502 { (default : Source.Cpu6502.CPU6502State) with pc := pc, a := 0xFB, x := x, y := y, sp := 0xF0 }
  bus := ⟨fun a =>
    if a = 0xB7 then 1 else if a = 0xB9 then 1 else if a = 0xBA then 8 else if a = 0xBC then 3
    else if a = 0xFC then 0xC0 else if a = 0x0300 then 0x46 else data a⟩
  files := files

/-- SAVE of $C000 and $C001. -/
def saving : World Ram := calling (fun a => if a = 0xC000 then 0x12 else 0) 0xFFD8 0x02 0xC0 fun _ => none

/-- LOAD after that, the RAM cleared. -/
def loading : World Ram :=
  calling (fun _ => 0) 0xFFD5 0 0 (({} : KernalHLE Ram).handle (fun _ => false) .done 0xFFD8 saving).2.files

theorem roundTrip_saving : RoundTrip ({} : KernalHLE Ram) Ram.plain (fun _ => false) (fun _ => false) .done .done
    saving loading where
  distinct := by decide
  saved := rfl
  success := rfl
  new := rfl
  new' := rfl
  some_ := by decide
  plain a from_ _ := by
    refine ⟨trivial, ?_⟩
    rintro rfl
    exact absurd from_ (by decide)
  ram _ way := by cases way
  host := rfl
  loaded := rfl
  name := rfl
  sa := by decide

theorem host_calls_saving :
    Returned false (callStored ({} : KernalHLE Ram) 0xFFD8 saving) saving
        (({} : KernalHLE Ram).handle (fun _ => false) .done 0xFFD8 saving).2 ∧
      Restored ({} : KernalHLE Ram) Ram.plain saving
        (({} : KernalHLE Ram).handle (fun _ => false) .done 0xFFD5 loading).2 := by
  obtain ⟨returned, restored⟩ := host_calls ({} : KernalHLE Ram)
  have served := (returned (fun _ => false) .done 0xFFD8 saving rfl).mpr fun short => absurd short.1 (by decide)
  exact ⟨served, (restored _ _ _ _ _ _ _ roundTrip_saving).mpr rfl⟩

/-- LOAD of a file of one byte. -/
def loadingShort : World Ram := calling (fun _ => 0) 0xFFD5 0 0 fun _ => some ⟨[0x01], true⟩

/-- It is served and fails, but PC and SP stay, so that the next step serves it again. -/
theorem short_file_stays :
    (({} : KernalHLE Ram).handle (fun _ => false) .done 0xFFD5 loadingShort).1 = true ∧
      carry (({} : KernalHLE Ram).handle (fun _ => false) .done 0xFFD5 loadingShort).2.cpu = true ∧
      (({} : KernalHLE Ram).handle (fun _ => false) .done 0xFFD5 loadingShort).2.cpu.pc = 0xFFD5 ∧
      ¬ Returned true (callStored ({} : KernalHLE Ram) 0xFFD5 loadingShort) loadingShort
        (({} : KernalHLE Ram).handle (fun _ => false) .done 0xFFD5 loadingShort).2 := by
  refine ⟨rfl, rfl, rfl, fun returned => ?_⟩
  have sp : loadingShort.cpu.regRead .SP = twoHigher loadingShort.cpu := returned.sp
  exact twoHigher_ne _ sp

end Mmemu.Guarantees.HostLoadSave
