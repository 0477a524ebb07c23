import Mmemu.Source.Cpu6502Step
import Mmemu.Library.Stepping

/-!
# MOS 6502: what an instruction leaves alone

Every instruction of both tables reaches the world behind the bus by reads, writes and the
vector pull only, leaves the interrupt and halt lines and the cycle counter to the step, and
keeps bit 5 of P set and bit 4 clear.
-/
namespace Mmemu.Source.Cpu6502
open Mmemu.Source.MemoryBus
open Mmemu.Library.StateFrame

/-- Bit 5 set and bit 4 clear. -/
def StatusOk (p : BitVec 8) : Prop := p &&& (FLAG_U ||| FLAG_B) = FLAG_U

instance (p : BitVec 8) : Decidable (StatusOk p) := inferInstanceAs (Decidable (_ = _))

/-- The mask leaves bits 4 and 5 to the others. -/
def Apart (mask : BitVec 8) : Prop := mask &&& (FLAG_U ||| FLAG_B) = 0#8

instance (mask : BitVec 8) : Decidable (Apart mask) := inferInstanceAs (Decidable (_ = _))

theorem statusOk_or {mask : BitVec 8} (apart : Apart mask) (p : BitVec 8) :
    StatusOk (p ||| mask) ↔ StatusOk p := by
  unfold Apart at apart
  unfold StatusOk
  have : (p ||| mask) &&& (FLAG_U ||| FLAG_B) = p &&& (FLAG_U ||| FLAG_B) := by
    rw [BitVec.and_comm, BitVec.and_or_distrib_left, BitVec.and_comm _ p, BitVec.and_comm _ mask,
      apart, BitVec.or_zero]
  rw [this]

theorem statusOk_clear {mask : BitVec 8} (apart : Apart mask) (p : BitVec 8) :
    StatusOk (p &&& ~~~mask) ↔ StatusOk p := by
  unfold Apart at apart
  unfold StatusOk
  have kept : ~~~mask &&& (FLAG_U ||| FLAG_B) = FLAG_U ||| FLAG_B := by
    have split : ~~~mask &&& (FLAG_U ||| FLAG_B) =
        (FLAG_U ||| FLAG_B) &&& ~~~(mask &&& (FLAG_U ||| FLAG_B)) := by grind
    rw [split, apart, BitVec.not_zero, BitVec.and_allOnes]
  rw [BitVec.and_assoc, kept]

theorem statusOk_orIf {mask : BitVec 8} (apart : Apart mask) (p : BitVec 8) (on : Bool) :
    StatusOk (orIf p mask on) ↔ StatusOk p := by
  unfold orIf
  split
  · exact statusOk_or apart p
  · rfl

@[simp] theorem statusOk_nz (p val : BitVec 8) : StatusOk (nz p val) ↔ StatusOk p := by
  simp only [nz]
  rw [statusOk_orIf (by decide), statusOk_orIf (by decide), statusOk_clear (by decide)]

@[simp] theorem statusOk_carryTo (p : BitVec 8) (on : Bool) :
    StatusOk (carryTo p on) ↔ StatusOk p := by
  rw [carryTo, statusOk_orIf (by decide), statusOk_clear (by decide)]

/-- What PLP and RTI make of a pulled byte. -/
@[simp] theorem statusOk_pulled (val : BitVec 8) : StatusOk (val &&& ~~~FLAG_B ||| FLAG_U) := by
  revert val
  decide

/-- What an instruction may do to the registers. -/
structure Legal (s s' : CPU6502State) : Prop where
  irqLine : s'.irqLine = s.irqLine
  nmiLine : s'.nmiLine = s.nmiLine
  nmiPrev : s'.nmiPrev = s.nmiPrev
  haltLine : s'.haltLine = s.haltLine
  cycles : s'.cycles = s.cycles
  status : StatusOk s.p → StatusOk s'.p

theorem Legal.refl (s : CPU6502State) : Legal s s := ⟨rfl, rfl, rfl, rfl, rfl, id⟩

theorem Legal.trans {s s' s'' : CPU6502State} (h : Legal s s') (h' : Legal s' s'') :
    Legal s s'' :=
  ⟨h'.irqLine.trans h.irqLine, h'.nmiLine.trans h.nmiLine, h'.nmiPrev.trans h.nmiPrev,
    h'.haltLine.trans h.haltLine, h'.cycles.trans h.cycles, h'.status ∘ h.status⟩

/-- What a step may do to the registers besides: the cycle counter runs on. -/
structure Kept (s s' : CPU6502State) : Prop where
  irqLine : s'.irqLine = s.irqLine
  nmiLine : s'.nmiLine = s.nmiLine
  nmiPrev : s'.nmiPrev = s.nmiPrev
  haltLine : s'.haltLine = s.haltLine
  status : StatusOk s.p → StatusOk s'.p

theorem Legal.kept {s s' : CPU6502State} (h : Legal s s') : Kept s s' :=
  ⟨h.irqLine, h.nmiLine, h.nmiPrev, h.haltLine, h.status⟩

theorem Kept.refl (s : CPU6502State) : Kept s s := ⟨rfl, rfl, rfl, rfl, id⟩

theorem Kept.trans {s s' s'' : CPU6502State} (h : Kept s s') (h' : Kept s' s'') : Kept s s'' :=
  ⟨h'.irqLine.trans h.irqLine, h'.nmiLine.trans h.nmiLine, h'.nmiPrev.trans h.nmiPrev,
    h'.haltLine.trans h.haltLine, h'.status ∘ h.status⟩

theorem toA_legal (s : CPU6502State) (val : BitVec 8) : Legal s (toA s val) :=
  ⟨rfl, rfl, rfl, rfl, rfl, (statusOk_nz _ _).mpr⟩

theorem toX_legal (s : CPU6502State) (val : BitVec 8) : Legal s (toX s val) :=
  ⟨rfl, rfl, rfl, rfl, rfl, (statusOk_nz _ _).mpr⟩

theorem toY_legal (s : CPU6502State) (val : BitVec 8) : Legal s (toY s val) :=
  ⟨rfl, rfl, rfl, rfl, rfl, (statusOk_nz _ _).mpr⟩

theorem compare_legal (reg : CPU6502State → BitVec 8) (s : CPU6502State) (m : BitVec 8) :
    Legal s (compare reg s m) :=
  ⟨rfl, rfl, rfl, rfl, rfl, fun ok => by simpa [compare] using ok⟩

theorem addBinary_legal (s : CPU6502State) (m : BitVec 8) : Legal s (addBinary s m) := by
  refine ⟨rfl, rfl, rfl, rfl, rfl, fun ok => ?_⟩
  simp only [addBinary, statusOk_nz]
  rwa [statusOk_orIf (by decide), statusOk_orIf (by decide), statusOk_clear (by decide)]

theorem addDecimal_legal (s : CPU6502State) (m : BitVec 8) : Legal s (addDecimal s m) := by
  refine ⟨rfl, rfl, rfl, rfl, rfl, fun ok => ?_⟩
  simp only [addDecimal]
  rwa [statusOk_orIf (by decide), statusOk_orIf (by decide), statusOk_orIf (by decide),
    statusOk_orIf (by decide), statusOk_clear (by decide)]

theorem adcDecimalCmos_legal (s : CPU6502State) (m : BitVec 8) : Legal s (adcDecimalCmos s m) := by
  refine ⟨rfl, rfl, rfl, rfl, rfl, fun ok => ?_⟩
  simp only [adcDecimalCmos, statusOk_nz]
  rwa [statusOk_orIf (by decide), statusOk_orIf (by decide), statusOk_clear (by decide)]

theorem subtract_legal (s : CPU6502State) (raw : BitVec 8) : Legal s (subtract s raw) := by
  have binary := addBinary_legal s (raw ^^^ 0xFF)
  simp only [subtract]
  split
  · exact ⟨rfl, rfl, rfl, rfl, rfl, binary.status⟩
  · exact binary

theorem sbcDecimalCmos_legal (s : CPU6502State) (m : BitVec 8) : Legal s (sbcDecimalCmos s m) := by
  refine ⟨rfl, rfl, rfl, rfl, rfl, fun ok => ?_⟩
  simp only [sbcDecimalCmos, statusOk_nz]
  rwa [statusOk_orIf (by decide), statusOk_orIf (by decide), statusOk_clear (by decide)]

theorem andRotate_legal (s : CPU6502State) (m : BitVec 8) : Legal s (andRotate s m) := by
  have cleared : StatusOk s.p →
      StatusOk (s.p &&& ~~~(FLAG_N ||| FLAG_Z ||| FLAG_C ||| FLAG_V)) :=
    (statusOk_clear (by decide) _).mpr
  simp only [andRotate]
  split
  · refine ⟨rfl, rfl, rfl, rfl, rfl, fun ok => ?_⟩
    rw [statusOk_orIf (by decide), statusOk_orIf (by decide), statusOk_orIf (by decide),
      statusOk_orIf (by decide)]
    exact cleared ok
  · split
    all_goals
      refine ⟨rfl, rfl, rfl, rfl, rfl, fun ok => ?_⟩
      simp only [statusOk_or (by decide : Apart FLAG_C)]
      rw [statusOk_orIf (by decide), statusOk_orIf (by decide), statusOk_orIf (by decide)]
      exact cleared ok

/-! ## The frame of a computation -/

section Frame
variable {ω : Type} [IBus ω]

/-- A preorder on worlds that every read keeps. -/
class ReadClosed (r : ω → ω → Prop) : Prop extends IsPreorder ω r where
  read8 : ∀ w addr, r w (IBus.read8 w addr).2

/-- A preorder on worlds that every access keeps. -/
class Closed (r : ω → ω → Prop) : Prop extends ReadClosed r where
  write8 : ∀ w addr val, r w (IBus.write8 w addr val)

/-- What a part of an instruction does to core and world: `l` relates the registers and `r`
the worlds. -/
structure Framed (l : CPU6502State → CPU6502State → Prop) (r : ω → ω → Prop)
    (c c' : MOS6502 ω) : Prop where
  regs : l c.state c'.state
  cmos : c'.cmos = c.cmos
  bus : r c.bus c'.bus

instance (l : CPU6502State → CPU6502State → Prop) (r : ω → ω → Prop)
    [IsPreorder CPU6502State l] [IsPreorder ω r] : IsPreorder (MOS6502 ω) (Framed l r) where
  refl _ := ⟨Std.Refl.refl _, rfl, Std.Refl.refl _⟩
  trans _ _ _ h h' :=
    ⟨IsTrans.trans _ _ _ h.regs h'.regs, h'.cmos.trans h.cmos,
      IsTrans.trans _ _ _ h.bus h'.bus⟩

/-- Only the program counter changed. -/
def PcOnly (s s' : CPU6502State) : Prop := s' = { s with pc := s'.pc }

instance : IsPreorder CPU6502State PcOnly where
  refl _ := rfl
  trans s s' s'' h h' := by
    unfold PcOnly at *
    rw [h', h]

theorem PcOnly.legal {s s' : CPU6502State} (h : PcOnly s s') : Legal s s' := by
  rw [h]
  exact ⟨rfl, rfl, rfl, rfl, rfl, id⟩

instance : IsPreorder CPU6502State Legal where
  refl := .refl
  trans _ _ _ := .trans

section Reads
variable {l : CPU6502State → CPU6502State → Prop} {r : ω → ω → Prop}
variable [IsPreorder CPU6502State l] [closed : ReadClosed r]

omit [IsPreorder CPU6502State l] in
theorem regs_keeps {f : CPU6502State → CPU6502State} (legal : ∀ s, l s (f s)) :
    Keeps (Framed l r) (regs f) := fun c => ⟨legal c.state, rfl, Std.Refl.refl _⟩

theorem read_keeps (addr : BitVec 16) : Keeps (Framed l r) (read addr) := fun c =>
  ⟨Std.Refl.refl _, rfl, closed.read8 c.bus _⟩

end Reads

/-! ## Addressing modes -/

section Operands
variable {r : ω → ω → Prop} [closed : ReadClosed r]

theorem fetch_pcOnly : Keeps (Framed PcOnly r) fetch :=
  Keeps.get.bind fun _ => Keeps.bind (regs_keeps fun _ => rfl) fun _ => read_keeps _

theorem addrABS_pcOnly : Keeps (Framed PcOnly r) addrABS :=
  fetch_pcOnly.bind fun _ => fetch_pcOnly.bind fun _ => Keeps.pure _

theorem pointer_pcOnly (ptr : BitVec 8) : Keeps (Framed PcOnly r) (pointer ptr) :=
  (read_keeps _).bind fun _ => (read_keeps _).bind fun _ => Keeps.pure _

/-- Finding the operand reads the world and moves the program counter. -/
theorem operand_pcOnly (mode : Mode) (penalty : Bool) :
    Keeps (Framed PcOnly r) (operand mode penalty) := by
  have zeroPage : Keeps (Framed PcOnly r) addrBP := fetch_pcOnly.bind fun _ => Keeps.pure _
  have zeroPageX : Keeps (Framed PcOnly r) addrBPX :=
    fetch_pcOnly.bind fun _ => Keeps.get.bind fun _ => Keeps.pure _
  have zeroPageY : Keeps (Framed PcOnly r) addrBPY :=
    fetch_pcOnly.bind fun _ => Keeps.get.bind fun _ => Keeps.pure _
  have absoluteX : Keeps (Framed PcOnly r) addrABSX :=
    addrABS_pcOnly.bind fun _ => Keeps.get.bind fun _ => Keeps.pure _
  have absoluteY : Keeps (Framed PcOnly r) addrABSY :=
    addrABS_pcOnly.bind fun _ => Keeps.get.bind fun _ => Keeps.pure _
  have indirect : Keeps (Framed PcOnly r) addrIND :=
    addrABS_pcOnly.bind fun _ => (read_keeps _).bind fun _ => Keeps.get.bind fun _ =>
      (read_keeps _).bind fun _ => Keeps.pure _
  have indexedIndirect : Keeps (Framed PcOnly r) addrBPXIND :=
    fetch_pcOnly.bind fun _ => Keeps.get.bind fun _ => pointer_pcOnly _
  have indirectIndexed : Keeps (Framed PcOnly r) addrINDBPY :=
    fetch_pcOnly.bind fun _ => (pointer_pcOnly _).bind fun _ => Keeps.get.bind fun _ =>
      Keeps.pure _
  have zeroPageIndirect : Keeps (Framed PcOnly r) addrBPIND :=
    fetch_pcOnly.bind fun _ => pointer_pcOnly _
  have absoluteXIndirect : Keeps (Framed PcOnly r) addrABSXIND :=
    addrABS_pcOnly.bind fun _ => Keeps.get.bind fun _ => (read_keeps _).bind fun _ =>
      (read_keeps _).bind fun _ => Keeps.pure _
  cases mode with
  | imp | acc => exact Keeps.pure _
  | imm =>
    exact Keeps.get.bind fun _ => Keeps.bind (regs_keeps fun _ => rfl) fun _ => Keeps.pure _
  | bp => exact zeroPage.bind fun _ => Keeps.pure _
  | bpx => exact zeroPageX.bind fun _ => Keeps.pure _
  | bpy => exact zeroPageY.bind fun _ => Keeps.pure _
  | abs => exact addrABS_pcOnly.bind fun _ => Keeps.pure _
  | absx => exact absoluteX.bind fun _ => Keeps.pure _
  | absy => exact absoluteY.bind fun _ => Keeps.pure _
  | ind => exact indirect.bind fun _ => Keeps.pure _
  | bpxind => exact indexedIndirect.bind fun _ => Keeps.pure _
  | indbpy => exact indirectIndexed.bind fun _ => Keeps.pure _
  | rel => exact fetch_pcOnly.bind fun _ => Keeps.get.bind fun _ => Keeps.pure _
  | bpind => exact zeroPageIndirect.bind fun _ => Keeps.pure _
  | absxind => exact absoluteXIndirect.bind fun _ => Keeps.pure _
  | bprel =>
    refine fetch_pcOnly.bind fun _ => fetch_pcOnly.bind fun _ => Keeps.bind ?_ fun _ =>
      Keeps.pure _
    exact Keeps.modify fun c => ⟨rfl, rfl, Std.Refl.refl _⟩

end Operands

variable {r : ω → ω → Prop} [closed : Closed r]

theorem write_keeps (addr : BitVec 16) (val : BitVec 8) :
    Keeps (Framed Legal r) (write addr val) := fun c =>
  ⟨.refl _, rfl, closed.write8 c.bus _ _⟩

theorem push_keeps (val : BitVec 8) : Keeps (Framed Legal r) (push val) :=
  Keeps.get.bind fun _ => Keeps.bind (regs_keeps fun _ => ⟨rfl, rfl, rfl, rfl, rfl, id⟩) fun _ =>
    write_keeps _ _

theorem pop_keeps : Keeps (Framed Legal r) pop :=
  Keeps.bind (regs_keeps fun _ => ⟨rfl, rfl, rfl, rfl, rfl, id⟩) fun _ => Keeps.get.bind fun _ =>
    read_keeps _

/-! ## Kinds of instructions -/

theorem implied_keeps {f : CPU6502State → CPU6502State} (legal : ∀ s, Legal s (f s))
    (addr : BitVec 16) : Keeps (Framed Legal r) (implied f addr) :=
  Keeps.bind (regs_keeps legal) fun _ => Keeps.pure _

theorem loaded_keeps {f : CPU6502State → BitVec 8 → CPU6502State}
    (legal : ∀ s m, Legal s (f s m)) (addr : BitVec 16) :
    Keeps (Framed Legal r) (loaded f addr) :=
  (read_keeps _).bind fun _ => Keeps.bind (regs_keeps fun s => legal s _) fun _ => Keeps.pure _

theorem stored_keeps (val : CPU6502State → BitVec 8) (addr : BitVec 16) :
    Keeps (Framed Legal r) (stored val addr) :=
  Keeps.get.bind fun _ => (write_keeps _ _).bind fun _ => Keeps.pure _

theorem pushed_keeps (val : CPU6502State → BitVec 8) (addr : BitVec 16) :
    Keeps (Framed Legal r) (pushed val addr) :=
  Keeps.get.bind fun _ => (push_keeps _).bind fun _ => Keeps.pure _

theorem popped_keeps {f : CPU6502State → BitVec 8 → CPU6502State}
    (legal : ∀ s m, Legal s (f s m)) (addr : BitVec 16) :
    Keeps (Framed Legal r) (popped f addr) :=
  pop_keeps.bind fun _ => Keeps.bind (regs_keeps fun s => legal s _) fun _ => Keeps.pure _

theorem branch_keeps (taken : CPU6502State → Bool) (addr : BitVec 16) :
    Keeps (Framed Legal r) (branch taken addr) :=
  Keeps.get.bind fun _ => Keeps.ite
    (Keeps.bind (regs_keeps fun _ => ⟨rfl, rfl, rfl, rfl, rfl, id⟩) fun _ => Keeps.pure _)
    (Keeps.pure _)

theorem shifted_keeps (f : BitVec 8 → BitVec 8 → Bool × BitVec 8) (addr : BitVec 16) :
    Keeps (Framed Legal r) (shifted f addr) := by
  have flags (s : CPU6502State) (on : Bool) : Legal s { s with p := carryTo s.p on } :=
    ⟨rfl, rfl, rfl, rfl, rfl, (statusOk_carryTo _ _).mpr⟩
  refine Keeps.get.bind fun _ => Keeps.ite ?_ ?_
  · refine Keeps.bind (regs_keeps fun s => ?_) fun _ => Keeps.pure _
    exact ⟨rfl, rfl, rfl, rfl, rfl, fun ok => by simpa using ok⟩
  · refine (read_keeps _).bind fun _ => Keeps.bind (regs_keeps fun s => flags s _) fun _ =>
      (write_keeps _ _).bind fun _ => Keeps.bind (regs_keeps fun s => ?_) fun _ => Keeps.pure _
    exact ⟨rfl, rfl, rfl, rfl, rfl, (statusOk_nz _ _).mpr⟩

theorem stepByte_keeps (by_ : BitVec 8) (addr : BitVec 16) :
    Keeps (Framed Legal r) (stepByte by_ addr) :=
  (read_keeps _).bind fun _ => (write_keeps _ _).bind fun _ =>
    Keeps.bind (regs_keeps fun _ => ⟨rfl, rfl, rfl, rfl, rfl, (statusOk_nz _ _).mpr⟩) fun _ =>
      Keeps.pure _

theorem opADC_keeps (addr : BitVec 16) : Keeps (Framed Legal r) (opADC addr) := by
  refine (read_keeps _).bind fun m => Keeps.get.bind fun _ => Keeps.ite ?_ ?_
  · exact Keeps.bind (regs_keeps fun s => adcDecimalCmos_legal s m) fun _ => Keeps.pure _
  · refine Keeps.bind (regs_keeps fun s => ?_) fun _ => Keeps.pure _
    split
    · exact addDecimal_legal s m
    · exact addBinary_legal s m

theorem opSBC_keeps (addr : BitVec 16) : Keeps (Framed Legal r) (opSBC addr) := by
  refine (read_keeps _).bind fun m => Keeps.get.bind fun _ => Keeps.ite ?_ ?_
  · exact Keeps.bind (regs_keeps fun s => sbcDecimalCmos_legal s m) fun _ => Keeps.pure _
  · exact Keeps.bind (regs_keeps fun s => subtract_legal s m) fun _ => Keeps.pure _

theorem both_keeps {first second : BitVec 16 → Exec ω ℕ} (addr : BitVec 16)
    (h : Keeps (Framed Legal r) (first addr)) (h' : Keeps (Framed Legal r) (second addr)) :
    Keeps (Framed Legal r) (both first second addr) := h.bind fun _ => h'

theorem stepThen_keeps (by_ : BitVec 8) {next : BitVec 16 → Exec ω ℕ} (addr : BitVec 16)
    (h : Keeps (Framed Legal r) (next addr)) : Keeps (Framed Legal r) (stepThen by_ next addr) :=
  (read_keeps _).bind fun _ => (write_keeps _ _).bind fun _ => h

theorem branchOnBit_keeps (on : Bool) (addr : BitVec 16) :
    Keeps (Framed Legal r) (branchOnBit on addr) :=
  (read_keeps _).bind fun _ => Keeps.get.bind fun _ => Keeps.ite
    (Keeps.bind (regs_keeps fun _ => ⟨rfl, rfl, rfl, rfl, rfl, id⟩) fun _ => Keeps.pure _)
    (Keeps.pure _)

theorem statusOk_setZ (p : BitVec 8) (on : Bool) :
    StatusOk (if on then p &&& ~~~FLAG_Z else p ||| FLAG_Z) ↔ StatusOk p := by
  split
  · exact statusOk_clear (by decide) p
  · exact statusOk_or (by decide) p

theorem testAndWrite_keeps (f : BitVec 8 → BitVec 8 → BitVec 8) (addr : BitVec 16) :
    Keeps (Framed Legal r) (testAndWrite f addr) :=
  (read_keeps _).bind fun _ =>
    Keeps.bind (regs_keeps fun _ => ⟨rfl, rfl, rfl, rfl, rfl, (statusOk_setZ _ _).mpr⟩) fun _ =>
      Keeps.get.bind fun _ => (write_keeps _ _).bind fun _ => Keeps.pure _

theorem storeAndHigh_keeps (addr : BitVec 16) (index value : BitVec 8) :
    Keeps (Framed Legal r) (storeAndHigh addr index value) :=
  (write_keeps _ _).bind fun _ => Keeps.pure _

theorem enter_keeps {hook : Option (ω → ω)} (pull : ∀ f ∈ hook, ∀ w, r w (f w))
    (status : BitVec 8 → BitVec 8) (vector : BitVec 16) :
    Keeps (Framed Legal r) (enter hook status vector) := by
  refine Keeps.get.bind fun _ => (push_keeps _).bind fun _ => (push_keeps _).bind fun _ =>
    Keeps.get.bind fun _ => (push_keeps _).bind fun _ => Keeps.get.bind fun c =>
    Keeps.bind (regs_keeps fun s => ⟨rfl, rfl, rfl, rfl, rfl, fun ok => ?_⟩) fun _ =>
    Keeps.bind (fun c => ?_) fun _ => (read_keeps _).bind fun _ => (read_keeps _).bind fun _ =>
    regs_keeps fun s => ⟨rfl, rfl, rfl, rfl, rfl, id⟩
  · have masked := (statusOk_or (by decide : Apart FLAG_I) s.p).mpr ok
    dsimp only
    split
    · exact (statusOk_clear (by decide) _).mpr masked
    · exact masked
  · unfold vectorPull
    cases hook with
    | none => exact ⟨.refl _, rfl, Std.Refl.refl _⟩
    | some f => exact ⟨.refl _, rfl, pull f rfl c.bus⟩

/-! ## Every instruction -/

theorem jump_legal (s : CPU6502State) (pc : BitVec 16) : Legal s { s with pc := pc } :=
  ⟨rfl, rfl, rfl, rfl, rfl, id⟩

theorem clear_legal {mask : BitVec 8} (apart : Apart mask) (s : CPU6502State) :
    Legal s { s with p := s.p &&& ~~~mask } :=
  ⟨rfl, rfl, rfl, rfl, rfl, (statusOk_clear apart _).mpr⟩

theorem set_legal {mask : BitVec 8} (apart : Apart mask) (s : CPU6502State) :
    Legal s { s with p := s.p ||| mask } :=
  ⟨rfl, rfl, rfl, rfl, rfl, (statusOk_or apart _).mpr⟩

theorem opBIT_keeps (addr : BitVec 16) : Keeps (Framed Legal r) (opBIT addr) := by
  unfold opBIT
  refine loaded_keeps ?_ addr
  intro s m
  refine ⟨rfl, rfl, rfl, rfl, rfl, fun ok => ?_⟩
  dsimp only
  rwa [statusOk_orIf (by decide), statusOk_orIf (by decide), statusOk_orIf (by decide),
    statusOk_clear (by decide)]

theorem opBITI_keeps (addr : BitVec 16) : Keeps (Framed Legal r) (opBITI addr) := by
  unfold opBITI
  refine loaded_keeps ?_ addr
  intro s m
  exact ⟨rfl, rfl, rfl, rfl, rfl, (statusOk_setZ s.p _).mpr⟩

theorem opJSR_keeps (addr : BitVec 16) : Keeps (Framed Legal r) (opJSR addr) := by
  unfold opJSR
  exact Keeps.get.bind fun _ => (push_keeps _).bind fun _ => (push_keeps _).bind fun _ =>
    Keeps.bind (regs_keeps fun s => jump_legal s _) fun _ => Keeps.pure _

theorem opRTI_keeps (addr : BitVec 16) : Keeps (Framed Legal r) (opRTI addr) := by
  unfold opRTI
  exact pop_keeps.bind fun p =>
    Keeps.bind (regs_keeps fun s => ⟨rfl, rfl, rfl, rfl, rfl, fun _ => statusOk_pulled p⟩) fun _ =>
    pop_keeps.bind fun _ => pop_keeps.bind fun _ =>
    Keeps.bind (regs_keeps fun s => jump_legal s _) fun _ => Keeps.pure _

theorem opRTS_keeps (addr : BitVec 16) : Keeps (Framed Legal r) (opRTS addr) := by
  unfold opRTS
  exact pop_keeps.bind fun _ => pop_keeps.bind fun _ =>
    Keeps.bind (regs_keeps fun s => jump_legal s _) fun _ => Keeps.pure _

theorem opBRK_keeps {hook : Option (ω → ω)} (pull : ∀ f ∈ hook, ∀ w, r w (f w))
    (addr : BitVec 16) : Keeps (Framed Legal r) (opBRK hook addr) := by
  unfold opBRK
  exact Keeps.bind (regs_keeps fun s => jump_legal s _) fun _ => (enter_keeps pull _ _).bind fun _ =>
    Keeps.pure _

theorem opANC_keeps (addr : BitVec 16) : Keeps (Framed Legal r) (opANC addr) := by
  unfold opANC
  refine loaded_keeps ?_ addr
  intro s m
  have anded := toA_legal s (s.a &&& m)
  dsimp only
  split
  · exact anded.trans (set_legal (by decide) _)
  · exact anded.trans (clear_legal (by decide) _)

theorem opALR_keeps (addr : BitVec 16) : Keeps (Framed Legal r) (opALR addr) := by
  unfold opALR opLSR
  exact (read_keeps _).bind fun m =>
    Keeps.bind (regs_keeps fun s => ⟨rfl, rfl, rfl, rfl, rfl, id⟩) fun _ => shifted_keeps _ _

theorem opAXS_keeps (addr : BitVec 16) : Keeps (Framed Legal r) (opAXS addr) := by
  unfold opAXS
  refine loaded_keeps ?_ addr
  intro s m
  exact (compare_legal (fun s => s.a &&& s.x) s m).trans ⟨rfl, rfl, rfl, rfl, rfl, id⟩

theorem opLAX_keeps (addr : BitVec 16) : Keeps (Framed Legal r) (opLAX addr) := by
  unfold opLAX
  refine loaded_keeps ?_ addr
  intro s m
  exact (toA_legal s _).trans ⟨rfl, rfl, rfl, rfl, rfl, id⟩

theorem opLXA_keeps (addr : BitVec 16) : Keeps (Framed Legal r) (opLXA addr) := by
  unfold opLXA
  refine loaded_keeps ?_ addr
  intro s m
  exact (toA_legal s _).trans ⟨rfl, rfl, rfl, rfl, rfl, id⟩

theorem opLAS_keeps (addr : BitVec 16) : Keeps (Framed Legal r) (opLAS addr) := by
  unfold opLAS
  refine loaded_keeps ?_ addr
  intro s m
  exact (toA_legal s _).trans ⟨rfl, rfl, rfl, rfl, rfl, id⟩

theorem opTAS_keeps (addr : BitVec 16) : Keeps (Framed Legal r) (opTAS addr) := by
  unfold opTAS
  exact Keeps.bind (regs_keeps fun s => ⟨rfl, rfl, rfl, rfl, rfl, id⟩) fun _ =>
    Keeps.get.bind fun _ => storeAndHigh_keeps _ _ _

/-- The frame of a call through the opcode table. -/
theorem call_keeps (w : Wiring ω) (pull : ∀ f ∈ w.onVectorPull, ∀ x, r x (f x)) (fn : OpcodeFn)
    (addr : BitVec 16) : Keeps (Framed Legal r) (call w fn addr) := by
  have setBit (f : BitVec 8 → BitVec 8 → BitVec 8) : Keeps (Framed Legal r) (do
      let m ← read addr
      write addr (f m (opBit (← get).curOp))
      return 0 : Exec ω ℕ) :=
    (read_keeps _).bind fun _ => Keeps.get.bind fun _ => (write_keeps _ _).bind fun _ =>
      Keeps.pure _
  have toAFrom (f : CPU6502State → BitVec 8 → BitVec 8) :
      Keeps (Framed Legal r) (loaded (fun s m => toA s (f s m)) addr) :=
    loaded_keeps (fun s m => toA_legal s (f s m)) addr
  cases fn with
  | ADC => exact opADC_keeps addr
  | SBC => exact opSBC_keeps addr
  | AND | EOR | ORA | XAA =>
    simp only [call, opAND, opEOR, opORA, opXAA]
    exact toAFrom _
  | LDA => exact loaded_keeps toA_legal addr
  | LDX => exact loaded_keeps toX_legal addr
  | LDY => exact loaded_keeps toY_legal addr
  | CMP | CPX | CPY =>
    simp only [call, opCMP, opCPX, opCPY]
    exact loaded_keeps (compare_legal _) addr
  | BIT => exact opBIT_keeps addr
  | BITI => exact opBITI_keeps addr
  | ASL | LSR | ROL | ROR =>
    simp only [call, opASL, opLSR, opROL, opROR]
    exact shifted_keeps _ addr
  | INC | DEC =>
    simp only [call, opINC, opDEC]
    exact stepByte_keeps _ addr
  | BCC | BCS | BEQ | BNE | BPL | BMI | BVC | BVS =>
    simp only [call, opBCC, opBCS, opBEQ, opBNE, opBPL, opBMI, opBVC, opBVS]
    exact branch_keeps _ addr
  | CLC | CLD | CLI | CLV =>
    simp only [call, opCLC, opCLD, opCLI, opCLV]
    exact implied_keeps (fun s => clear_legal (by decide) s) addr
  | SEC | SED | SEI =>
    simp only [call, opSEC, opSED, opSEI]
    exact implied_keeps (fun s => set_legal (by decide) s) addr
  | DEX | INX | TAX | TSX =>
    simp only [call, opDEX, opINX, opTAX, opTSX]
    exact implied_keeps (fun s => toX_legal s _) addr
  | DEY | INY | TAY =>
    simp only [call, opDEY, opINY, opTAY]
    exact implied_keeps (fun s => toY_legal s _) addr
  | TXA | TYA | INCA | DECA =>
    simp only [call, opTXA, opTYA, opINCA, opDECA]
    exact implied_keeps (fun s => toA_legal s _) addr
  | NOP | KIL =>
    simp only [call, opNOP, opKIL]
    exact implied_keeps .refl addr
  | TXS | WAI | STP =>
    simp only [call, opTXS, opWAI, opSTP]
    refine implied_keeps ?_ addr
    intro s
    exact ⟨rfl, rfl, rfl, rfl, rfl, id⟩
  | JMP => exact implied_keeps (fun s => jump_legal s addr) addr
  | JSR => exact opJSR_keeps addr
  | BRA =>
    exact Keeps.get.bind fun _ => Keeps.bind (regs_keeps fun s => jump_legal s addr) fun _ =>
      Keeps.pure _
  | BBR | BBS =>
    simp only [call, opBBR, opBBS]
    exact branchOnBit_keeps _ addr
  | RMB => exact setBit fun m bit => m &&& ~~~bit
  | SMB => exact setBit fun m bit => m ||| bit
  | TSB | TRB =>
    simp only [call, opTSB, opTRB]
    exact testAndWrite_keeps _ addr
  | PHA | PHX | PHY | PHP =>
    simp only [call, opPHA, opPHX, opPHY, opPHP]
    exact pushed_keeps _ addr
  | PLA => exact popped_keeps toA_legal addr
  | PLX => exact popped_keeps toX_legal addr
  | PLY => exact popped_keeps toY_legal addr
  | PLP =>
    simp only [call, opPLP]
    refine popped_keeps ?_ addr
    intro s m
    exact ⟨rfl, rfl, rfl, rfl, rfl, fun _ => statusOk_pulled m⟩
  | RTI => exact opRTI_keeps addr
  | RTS => exact opRTS_keeps addr
  | BRK => exact opBRK_keeps pull addr
  | STA | STX | STY | STZ | SAX =>
    simp only [call, opSTA, opSTX, opSTY, opSTZ, opSAX]
    exact stored_keeps _ addr
  | SLO | RLA | SRE =>
    simp only [call, opSLO, opRLA, opSRE, opASL, opROL, opLSR, opORA, opAND, opEOR]
    exact both_keeps addr (shifted_keeps _ addr) (toAFrom _)
  | RRA =>
    simp only [call, opRRA, opROR]
    exact both_keeps addr (shifted_keeps _ addr) (opADC_keeps addr)
  | DCP =>
    simp only [call, opDCP, opCMP]
    exact stepThen_keeps _ addr (loaded_keeps (compare_legal _) addr)
  | ISC =>
    simp only [call, opISC]
    exact stepThen_keeps _ addr (opSBC_keeps addr)
  | LAX => exact opLAX_keeps addr
  | LXA => exact opLXA_keeps addr
  | LAS => exact opLAS_keeps addr
  | ANC => exact opANC_keeps addr
  | ALR => exact opALR_keeps addr
  | ARR => exact loaded_keeps andRotate_legal addr
  | AXS => exact opAXS_keeps addr
  | AHX | SHY | SHX =>
    simp only [call, opAHX, opSHY, opSHX]
    exact Keeps.get.bind fun _ => storeAndHigh_keeps _ _ _
  | TAS => exact opTAS_keeps addr

/-! ## The parts of a step -/

/-- An instruction fetched, with its operand found. -/
structure Decoded (ω : Type) where
  info : Opcode
  addr : BitVec 16
  extra : ℕ
  core : MOS6502 ω

def decode (c : MOS6502 ω) : Decoded ω :=
  let (op, c') := fetch c
  let info := opcode c.cmos op
  let ((addr, extra), core) := operand info.mode (pagePenalty c.cmos op) { c' with curOp := op }
  ⟨info, addr, extra, core⟩

/-- Call the decoded instruction and count its cycles. -/
def perform (w : Wiring ω) (d : Decoded ω) : Exec ω ℕ := do
  let more ← call w d.info.fn d.addr
  addCycles (d.info.cycles + (d.extra + more))

instance : IsPreorder CPU6502State Kept where
  refl := .refl
  trans _ _ _ := .trans

omit [IBus ω] in
theorem addCycles_keeps {r : ω → ω → Prop} [IsPreorder ω r] (n : ℕ) :
    Keeps (Framed Kept r) (addCycles n) := fun _ =>
  ⟨⟨rfl, rfl, rfl, rfl, id⟩, rfl, Std.Refl.refl _⟩

omit [IBus ω] in
theorem Framed.kept {r : ω → ω → Prop} (c c' : MOS6502 ω) (h : Framed Legal r c c') :
    Framed Kept r c c' := ⟨h.regs.kept, h.cmos, h.bus⟩

theorem perform_keeps {r : ω → ω → Prop} [Closed r] (w : Wiring ω)
    (pull : ∀ f ∈ w.onVectorPull, ∀ x, r x (f x)) (d : Decoded ω) :
    Keeps (Framed Kept r) (perform w d) :=
  ((call_keeps w pull d.info.fn d.addr).mono Framed.kept).bind fun _ => addCycles_keeps _

theorem interrupt_keeps {r : ω → ω → Prop} [Closed r] (w : Wiring ω)
    (pull : ∀ f ∈ w.onVectorPull, ∀ x, r x (f x)) (vector : BitVec 16) :
    Keeps (Framed Kept r) (interrupt w vector) :=
  ((enter_keeps pull _ vector).mono Framed.kept).bind fun _ => addCycles_keeps _

theorem execute_eq (w : Wiring ω) (c : MOS6502 ω) :
    execute w c =
      if (observe w c.state.pc (decode c).core).1
      then perform w (decode c) (observe w c.state.pc (decode c).core).2
      else (1, (observe w c.state.pc (decode c).core).2) := by
  have parts : execute w c = (observe w c.state.pc >>= fun cont =>
      if cont then perform w (decode c) else return 1) (decode c).core := rfl
  rw [parts]
  change (if (observe w c.state.pc (decode c).core).1 then perform w (decode c) else return 1)
    (observe w c.state.pc (decode c).core).2 = _
  split <;> rfl

theorem decode_frame {r : ω → ω → Prop} [ReadClosed r] (c : MOS6502 ω) :
    Framed PcOnly r c (decode c).core := by
  have fetched : Framed PcOnly r c (fetch c).2 := fetch_pcOnly c
  have found : Framed PcOnly r { (fetch c).2 with curOp := (fetch c).1 } (decode c).core :=
    operand_pcOnly _ _ _
  exact ⟨IsTrans.trans _ _ _ fetched.regs found.regs, found.cmos.trans fetched.cmos,
    IsTrans.trans _ _ _ fetched.bus found.bus⟩

/-- The registers of a step that takes no NMI, before anything else happens. -/
def CPU6502State.sampled (s : CPU6502State) : CPU6502State :=
  { s with waiting := false, nmiPrev := s.nmiLine }

def MOS6502.sampled (c : MOS6502 ω) : MOS6502 ω := { c with state := c.state.sampled }

/-- An IRQ that the core takes now. -/
def CPU6502State.irqTaken (s : CPU6502State) : Bool := s.irqLine && !flag s.p FLAG_I

/-- The step executes an instruction: the core is awake and takes no interrupt. -/
def CPU6502State.executes (s : CPU6502State) : Bool := !s.asleep && !s.nmiEdge && !s.irqTaken

theorem step_asleep (w : Wiring ω) {c : MOS6502 ω} (h : c.state.asleep = true) :
    step w c = addCycles 1 c := by
  change (if c.state.asleep then addCycles 1 else _) c = _
  rw [if_pos h]

theorem step_nmi (w : Wiring ω) {c : MOS6502 ω} (awake : c.state.asleep = false)
    (edge : c.state.nmiEdge = true) :
    step w c = interrupt w 0xFFFA
      { c with state := { c.state with waiting := false, nmiPrev := true } } := by
  change (if c.state.asleep then addCycles 1 else _) c = _
  rw [if_neg (by simp [awake])]
  change (if c.state.nmiEdge then _ else _ : Exec ω ℕ)
    { c with state := { c.state with waiting := false } } = _
  rw [if_pos edge]
  rfl

theorem step_irq (w : Wiring ω) {c : MOS6502 ω} (awake : c.state.asleep = false)
    (edge : c.state.nmiEdge = false) (irq : c.state.irqTaken = true) :
    step w c = interrupt w 0xFFFE c.sampled := by
  change (if c.state.asleep then addCycles 1 else _) c = _
  rw [if_neg (by simp [awake])]
  change (if c.state.nmiEdge then _ else _ : Exec ω ℕ)
    { c with state := { c.state with waiting := false } } = _
  rw [if_neg (by simp [edge])]
  change (if c.state.irqTaken then interrupt w 0xFFFE else _) c.sampled = _
  rw [if_pos irq]

/-- The step of a core with configured intercepts. -/
theorem step_hooked (w : Wiring ω) {hook : PcInterceptHook ω} (hooked : w.pcHook = some hook)
    {c : MOS6502 ω} (h : c.state.executes = true) :
    step w c =
      if hook.armed c.state.pc then
        if (hook.fire c.sampled).1 then addCycles 6 (hook.fire c.sampled).2
        else execute w (hook.fire c.sampled).2
      else execute w c.sampled := by
  simp only [CPU6502State.executes, Bool.and_eq_true, Bool.not_eq_true'] at h
  obtain ⟨⟨awake, edge⟩, irq⟩ := h
  change (if c.state.asleep then addCycles 1 else _) c = _
  rw [if_neg (by simp [awake])]
  change (if c.state.nmiEdge then _ else _ : Exec ω ℕ)
    { c with state := { c.state with waiting := false } } = _
  rw [if_neg (by simp [edge])]
  change (if c.state.irqTaken then interrupt w 0xFFFE else _) c.sampled = _
  rw [if_neg (by simp [irq]), hooked]
  change (if hook.armed c.state.pc then _ else _ : Exec ω ℕ) c.sampled = _
  split
  · change (if (hook.fire c.sampled).1 then addCycles 6 else execute w)
      (hook.fire c.sampled).2 = _
    split <;> rfl
  · rfl

theorem step_execute (w : Wiring ω) (plain : w.pcHook = none) {c : MOS6502 ω}
    (h : c.state.executes = true) : step w c = execute w c.sampled := by
  simp only [CPU6502State.executes, Bool.and_eq_true, Bool.not_eq_true'] at h
  obtain ⟨⟨awake, edge⟩, irq⟩ := h
  change (if c.state.asleep then addCycles 1 else _) c = _
  rw [if_neg (by simp [awake])]
  change (if c.state.nmiEdge then _ else _ : Exec ω ℕ)
    { c with state := { c.state with waiting := false } } = _
  rw [if_neg (by simp [edge])]
  change (if c.state.irqTaken then interrupt w 0xFFFE else _) c.sampled = _
  rw [if_neg (by simp [irq]), plain]

/-! ## The instruction of a step -/

/-- The vector of the interrupt that the next step takes. -/
def interruptTaken (s : CPU6502State) : Option (BitVec 16) :=
  if s.asleep then none
  else if s.nmiEdge then some 0xFFFA
  else if s.irqTaken then some 0xFFFE
  else none

/-- The instruction that the observer lets the core execute, and the core it runs on. -/
def instructed (w : Wiring ω) (c : MOS6502 ω) : Option (Decoded ω × MOS6502 ω) :=
  let (cont, c') := observe w c.state.pc (decode c).core
  if cont then some (decode c, c') else none

/-- The instruction of the next step, where no interrupt or intercept comes instead. -/
def instruction (w : Wiring ω) (c : MOS6502 ω) : Option (Decoded ω × MOS6502 ω) :=
  if c.state.executes then
    match w.pcHook with
    | none => instructed w c.sampled
    | some hook =>
      if hook.armed c.state.pc then
        if (hook.fire c.sampled).1 then none else instructed w (hook.fire c.sampled).2
      else instructed w c.sampled
  else none

theorem execute_instructed {w : Wiring ω} {c c' : MOS6502 ω} {d : Decoded ω}
    (h : instructed w c = some (d, c')) : execute w c = perform w d c' := by
  change (if (observe w c.state.pc (decode c).core).1 then
    some (decode c, (observe w c.state.pc (decode c).core).2) else none) = _ at h
  split at h
  next cont =>
    obtain ⟨rfl, rfl⟩ := Prod.mk.inj (Option.some.inj h)
    rw [execute_eq, if_pos cont]
  · cases h

theorem step_instruction {w : Wiring ω} {c c' : MOS6502 ω} {d : Decoded ω}
    (h : instruction w c = some (d, c')) : step w c = perform w d c' := by
  unfold instruction at h
  split at h
  next executes =>
    cases hooked : w.pcHook with
    | none =>
      rw [hooked] at h
      rw [step_execute w hooked executes, execute_instructed h]
    | some hook =>
      rw [hooked] at h
      dsimp only at h
      rw [step_hooked w hooked executes]
      split at h
      next armed =>
        split at h
        · cases h
        next declined => rw [if_pos armed, if_neg declined, execute_instructed h]
      next unarmed => rw [if_neg unarmed, execute_instructed h]
  · cases h

/-! ## The interrupt lines -/

theorem execute_framed {r : ω → ω → Prop} [Closed r] {w : Wiring ω}
    (unobserved : w.observer = none) (pull : ∀ f ∈ w.onVectorPull, ∀ x, r x (f x))
    (c : MOS6502 ω) : Framed Kept r c (execute w c).2 := by
  have decoded : Framed PcOnly r c (decode c).core := decode_frame c
  have performed := perform_keeps w pull (decode c) (decode c).core
  have entire : execute w c = perform w (decode c) (decode c).core := by
    rw [execute_eq]
    simp only [observe, unobserved]
    rfl
  rw [entire]
  exact ⟨decoded.regs.legal.kept.trans performed.regs, performed.cmos.trans decoded.cmos,
    IsTrans.trans _ _ _ decoded.bus performed.bus⟩

/-- A step of an awake core keeps the NMI line and remembers its level. -/
theorem step_nmiLine {r : ω → ω → Prop} [Closed r] {w : Wiring ω}
    (unobserved : w.observer = none) (plain : w.pcHook = none)
    (pull : ∀ f ∈ w.onVectorPull, ∀ x, r x (f x)) {c : MOS6502 ω}
    (awake : c.state.asleep = false) :
    (step w c).2.state.nmiLine = c.state.nmiLine ∧
      (step w c).2.state.nmiPrev = c.state.nmiLine ∧ r c.bus (step w c).2.bus := by
  cases edge : c.state.nmiEdge with
  | true =>
    have high : c.state.nmiLine = true := by
      simp only [CPU6502State.nmiEdge, Bool.and_eq_true] at edge
      exact edge.1
    rw [step_nmi w awake edge]
    have frame := interrupt_keeps (r := r) w pull 0xFFFA
      { c with state := { c.state with waiting := false, nmiPrev := true } }
    exact ⟨frame.regs.nmiLine, frame.regs.nmiPrev.trans high.symm, frame.bus⟩
  | false =>
    cases irq : c.state.irqTaken with
    | true =>
      rw [step_irq w awake edge irq]
      have frame := interrupt_keeps (r := r) w pull 0xFFFE c.sampled
      exact ⟨frame.regs.nmiLine, frame.regs.nmiPrev, frame.bus⟩
    | false =>
      rw [step_execute w plain (by simp [CPU6502State.executes, awake, edge, irq])]
      have frame := execute_framed (r := r) unobserved pull c.sampled
      exact ⟨frame.regs.nmiLine, frame.regs.nmiPrev, frame.bus⟩

end Frame
end Mmemu.Source.Cpu6502
