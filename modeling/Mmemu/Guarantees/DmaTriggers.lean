import Mmemu.Guarantees.DmaAddresses
import Mmemu.Source.F018bDma
import Mathlib.Tactic.FinCases

/-!
# F018B DMA: the two enhanced triggers

A write to ETRIG clears the options, then fetches the first job. A write to
ETRIGMAPD with a map controller fetches first and clears afterwards, so what the
first job's options set is lost, for the job and for its chain; without one it
takes the low byte of the list address from `$D705`, which it has not written.
-/
namespace Mmemu.Guarantees.DmaTriggers
open Mmemu.Source.F018bDma Mmemu.Guarantees.DmaAddresses

variable {ι : Type}

/-! ## What a transfer can see of the controller -/

@[simp] theorem zero_enabled : LineMode.zero.enabled = false := by decide

/-- The trigger byte written to ETRIG, and to ETRIGMAPD. -/
def etrig (c : Wiring ι) (s : Dma) (w : World ι) (val : BitVec 8) : Dma × World ι :=
  (ioWrite c w.mem s 0x05 val, w)
/-- The controller once a trigger has stored its byte in `$D700`. -/
def armed (s : Dma) (val : BitVec 8) : Dma := setReg { s with enhancedMode := true } 0x00 val

/-- An option the late reset takes from the first job itself: transparency on,
spiral mode, or a line mode. -/
def Wiped (o : BitVec 8 × BitVec 8) : Prop :=
  o.1 = 0x07 ∨ o.1 = 0x53 ∨ (o.1 = 0x8F ∨ o.1 = 0x9F) ∧ o.2 &&& 0x80 ≠ 0#8

/-- An option the late reset takes from the rest of the chain. -/
def Inherited (o : BitVec 8 × BitVec 8) : Prop :=
  o.1 = 0x80 ∨ o.1 = 0x81 ∨ o.1 = 0x86 ∨ (0x87 ≤ o.1 ∧ o.1 ≤ 0x8F) ∨ (0x97 ≤ o.1 ∧ o.1 ≤ 0x9F)

/-- Options under which a running job does nothing out of the ordinary. -/
structure Quiet (x : Options) : Prop where
  transparency : x.transparency &&& 0x100#16 ≠ 0#16
  spiral : x.spiralMode = .off
  srcLine : x.srcLine.enabled = false
  dstLine : x.dstLine.enabled = false

theorem option_enabled (lm : LineMode) (option arg : BitVec 8) (off : lm.enabled = false)
    (control : option &&& 0x0F = 0x0F → arg &&& 0x80 = 0#8) :
    (lm.option option arg).enabled = false := by
  unfold LineMode.option
  split <;> try exact off
  rename_i low
  have same : option &&& 0x0F = 0x0F := BitVec.eq_of_toNat_eq low
  simpa [LineMode.enabled] using control same

/-- The control byte of a line mode is the last of its options. -/
theorem control_dst : ∀ option : BitVec 8, 0x87#8 ≤ option ∧ option ≤ 0x8F#8 →
    option &&& 0x0F = 0x0F → option = 0x8F := by decide

theorem control_src : ∀ option : BitVec 8, 0x97#8 ≤ option ∧ option ≤ 0x9F#8 →
    option &&& 0x0F = 0x0F → option = 0x9F := by decide

theorem step_quiet {x : Options} {o : BitVec 8 × BitVec 8} (h : Quiet x) (spared : ¬Wiped o) :
    Quiet (x.step o) := by
  rcases o with ⟨option, arg⟩
  unfold Options.step stateOption
  dsimp only
  split
  · unfold paramOption
    split <;> try exact ⟨h.transparency, h.spiral, h.srcLine, h.dstLine⟩
    split
    · rename_i range
      refine ⟨h.transparency, h.spiral, h.srcLine, option_enabled _ _ _ h.dstLine ?_⟩
      intro low
      by_contra on
      exact spared (Or.inr (Or.inr ⟨Or.inl (control_dst _ range low), on⟩))
    · split
      · rename_i range
        refine ⟨h.transparency, h.spiral, option_enabled _ _ _ h.srcLine ?_, h.dstLine⟩
        intro low
        by_contra on
        exact spared (Or.inr (Or.inr ⟨Or.inr (control_src _ range low), on⟩))
      · exact ⟨h.transparency, h.spiral, h.srcLine, h.dstLine⟩
  · unfold flagOption
    split
    · refine ⟨?_, h.spiral, h.srcLine, h.dstLine⟩
      change (x.transparency ||| 0x100#16) &&& 0x100#16 ≠ 0#16
      rw [BitVec.and_or_distrib_right, BitVec.and_self, ne_eq, BitVec.or_eq_zero_iff]
      exact fun zero => absurd zero.2 (by decide)
    · rename_i on
      exact absurd (Or.inl (BitVec.eq_of_toNat_eq on)) spared
    · exact ⟨h.transparency, h.spiral, h.srcLine, h.dstLine⟩
    · exact ⟨h.transparency, h.spiral, h.srcLine, h.dstLine⟩
    · rename_i on
      exact absurd (Or.inr (Or.inl (BitVec.eq_of_toNat_eq on))) spared
    · exact ⟨h.transparency, h.spiral, h.srcLine, h.dstLine⟩

/-- The list address both triggers take with the bank and megabyte registers zero. -/
def listAt (s : Dma) (val : BitVec 8) : BitVec 32 := (word16 val (s.regs 0x01)).setWidth 32

/-- The first job's options. -/
def firstOptions (s : Dma) (val : BitVec 8) (mem : BitVec 28 → BitVec 8) :
    List (BitVec 8 × BitVec 8) := optionsAt mem 128 (listAt s val)

/-- The first job's command byte. -/
def firstCommand (s : Dma) (val : BitVec 8) (mem : BitVec 28 → BitVec 8) : BitVec 8 :=
  read8 mem (afterOptions mem 128 (listAt s val))

/-- What the mapped trigger's late reset takes away is not there: the first job sets
no mode, its chain inherits nothing, and no megabyte is left over from an earlier
transfer, unless the job sets it itself. -/
structure Spared (s : Dma) (val : BitVec 8) (mem : BitVec 28 → BitVec 8) : Prop where
  modes : ∀ o ∈ firstOptions s val mem, ¬Wiped o
  chain : firstCommand s val mem &&& 0x04 ≠ 0#8 → ∀ o ∈ firstOptions s val mem, ¬Inherited o
  srcMB : s.inheritSrc.mb = 0 ∨ ∃ o ∈ firstOptions s val mem, o.1 = 0x80
  dstMB : s.inheritDst.mb = 0 ∨ ∃ o ∈ firstOptions s val mem, o.1 = 0x81

/-- The controller with that job under way. -/
structure Trapped (s : Dma) : Prop where
  op : s.currentOp = .copy
  bytes : s.bytesRemaining = 1
  chain : s.hasChain = false
  modulo : s.moduloActive = false
  srcHold : s.src.hold = false
  dstHold : s.dst.hold = false
  srcStep : s.src.step = 0x0100
  dstStep : s.dst.step = 0x0100
  srcIo : s.src.io = false
  dstIo : s.dst.io = false
  src : (busAddr s.src.addr).setWidth 20 = 0x20000#20
  dst : (busAddr s.dst.addr).setWidth 20 = 0x20001#20

theorem Trapped.awake {s : Dma} (h : Trapped s) : Trapped { s with active := true } :=
  ⟨h.op, h.bytes, h.chain, h.modulo, h.srcHold, h.dstHold, h.srcStep, h.dstStep, h.srcIo, h.dstIo,
    h.src, h.dst⟩

theorem Trapped.reset {s : Dma} (h : Trapped s) : Trapped (resetOptions s) :=
  ⟨h.op, h.bytes, h.chain, h.modulo, h.srcHold, h.dstHold, h.srcStep, h.dstStep, h.srcIo, h.dstIo,
    h.src, h.dst⟩

/-- With its options reset, the job is a plain one. -/
theorem Trapped.running {s : Dma} (h : Trapped s) (active : s.active = true) :
    Running (resetOptions s) :=
  ⟨resetOptions_off s, active, Or.inl h.op, h.srcHold, h.dstHold, h.srcStep, h.dstStep, h.srcIo,
    h.dstIo, h.modulo⟩

end Mmemu.Guarantees.DmaTriggers
