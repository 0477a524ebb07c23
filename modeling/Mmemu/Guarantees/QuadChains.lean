import Mmemu.Source.Cpu45gs02Words

/-!
# 32-bit arithmetic as chains of bytes

ADCQ, SBCQ and CMPQ against four 8-bit instructions that take the bytes of Q through the
accumulator, and the 32-bit shifts of memory against four shifts of bytes. A shift to the right
takes the high byte first, which N is from.
-/
namespace Mmemu.Guarantees.QuadChains
open Mmemu.Source.MemoryBus Mmemu.Source.Cpu45gs02
open Mmemu.Source.CpuZ80 (overlaid shown_write8)
open Mmemu.Source.DisasmZ80 (shownMemory)
open Mmemu.Library.Copying Mmemu.Library.WordBytes
open Mmemu.Library.StateFrame (bind_apply get_apply pure_apply)
open Mmemu.Source.Cpu6502 (flag carryTo FLAG_C FLAG_Z FLAG_D FLAG_V FLAG_N)

/-! ## Bytes and the word -/

section Bytes
variable {a v : BitVec 32} {c : Bool} {r0 r1 r2 r3 p0 p1 p2 p3 : BitVec 8}

theorem sum_bytes (first : Sum (byteOf a 0) (byteOf v 0) c r0 p0)
    (second : Sum (byteOf a 1) (byteOf v 1) (flag p0 FLAG_C) r1 p1)
    (third : Sum (byteOf a 2) (byteOf v 2) (flag p1 FLAG_C) r2 p2)
    (last : Sum (byteOf a 3) (byteOf v 3) (flag p2 FLAG_C) r3 p3) :
    Sum a v c (r3 ++ r2 ++ r1 ++ r0) p3 := by
  have total0 := first.total
  have total1 := second.total
  have total2 := third.total
  have total3 := last.total
  refine ⟨?_, ?_, ?_⟩
  · rw [toNat_bytes a, toNat_bytes v, toNat_word]
    omega
  · rw [last.overflow, msb_byte a, msb_byte v, msb_word]
  · rw [last.negative, msb_word]

theorem difference_bytes (first : Difference (byteOf a 0) (byteOf v 0) c r0 p0)
    (second : Difference (byteOf a 1) (byteOf v 1) (flag p0 FLAG_C) r1 p1)
    (third : Difference (byteOf a 2) (byteOf v 2) (flag p1 FLAG_C) r2 p2)
    (last : Difference (byteOf a 3) (byteOf v 3) (flag p2 FLAG_C) r3 p3) :
    Difference a v c (r3 ++ r2 ++ r1 ++ r0) p3 := by
  have total0 := first.total
  have total1 := second.total
  have total2 := third.total
  have total3 := last.total
  refine ⟨?_, ?_, ?_⟩
  · rw [toNat_bytes a, toNat_bytes v, toNat_word]
    omega
  · rw [last.overflow, msb_byte a, msb_byte v, msb_word]
  · rw [last.negative, msb_word]

end Bytes

section Chains
variable {ω : Type} [MachineBus ω]

/-! ## Through the accumulator -/

/-- A byte of Q goes through the accumulator. -/
def through (f : Fn) (o : Operand) (byte : BitVec 8) : Exec ω (BitVec 8) := do
  regs fun s => { s with a := byte }
  call 0 f o
  return (← get).state.a

/-- Four 8-bit instructions from the low to the high byte. -/
def chain (f : Fn) (o : Operand) : Exec ω (BitVec 32) := do
  let q := (← get).state.q
  let r0 ← through f o (byteOf q 0)
  let r1 ← through f (plus o 1) (byteOf q 1)
  let r2 ← through f (plus o 2) (byteOf q 2)
  let r3 ← through f (plus o 3) (byteOf q 3)
  return r3 ++ r2 ++ r1 ++ r0

/-- An 8-bit instruction in binary mode: its operation changes A and the flags only. -/
structure Binary (f : Fn) (op : CPU45GS02State → BitVec 8 → CPU45GS02State) : Prop where
  calls : ∀ (o : Operand) (c : MOS45GS02 ω), o ≠ .reg → flag c.state.p FLAG_D = false →
    call 0 f o c = ((), withState (readAt o c).2 (op c.state (readAt o c).1))
  changes : ∀ s v, op s v = { s with a := (op s v).a, p := (op s v).p }
  mode : ∀ s v, flag (op s v).p FLAG_D = flag s.p FLAG_D

theorem binary_ADC : Binary (ω := ω) .ADC (·.adcBinary ·) where
  calls o c inMemory binary := by
    have state : (readAt o c).2.state = c.state := readAt_state c
    change ((), withState (readAt o c).2 ((readAt o c).2.state.doAdc8 (readAt o c).1)) = _
    rw [state, CPU45GS02State.doAdc8, if_neg (by simp [binary])]
  changes _ _ := rfl
  mode s v := by
    unfold CPU45GS02State.adcBinary CPU45GS02State.updateNZ
    dsimp only
    rw [nz_eq_nzOf]
    exact (arithmetic_flags s.p _ _ _).2.2.2.2

theorem binary_SBC : Binary (ω := ω) .SBC (·.sbcBinary ·) where
  calls o c inMemory binary := by
    have state : (readAt o c).2.state = c.state := readAt_state c
    change ((), withState (readAt o c).2 ((readAt o c).2.state.doSbc8 (readAt o c).1)) = _
    rw [state, CPU45GS02State.doSbc8, if_neg (by simp [binary])]
  changes _ _ := rfl
  mode s v := by
    unfold CPU45GS02State.sbcBinary CPU45GS02State.updateNZ
    dsimp only
    rw [nz_eq_nzOf]
    exact (arithmetic_flags s.p _ _ _).2.2.2.2

/-- Within a chain only A and the flags differ, and the mode is binary. -/
structure Within (s t : CPU45GS02State) : Prop where
  only : t = { s with a := t.a, p := t.p }
  clear : flag t.p FLAG_D = false

/-- One instruction of the chain. -/
theorem through_eq {f : Fn} {op : CPU45GS02State → BitVec 8 → CPU45GS02State}
    (binary : Binary (ω := ω) f op) {o : Operand} (inMemory : o ≠ .reg) (byte : BitVec 8)
    (c : MOS45GS02 ω) {t : CPU45GS02State} (within : Within c.state t) :
    ∃ t', t' = op { t with a := byte } (readAt o c).1 ∧ Within (readAt o c).2.state t' ∧
      through f o byte (withState c t) = (t'.a, withState (readAt o c).2 t') := by
  have mode : t.hypervisor = c.state.hypervisor := by rw [within.only]
  have called := binary.calls o (withState c { t with a := byte }) inMemory within.clear
  rw [readAt_withState inMemory c (s := { t with a := byte }) mode] at called
  refine ⟨_, rfl, ⟨?_, ?_⟩, ?_⟩
  · have changes := binary.changes { t with a := byte } (readAt o c).1
    rw [within.only] at changes
    rw [readAt_state, within.only]
    exact changes
  · rw [binary.mode]
    exact within.clear
  · change (((call 0 f o (withState c { t with a := byte })).2).state.a,
      (call 0 f o (withState c { t with a := byte })).2) = _
    rw [called]
    rfl

/-- What four instructions leave: each takes up the flags of the one before. -/
theorem chain_eq {f : Fn} {op : CPU45GS02State → BitVec 8 → CPU45GS02State}
    (binary : Binary (ω := ω) f op) {o : Operand} (inMemory : o ≠ .reg) (c : MOS45GS02 ω)
    (clear : flag c.state.p FLAG_D = false) :
    ∃ s0 s1 s2 s3 : CPU45GS02State,
      s0 = op { c.state with a := byteOf c.state.q 0 } (byteOf (readQ o c).1 0) ∧
      s1 = op { s0 with a := byteOf c.state.q 1 } (byteOf (readQ o c).1 1) ∧
      s2 = op { s1 with a := byteOf c.state.q 2 } (byteOf (readQ o c).1 2) ∧
      s3 = op { s2 with a := byteOf c.state.q 3 } (byteOf (readQ o c).1 3) ∧
      Within (readQ o c).2.state s3 ∧
      chain f o c = (s3.a ++ s2.a ++ s1.a ++ s0.a, withState (readQ o c).2 s3) := by
  obtain ⟨s0, op0, within0, run0⟩ := through_eq binary inMemory (byteOf c.state.q 0) c ⟨rfl, clear⟩
  obtain ⟨s1, op1, within1, run1⟩ :=
    through_eq binary (plus_ne_reg inMemory 1) (byteOf c.state.q 1) _ within0
  obtain ⟨s2, op2, within2, run2⟩ :=
    through_eq binary (plus_ne_reg inMemory 2) (byteOf c.state.q 2) _ within1
  obtain ⟨s3, op3, within3, run3⟩ :=
    through_eq binary (plus_ne_reg inMemory 3) (byteOf c.state.q 3) _ within2
  have read : readQ o c = _ := congrFun (readQ_eq inMemory) c
  obtain ⟨v0, v1, v2, v3⟩ := byteOf_word (readAt o c).1 (readAt (plus o 1) (readAt o c).2).1
    (readAt (plus o 2) (readAt (plus o 1) (readAt o c).2).2).1
    (readAt (plus o 3) (readAt (plus o 2) (readAt (plus o 1) (readAt o c).2).2).2).1
  refine ⟨s0, s1, s2, s3, ?_, ?_, ?_, ?_, ?_, ?_⟩
  · rw [op0, read]
    exact congrArg _ v0.symm
  · rw [op1, read]
    exact congrArg _ v1.symm
  · rw [op2, read]
    exact congrArg _ v2.symm
  · rw [op3, read]
    exact congrArg _ v3.symm
  · rw [read]
    exact within3
  · rw [read]
    have start : withState c c.state = c := rfl
    rw [start] at run0
    simp only [chain, bind_apply, get_apply, pure_apply, run0, run1, run2, run3]

/-- What each instruction relates, A and C before it and after it, the four relate byte by byte. -/
theorem chain_relates {f : Fn} {op : CPU45GS02State → BitVec 8 → CPU45GS02State}
    {R : BitVec 8 → BitVec 8 → Bool → BitVec 8 → BitVec 8 → Prop} (binary : Binary (ω := ω) f op)
    (relates : ∀ s v, R s.a v (flag s.p FLAG_C) (op s v).a (op s v).p) {o : Operand}
    (inMemory : o ≠ .reg) (c : MOS45GS02 ω) (clear : flag c.state.p FLAG_D = false) :
    ∃ r0 r1 r2 p0 p1 p2 s, Within c.state s ∧
      chain f o c = (s.a ++ r2 ++ r1 ++ r0, withState (readQ o c).2 s) ∧
      R (byteOf c.state.q 0) (byteOf (readQ o c).1 0) (flag c.state.p FLAG_C) r0 p0 ∧
      R (byteOf c.state.q 1) (byteOf (readQ o c).1 1) (flag p0 FLAG_C) r1 p1 ∧
      R (byteOf c.state.q 2) (byteOf (readQ o c).1 2) (flag p1 FLAG_C) r2 p2 ∧
      R (byteOf c.state.q 3) (byteOf (readQ o c).1 3) (flag p2 FLAG_C) s.a s.p := by
  obtain ⟨s0, s1, s2, s3, op0, op1, op2, op3, within, run⟩ := chain_eq binary inMemory c clear
  have first := relates { c.state with a := byteOf c.state.q 0 } (byteOf (readQ o c).1 0)
  have second := relates { s0 with a := byteOf c.state.q 1 } (byteOf (readQ o c).1 1)
  have third := relates { s1 with a := byteOf c.state.q 2 } (byteOf (readQ o c).1 2)
  have last := relates { s2 with a := byteOf c.state.q 3 } (byteOf (readQ o c).1 3)
  rw [← op0] at first
  rw [← op1] at second
  rw [← op2] at third
  rw [← op3] at last
  rw [readQ_state inMemory] at within
  exact ⟨s0.a, s1.a, s2.a, s0.p, s1.p, s2.p, s3, within, run, first, second, third, last⟩

theorem chain_sum {o : Operand} (inMemory : o ≠ .reg) (c : MOS45GS02 ω)
    (clear : flag c.state.p FLAG_D = false) : ∃ r s, Within c.state s ∧
      chain .ADC o c = (r, withState (readQ o c).2 s) ∧
      Sum c.state.q (readQ o c).1 (flag c.state.p FLAG_C) r s.p := by
  obtain ⟨r0, r1, r2, p0, p1, p2, s, within, run, first, second, third, last⟩ :=
    chain_relates (R := Sum) binary_ADC adcBinary_sum inMemory c clear
  exact ⟨_, s, within, run, sum_bytes first second third last⟩

theorem chain_difference {o : Operand} (inMemory : o ≠ .reg) (c : MOS45GS02 ω)
    (clear : flag c.state.p FLAG_D = false) : ∃ r s, Within c.state s ∧
      chain .SBC o c = (r, withState (readQ o c).2 s) ∧
      Difference c.state.q (readQ o c).1 (flag c.state.p FLAG_C) r s.p := by
  obtain ⟨r0, r1, r2, p0, p1, p2, s, within, run, first, second, third, last⟩ :=
    chain_relates (R := Difference) binary_SBC sbcBinary_difference inMemory c clear
  exact ⟨_, s, within, run, difference_bytes first second third last⟩

/-! ## Arithmetic on Q -/

/-- The chain that leaves its result in Q. -/
def chainQ (f : Fn) (o : Operand) : Exec ω (BitVec 32) := do
  let r ← chain f o
  regs fun s => s.setQ r
  return r

/-- The chain that starts with carry set and stores nothing. -/
def compareChain (o : Operand) : Exec ω (BitVec 32) := do
  let q := (← get).state.q
  call 0 .SEC .reg
  let r ← chain .SBC o
  regs fun s => s.setQ q
  return r

/-- The same but for V: Z is set exactly if the whole result is zero. -/
structure Agrees (quad : MOS45GS02 ω) (chained : BitVec 32 × MOS45GS02 ω) : Prop where
  same : quad = withState chained.2 { chained.2.state with p := quad.state.p }
  carry : flag quad.state.p FLAG_C = flag chained.2.state.p FLAG_C
  negative : flag quad.state.p FLAG_N = flag chained.2.state.p FLAG_N
  zero : flag quad.state.p FLAG_Z = (chained.1 == 0)

/-- An operation on Q that leaves the same word, C and N as the chain. -/
theorem agrees_of_result {o : Operand} {c : MOS45GS02 ω} {p : BitVec 8} {r : BitVec 32}
    {s : CPU45GS02State} (within : Within c.state s)
    (carry : flag (CPU45GS02State.nzOf p r) FLAG_C = flag s.p FLAG_C)
    (negative : flag s.p FLAG_N = r.msb) :
    Agrees (withState (readQ o c).2 { c.state.setQ r with p := CPU45GS02State.nzOf p r })
      (r, withState (readQ o c).2 (s.setQ r)) := by
  obtain ⟨n, z, -, -, -⟩ := nzOf_flags p r
  refine ⟨?_, carry, n.trans negative.symm, z⟩
  rw [within.only]
  rfl

theorem chainQ_eq {f : Fn} {o : Operand} {c : MOS45GS02 ω} {r : BitVec 32} {s : CPU45GS02State}
    (run : chain f o c = (r, withState (readQ o c).2 s)) :
    chainQ f o c = (r, withState (readQ o c).2 (s.setQ r)) := by
  simp only [chainQ, bind_apply, pure_apply, run]
  rfl

theorem adcq_agrees {o : Operand} (inMemory : o ≠ .reg) (c : MOS45GS02 ω)
    (clear : flag c.state.p FLAG_D = false) :
    Agrees (callQ .ADCQ o c).2 (chainQ .ADC o c) ∧
      flag (callQ .ADCQ o c).2.state.p FLAG_V = flag (chainQ .ADC o c).2.state.p FLAG_V := by
  obtain ⟨r, s, within, run, sum⟩ := chain_sum inMemory c clear
  have wide := doAdc32_sum c.state (readQ o c).1
  obtain ⟨result, carry⟩ := sum_unique wide.total sum.total
  obtain ⟨p, changes⟩ := doAdc32_changes c.state (readQ o c).1
  rw [chainQ_eq run, callQ, loadedQ_eq _ inMemory]
  rw [result] at changes wide
  rw [changes] at carry wide ⊢
  exact ⟨agrees_of_result within carry sum.negative, wide.overflow.trans sum.overflow.symm⟩

theorem sbcq_agrees {o : Operand} (inMemory : o ≠ .reg) (c : MOS45GS02 ω)
    (clear : flag c.state.p FLAG_D = false) :
    Agrees (callQ .SBCQ o c).2 (chainQ .SBC o c) ∧
      flag (callQ .SBCQ o c).2.state.p FLAG_V = flag (chainQ .SBC o c).2.state.p FLAG_V := by
  obtain ⟨r, s, within, run, difference⟩ := chain_difference inMemory c clear
  have wide := doSbc32_difference c.state (readQ o c).1
  obtain ⟨result, carry⟩ := difference_unique
    ((Nat.add_assoc _ _ _).symm.trans wide.total) ((Nat.add_assoc _ _ _).symm.trans difference.total)
  obtain ⟨p, changes⟩ := doSbc32_changes c.state (readQ o c).1
  rw [chainQ_eq run, callQ, loadedQ_eq _ inMemory]
  rw [result] at changes wide
  rw [changes] at carry wide ⊢
  exact ⟨agrees_of_result within carry difference.negative,
    wide.overflow.trans difference.overflow.symm⟩

theorem cmpq_agrees {o : Operand} (inMemory : o ≠ .reg) (c : MOS45GS02 ω)
    (clear : flag c.state.p FLAG_D = false) :
    Agrees (callQ .CMPQ o c).2 (compareChain o c) ∧
      flag (callQ .CMPQ o c).2.state.p FLAG_V = flag c.state.p FLAG_V := by
  have all : ∀ p : BitVec 8, flag (p ||| FLAG_C) FLAG_C = true ∧
      flag (p ||| FLAG_C) FLAG_D = flag p FLAG_D := by decide
  have kept_V : ∀ (p : BitVec 8) (on : Bool), flag (carryTo p on) FLAG_V = flag p FLAG_V := by
    decide
  obtain ⟨set_, kept⟩ := all c.state.p
  obtain ⟨r, s, within, run, difference⟩ := chain_difference inMemory
    (withState c { c.state with p := c.state.p ||| FLAG_C }) (kept.trans clear)
  rw [readQ_withState inMemory c (s := { c.state with p := c.state.p ||| FLAG_C }) rfl] at run difference
  have total := difference.total
  rw [show flag (withState c { c.state with p := c.state.p ||| FLAG_C }).state.p FLAG_C = true from set_]
    at total
  obtain ⟨result, carry⟩ := difference_unique
    (doCmp32_difference c.state (readQ o c).1) total
  have chained : compareChain o c = (r, withState (readQ o c).2 (s.setQ c.state.q)) := by
    have start : (call 0 .SEC .reg c).2 = withState c { c.state with p := c.state.p ||| FLAG_C } := rfl
    simp only [compareChain, bind_apply, get_apply, pure_apply, start, run]
    rfl
  obtain ⟨n, z, -, v, -⟩ := nzOf_flags (carryTo c.state.p ((readQ o c).1 ≤ c.state.q)) r
  rw [chained, callQ, loadedQ_eq _ inMemory, CPU45GS02State.doCmp32]
  unfold CPU45GS02State.doCmp32 at carry
  rw [result] at carry ⊢
  refine ⟨⟨?_, carry, n.trans difference.negative.symm, z⟩, ?_⟩
  · have restored : s.setQ c.state.q = { c.state with p := s.p } := by
      rw [within.only]
      exact congrArg (fun t : CPU45GS02State => { t with p := s.p }) (setQ_q c.state)
    rw [restored]
    rfl
  · exact v.trans (kept_V _ _)

/-! ## Shifts in memory -/

variable {plain : MOS45GS02 ω → Prop} {rom : BitVec 16 → Bool}

/-- One instruction, and the flags behind it. -/
def byteShift (f : Fn) (addr : BitVec 16) : Exec ω (BitVec 8) := do
  call 0 f (.mem addr)
  return (← get).state.p

/-- Four shifts of bytes, each of which takes up the carry of the one before: the flags behind
each. -/
def shiftChain (first rest : Fn) (a0 a1 a2 a3 : BitVec 16) : Exec ω (List (BitVec 8)) := do
  let p0 ← byteShift first a0
  let p1 ← byteShift rest a1
  let p2 ← byteShift rest a2
  let p3 ← byteShift rest a3
  return [p0, p1, p2, p3]

theorem byteShift_leaves (memory : Memory plain rom) {c : MOS45GS02 ω} (here : plain c) {f : Fn}
    {op : BitVec 8 → BitVec 8 → Bool × BitVec 8}
    (calls : (call 0 f : Operand → Exec ω Unit) = shifted op) (addr : BitVec 16) :
    ∃ p r, op c.state.p (shown c addr) = (flag p FLAG_C, r) ∧
      p = CPU45GS02State.nzOf (carryTo c.state.p (flag p FLAG_C)) r ∧ (byteShift f addr c).1 = p ∧
      Leaves plain c (byteShift f addr c).2 p (store rom (shown c) addr r) := by
  obtain ⟨k, r, shifts⟩ : ∃ k r, op c.state.p (shown c addr) = (k, r) := ⟨_, _, rfl⟩
  have leaves := shifted_leaves memory here op addr shifts
  have run : byteShift f addr c = ((shifted op (.mem addr) c).2.state.p, (shifted op (.mem addr) c).2) := by
    simp only [byteShift, bind_apply, get_apply, pure_apply, calls]
  have carry : flag (CPU45GS02State.nzOf (carryTo c.state.p k) r) FLAG_C = k :=
    (shift_flags c.state.p k r).1
  refine ⟨CPU45GS02State.nzOf (carryTo c.state.p k) r, r, ?_, ?_, ?_, ?_⟩
  · rw [carry, shifts]
  · rw [carry]
  · rw [run, leaves.state]
  · rw [run]
    exact leaves

theorem apart (addr : BitVec 16) : [addr, addr + 1, addr + 2, addr + 3].Nodup := by
  simp

/-- What four shifts leave at four addresses. -/
theorem shiftChain_leaves (memory : Memory plain rom) {c : MOS45GS02 ω} (here : plain c)
    {first rest : Fn} {f g : BitVec 8 → BitVec 8 → Bool × BitVec 8}
    (calls : (call 0 first : Operand → Exec ω Unit) = shifted f)
    (calls' : (call 0 rest : Operand → Exec ω Unit) = shifted g) {a0 a1 a2 a3 : BitVec 16}
    (apart : [a0, a1, a2, a3].Nodup) :
    ∃ p0 p1 p2 p3 r0 r1 r2 r3,
      f c.state.p (shown c a0) = (flag p0 FLAG_C, r0) ∧ g p0 (shown c a1) = (flag p1 FLAG_C, r1) ∧
      g p1 (shown c a2) = (flag p2 FLAG_C, r2) ∧ g p2 (shown c a3) = (flag p3 FLAG_C, r3) ∧
      p0 = CPU45GS02State.nzOf (carryTo c.state.p (flag p0 FLAG_C)) r0 ∧
      p1 = CPU45GS02State.nzOf (carryTo p0 (flag p1 FLAG_C)) r1 ∧
      p2 = CPU45GS02State.nzOf (carryTo p1 (flag p2 FLAG_C)) r2 ∧
      p3 = CPU45GS02State.nzOf (carryTo p2 (flag p3 FLAG_C)) r3 ∧
      (shiftChain first rest a0 a1 a2 a3 c).1 = [p0, p1, p2, p3] ∧
      Leaves plain c (shiftChain first rest a0 a1 a2 a3 c).2 p3
        (store rom (store rom (store rom (store rom (shown c) a0 r0) a1 r1) a2 r2) a3 r3) := by
  obtain ⟨p0, r0, op0, flags0, run0, one⟩ := byteShift_leaves memory here calls a0
  obtain ⟨p1, r1, op1, flags1, run1, two⟩ := byteShift_leaves memory one.plain calls' a1
  obtain ⟨p2, r2, op2, flags2, run2, three⟩ := byteShift_leaves memory two.plain calls' a2
  obtain ⟨p3, r3, op3, flags3, run3, four⟩ := byteShift_leaves memory three.plain calls' a3
  simp only [List.nodup_cons, List.mem_cons, List.not_mem_nil, or_false, not_or, List.nodup_nil,
    and_true] at apart
  obtain ⟨⟨n01, n02, n03⟩, ⟨n12, n13⟩, n23, -⟩ := apart
  -- an address that the earlier shifts leave alone still holds its byte
  have kept {mem : BitVec 16 → BitVec 8} {x addr : BitVec 16} {r : BitVec 8} (other : x ≠ addr) :
      store rom mem x r addr = mem addr := store_of_ne r fun same => absurd same.symm other
  have state1 : (byteShift first a0 c).2.state.p = p0 := by rw [one.state]
  have state2 : (byteShift rest a1 (byteShift first a0 c).2).2.state.p = p1 := by rw [two.state]
  have state3 : (byteShift rest a2 (byteShift rest a1 (byteShift first a0 c).2).2).2.state.p = p2 := by
    rw [three.state]
  have memory1 := one.memory
  have memory2 := two.memory
  have memory3 := three.memory
  have memory4 := four.memory
  rw [memory1] at memory2 op1
  rw [memory2] at memory3 op2
  rw [memory3] at memory4 op3
  rw [state1] at op1 flags1
  rw [state2] at op2 flags2
  rw [state3] at op3 flags3
  rw [kept n01] at op1
  rw [kept n12, kept n02] at op2
  rw [kept n23, kept n13, kept n03] at op3
  refine ⟨p0, p1, p2, p3, r0, r1, r2, r3, op0, op1, op2, op3, flags0, flags1, flags2, flags3, ?_, ?_⟩
  · simp only [shiftChain, bind_apply, pure_apply, run0, run1, run2, run3]
  · have whole := ((one.trans two).trans three).trans four
    exact ⟨whole.plain, whole.state, memory4⟩

/-- A 32-bit shift of memory and a chain: the same registers, memory, C and V. Z is set exactly
if each instruction of the chain set it, which is if the word that is left is zero. -/
structure ShiftAgrees (rom : BitVec 16 → Bool) (addr : BitVec 16) (quad : MOS45GS02 ω)
    (chained : List (BitVec 8) × MOS45GS02 ω) : Prop where
  registers : quad.state = { chained.2.state with p := quad.state.p }
  memory : shown quad = shown chained.2
  carry : flag quad.state.p FLAG_C = flag chained.2.state.p FLAG_C
  overflow : flag quad.state.p FLAG_V = flag chained.2.state.p FLAG_V
  zero : flag quad.state.p FLAG_Z = chained.1.all (flag · FLAG_Z)
  result : (∀ i < 4, rom (addr + BitVec.ofNat 16 i) = false) →
    flag quad.state.p FLAG_Z = (wordAt (shown quad) addr == 0)

section Agreement
variable {c quad : MOS45GS02 ω} {addr : BitVec 16} {k : Bool} {r : BitVec 32} {p : BitVec 8}
  {mem : BitVec 16 → BitVec 8} {chained : List (BitVec 8) × MOS45GS02 ω}

theorem shiftAgrees (left : Leaves plain c quad (CPU45GS02State.nzOf (carryTo c.state.p k) r)
      (storeWord rom (shown c) addr r))
    (right : Leaves plain c chained.2 p mem) (same : storeWord rom (shown c) addr r = mem)
    (carry : k = flag p FLAG_C) (overflow : flag c.state.p FLAG_V = flag p FLAG_V)
    (zero : (r == 0) = chained.1.all (flag · FLAG_Z)) : ShiftAgrees rom addr quad chained := by
  obtain ⟨c_, v, -, z⟩ := shift_flags c.state.p k r
  have status : quad.state.p = CPU45GS02State.nzOf (carryTo c.state.p k) r := by rw [left.state]
  have status' : chained.2.state.p = p := by rw [right.state]
  refine ⟨?_, ?_, ?_, ?_, ?_, ?_⟩
  · rw [status, left.state, right.state]
  · rw [left.memory, right.memory, same]
  · rw [status, status', c_, carry]
  · rw [status, status', v, overflow]
  · rw [status, z, zero]
  · intro writable
    rw [status, z, left.memory, wordAt_storeWord writable]

end Agreement

theorem calls_ASL : (call 0 .ASL : Operand → Exec ω Unit) = shifted fun _ v => (v.msb, v <<< 1) := rfl

theorem calls_LSR : (call 0 .LSR : Operand → Exec ω Unit) =
    shifted fun _ v => (v.getLsbD 0, v >>> 1) := rfl

theorem calls_ROL : (call 0 .ROL : Operand → Exec ω Unit) =
    shifted fun p v => (v.msb, v <<< 1 ||| if flag p FLAG_C then 1 else 0) := rfl

theorem calls_ROR : (call 0 .ROR : Operand → Exec ω Unit) =
    shifted fun p v => (v.getLsbD 0, v >>> 1 ||| if flag p FLAG_C then 0x80 else 0) := rfl

theorem callsQ_ASLQ : (callQ .ASLQ : Operand → Exec ω Unit) =
    shiftedQ fun _ v => (v.msb, v <<< 1) := rfl

theorem callsQ_LSRQ : (callQ .LSRQ : Operand → Exec ω Unit) =
    shiftedQ fun _ v => (v.getLsbD 0, v >>> 1) := rfl

theorem callsQ_ROLQ : (callQ .ROLQ : Operand → Exec ω Unit) =
    shiftedQ fun p v => (v.msb, v <<< 1 ||| if flag p FLAG_C then 1 else 0) := rfl

theorem callsQ_RORQ : (callQ .RORQ : Operand → Exec ω Unit) =
    shiftedQ fun p v => (v.getLsbD 0, v >>> 1 ||| if flag p FLAG_C then 0x80000000 else 0) := rfl

/-- A shift to the left against the chain from the low byte on. -/
theorem left_agrees (memory : Memory plain rom) {c : MOS45GS02 ω} (here : plain c) (addr : BitVec 16)
    {first : Fn} {quad : QuadFn} {f : BitVec 8 → BitVec 8 → Bool × BitVec 8}
    {F : BitVec 8 → BitVec 32 → Bool × BitVec 32} {low : BitVec 8 → Bool}
    (calls : (call 0 first : Operand → Exec ω Unit) = shifted f) (shifts : ShiftsLeft f low)
    (callsQ : (callQ quad : Operand → Exec ω Unit) = shiftedQ F) (shiftsQ : ShiftsLeft F low) :
    let chained := shiftChain first .ROL addr (addr + 1) (addr + 2) (addr + 3) c
    ShiftAgrees rom addr (callQ quad (.mem addr) c).2 chained ∧
      flag (callQ quad (.mem addr) c).2.state.p FLAG_N = flag chained.2.state.p FLAG_N := by
  obtain ⟨p0, p1, p2, p3, r0, r1, r2, r3, op0, op1, op2, op3, flags0, flags1, flags2, flags3, run, right⟩ :=
    shiftChain_leaves memory here calls calls_ROL (apart addr)
  obtain ⟨k, r, op⟩ : ∃ k r, F c.state.p (wordAt (shown c) addr) = (k, r) := ⟨_, _, rfl⟩
  have left := shiftedQ_leaves memory here F addr op
  have total := shiftsQ.total op
  have total0 := shifts.total op0
  have total1 : r1.toNat + 2 ^ 8 * (flag p1 FLAG_C).toNat =
    2 * (shown c (addr + 1)).toNat + (flag p0 FLAG_C).toNat := shiftsLeft_ROL.total op1
  have total2 : r2.toNat + 2 ^ 8 * (flag p2 FLAG_C).toNat =
    2 * (shown c (addr + 2)).toNat + (flag p1 FLAG_C).toNat := shiftsLeft_ROL.total op2
  have total3 : r3.toNat + 2 ^ 8 * (flag p3 FLAG_C).toNat =
    2 * (shown c (addr + 3)).toNat + (flag p2 FLAG_C).toNat := shiftsLeft_ROL.total op3
  rw [wordAt, toNat_word] at total
  obtain ⟨rfl, rfl⟩ : r = r3 ++ r2 ++ r1 ++ r0 ∧ k = flag p3 FLAG_C := by
    refine sum_unique total ?_
    rw [toNat_word]
    omega
  obtain ⟨-, v0, -, z0⟩ := shift_flags c.state.p (flag p0 FLAG_C) r0
  obtain ⟨-, v1, -, z1⟩ := shift_flags p0 (flag p1 FLAG_C) r1
  obtain ⟨-, v2, -, z2⟩ := shift_flags p1 (flag p2 FLAG_C) r2
  obtain ⟨-, v3, n3, z3⟩ := shift_flags p2 (flag p3 FLAG_C) r3
  rw [← flags0] at v0 z0
  rw [← flags1] at v1 z1
  rw [← flags2] at v2 z2
  rw [← flags3] at v3 n3 z3
  obtain ⟨b0, b1, b2, b3⟩ := byteOf_word r0 r1 r2 r3
  dsimp only
  rw [callsQ]
  refine ⟨shiftAgrees left right ?_ rfl ?_ ?_, ?_⟩
  · rw [storeWord, b0, b1, b2, b3]
  · rw [v3, v2, v1, v0]
  · simp only [run, List.all_cons, List.all_nil, Bool.and_true, z0, z1, z2, z3, word_zero]
  · rw [left.state, right.state]
    exact ((shift_flags c.state.p (flag p3 FLAG_C) _).2.2.1.trans (msb_word r0 r1 r2 r3)).trans n3.symm

/-- A shift to the right against the chain from the high byte on, the first of which N is from. -/
theorem right_agrees (memory : Memory plain rom) {c : MOS45GS02 ω} (here : plain c) (addr : BitVec 16)
    {first : Fn} {quad : QuadFn} {f : BitVec 8 → BitVec 8 → Bool × BitVec 8}
    {F : BitVec 8 → BitVec 32 → Bool × BitVec 32} {high : BitVec 8 → Bool}
    (calls : (call 0 first : Operand → Exec ω Unit) = shifted f) (shifts : ShiftsRight f high)
    (callsQ : (callQ quad : Operand → Exec ω Unit) = shiftedQ F) (shiftsQ : ShiftsRight F high) :
    let chained := shiftChain first .ROR (addr + 3) (addr + 2) (addr + 1) addr c
    ShiftAgrees rom addr (callQ quad (.mem addr) c).2 chained ∧
      some (flag (callQ quad (.mem addr) c).2.state.p FLAG_N) = chained.1.head?.map (flag · FLAG_N) := by
  have forwards := apart addr
  have backwards : [addr + 3, addr + 2, addr + 1, addr].Nodup := List.nodup_reverse.mp forwards
  obtain ⟨p0, p1, p2, p3, r0, r1, r2, r3, op0, op1, op2, op3, flags0, flags1, flags2, flags3, run, right⟩ :=
    shiftChain_leaves memory here calls calls_ROR backwards
  obtain ⟨k, r, op⟩ : ∃ k r, F c.state.p (wordAt (shown c) addr) = (k, r) := ⟨_, _, rfl⟩
  have left := shiftedQ_leaves memory here F addr op
  have top : (0x80 : BitVec 8) = BitVec.twoPow 8 7 := by decide
  have total := shiftsQ.total op
  have total0 := shifts.total op0
  have total1 : 2 * r1.toNat + (flag p1 FLAG_C).toNat =
    (shown c (addr + 2)).toNat + 2 ^ 8 * (flag p0 FLAG_C).toNat := (shiftsRight_ROR top).total op1
  have total2 : 2 * r2.toNat + (flag p2 FLAG_C).toNat =
    (shown c (addr + 1)).toNat + 2 ^ 8 * (flag p1 FLAG_C).toNat := (shiftsRight_ROR top).total op2
  have total3 : 2 * r3.toNat + (flag p3 FLAG_C).toNat =
    (shown c addr).toNat + 2 ^ 8 * (flag p2 FLAG_C).toNat := (shiftsRight_ROR top).total op3
  rw [wordAt, toNat_word] at total
  obtain ⟨rfl, rfl⟩ : r = r0 ++ r1 ++ r2 ++ r3 ∧ k = flag p3 FLAG_C := by
    refine halves_unique total ?_
    rw [toNat_word]
    omega
  obtain ⟨-, v0, n0, z0⟩ := shift_flags c.state.p (flag p0 FLAG_C) r0
  obtain ⟨-, v1, -, z1⟩ := shift_flags p0 (flag p1 FLAG_C) r1
  obtain ⟨-, v2, -, z2⟩ := shift_flags p1 (flag p2 FLAG_C) r2
  obtain ⟨-, v3, -, z3⟩ := shift_flags p2 (flag p3 FLAG_C) r3
  rw [← flags0] at v0 n0 z0
  rw [← flags1] at v1 z1
  rw [← flags2] at v2 z2
  rw [← flags3] at v3 z3
  obtain ⟨b0, b1, b2, b3⟩ := byteOf_word r3 r2 r1 r0
  dsimp only
  rw [callsQ]
  refine ⟨shiftAgrees left right ?_ rfl ?_ ?_, ?_⟩
  · simp only [List.nodup_cons, List.mem_cons, List.not_mem_nil, or_false, not_or, List.nodup_nil,
      and_true] at forwards
    obtain ⟨⟨n01, n02, n03⟩, ⟨n12, n13⟩, n23, -⟩ := forwards
    rw [storeWord, b0, b1, b2, b3, store_comm n23, store_comm n13, store_comm n03, store_comm n12,
      store_comm n02, store_comm n01]
  · rw [v3, v2, v1, v0]
  · rw [run, word_zero]
    simp only [List.all_cons, List.all_nil, Bool.and_true, z0, z1, z2, z3]
    ac_rfl
  · rw [left.state, run]
    exact congrArg some (((shift_flags c.state.p (flag p3 FLAG_C) _).2.2.1.trans
      (msb_word r3 r2 r1 r0)).trans n0.symm)

/-! ## All of them -/

/-- ADCQ and SBCQ leave what the chain leaves in Q; CMPQ, too, but for V and Q, which it keeps. -/
structure QuadArithmetic (o : Operand) (c : MOS45GS02 ω) : Prop where
  add : Agrees (callQ .ADCQ o c).2 (chainQ .ADC o c)
  add_overflow : flag (callQ .ADCQ o c).2.state.p FLAG_V = flag (chainQ .ADC o c).2.state.p FLAG_V
  subtract : Agrees (callQ .SBCQ o c).2 (chainQ .SBC o c)
  subtract_overflow :
    flag (callQ .SBCQ o c).2.state.p FLAG_V = flag (chainQ .SBC o c).2.state.p FLAG_V
  compare : Agrees (callQ .CMPQ o c).2 (compareChain o c)

/-- N is from the last instruction of a chain to the left and from the first of one to the right:
either is the one that shifts the high byte. -/
structure QuadShifts (rom : BitVec 16 → Bool) (addr : BitVec 16) (c : MOS45GS02 ω) : Prop where
  left : ∀ quad first, (quad, first) ∈ [(QuadFn.ASLQ, Fn.ASL), (QuadFn.ROLQ, Fn.ROL)] →
    let chained := shiftChain first .ROL addr (addr + 1) (addr + 2) (addr + 3) c
    ShiftAgrees rom addr (callQ quad (.mem addr) c).2 chained ∧
      flag (callQ quad (.mem addr) c).2.state.p FLAG_N = flag chained.2.state.p FLAG_N
  right : ∀ quad first, (quad, first) ∈ [(QuadFn.LSRQ, Fn.LSR), (QuadFn.RORQ, Fn.ROR)] →
    let chained := shiftChain first .ROR (addr + 3) (addr + 2) (addr + 1) addr c
    ShiftAgrees rom addr (callQ quad (.mem addr) c).2 chained ∧
      some (flag (callQ quad (.mem addr) c).2.state.p FLAG_N) = chained.1.head?.map (flag · FLAG_N)

theorem quads_are_chains :
    (∀ (c : MOS45GS02 ω) (o : Operand), flag c.state.p FLAG_D = false → o ≠ .reg → QuadArithmetic o c) ∧
      ∀ (plain : MOS45GS02 ω → Prop) (rom : BitVec 16 → Bool), Memory plain rom →
        ∀ c, plain c → ∀ addr, QuadShifts rom addr c := by
  constructor
  · intro c o clear inMemory
    obtain ⟨add, add_overflow⟩ := adcq_agrees inMemory c clear
    obtain ⟨subtract, subtract_overflow⟩ := sbcq_agrees inMemory c clear
    obtain ⟨compare, -⟩ := cmpq_agrees inMemory c clear
    exact ⟨add, add_overflow, subtract, subtract_overflow, compare⟩
  · intro plain rom memory c here addr
    have top : (0x80000000 : BitVec 32) = BitVec.twoPow 32 31 := by decide
    have top8 : (0x80 : BitVec 8) = BitVec.twoPow 8 7 := by decide
    constructor
    · intro quad first listed
      simp only [List.mem_cons, List.not_mem_nil, or_false, Prod.mk.injEq] at listed
      obtain ⟨rfl, rfl⟩ | ⟨rfl, rfl⟩ := listed
      · exact left_agrees memory here addr calls_ASL shiftsLeft_ASL callsQ_ASLQ shiftsLeft_ASL
      · exact left_agrees memory here addr calls_ROL shiftsLeft_ROL callsQ_ROLQ shiftsLeft_ROL
    · intro quad first listed
      simp only [List.mem_cons, List.not_mem_nil, or_false, Prod.mk.injEq] at listed
      obtain ⟨rfl, rfl⟩ | ⟨rfl, rfl⟩ := listed
      · exact right_agrees memory here addr calls_LSR shiftsRight_LSR callsQ_LSRQ shiftsRight_LSR
      · exact right_agrees memory here addr calls_ROR (shiftsRight_ROR top8) callsQ_RORQ (shiftsRight_ROR top)

end Chains

/-! ## 64 KB of memory -/

/-- A core on a flat bus, with ROM where overlays are. -/
def Flat (rom : BitVec 16 → Bool) (c : MOS45GS02 FlatMemoryBus) : Prop :=
  c.hyperRom = none ∧ c.bus.addrMask = 0xFFFF ∧ overlaid c.bus = rom

theorem flat_memory (rom : BitVec 16 → Bool) : Memory (Flat rom) rom := by
  have window : ∀ c x, Flat rom c → c.hyperWindow x = none := by
    intro c x here
    rw [MOS45GS02.hyperWindow, here.1]
  have reads : ∀ c x, Flat rom c → read8 x c = (shownMemory c.bus x, c) := by
    intro c x here
    unfold read8
    rw [window c x here]
    rfl
  have writes : ∀ c x v, Flat rom c →
      (write8 x v c).2 = { c with bus := c.bus.write8 (x.setWidth 32) v } := by
    intro c x v here
    rw [write8_run, window c x here]
    rfl
  have stays : ∀ c x v, Flat rom c → Flat rom (write8 x v c).2 := by
    intro c x v here
    obtain ⟨noRom, wide, covered⟩ := here
    rw [writes c x v ⟨noRom, wide, covered⟩]
    refine ⟨noRom, by simpa using wide, ?_⟩
    rw [← covered]
    funext y
    simp [overlaid, FlatMemoryBus.findOverlay]
  have sees : ∀ c, Flat rom c → shown c = shownMemory c.bus := by
    intro c here
    funext x
    rw [shown, reads c x here]
  refine ⟨?_, stays, ?_, ?_⟩
  · intro c x here
    rw [reads c x here]
  · intro c x v here
    rw [sees _ (stays c x v here), sees c here, writes c x v here, ← here.2.2]
    exact shown_write8 here.2.1 x v
  · intro c s here _
    exact here

/-- $00000100 at $0020: a shift to the right leaves $80 there. -/
def small : MOS45GS02 FlatMemoryBus where
  state := ⟨0, 0, 0, 0, 0, 0x1FF, 0, 0, 0, false, false, false, false, false, false⟩
  hyperState := .zero
  bus := { FlatMemoryBus.new 16 with data := fun a => if a = 0x21 then 1 else 0 }
  mapMmu := false
  hyperRom := none
  experimentalPrefixMode := false

theorem quads_are_chains_small : QuadArithmetic (.mem 0x20) small ∧
    QuadShifts (fun _ => false) 0x20 small :=
  ⟨quads_are_chains.1 small (.mem 0x20) (by decide) (by decide),
    quads_are_chains.2 (Flat fun _ => false) _ (flat_memory _) small ⟨rfl, rfl, rfl⟩ 0x20⟩

/-- N of LSRQ is that of the word; the last shift of the chain takes the low byte for it. -/
theorem not_chain_small :
    flag (callQ .LSRQ (.mem 0x20) small).2.state.p FLAG_N = false ∧
      flag (shiftChain .LSR .ROR 0x23 0x22 0x21 0x20 small).2.state.p FLAG_N = true := by
  decide

end Mmemu.Guarantees.QuadChains
