import Mmemu.Library.MemoryWrites
import Mmemu.Library.WordBytes
import Mmemu.Source.Cpu45gs02Fetch
import Mmemu.Source.CpuZ80Blocks

/-!
# MOS 45GS02: bytes and words

What additions, subtractions and shifts of either width leave in the flags, and what the
instructions that shift memory leave there.
-/
namespace Mmemu.Source.Cpu45gs02
open Mmemu.Source.MemoryBus
open Mmemu.Library.Copying Mmemu.Library.WordBytes
open Mmemu.Library.StateFrame (bind_apply get_apply pure_apply)
open Mmemu.Source.Cpu6502 (flag orIf nz carryTo flag_orIf flag_orIf_other FLAG_C FLAG_Z FLAG_D
  FLAG_V FLAG_N)

/-! ## Flags -/

/-- The flags that N and Z are set from a result. -/
theorem nzOf_flags {n : ℕ} (p : BitVec 8) (r : BitVec n) :
    flag (CPU45GS02State.nzOf p r) FLAG_N = r.msb ∧
      flag (CPU45GS02State.nzOf p r) FLAG_Z = (r == 0) ∧
      flag (CPU45GS02State.nzOf p r) FLAG_C = flag p FLAG_C ∧
      flag (CPU45GS02State.nzOf p r) FLAG_V = flag p FLAG_V ∧
      flag (CPU45GS02State.nzOf p r) FLAG_D = flag p FLAG_D := by
  have cleared : ∀ p : BitVec 8, flag (p &&& ~~~(FLAG_N ||| FLAG_Z)) FLAG_N = false ∧
      flag (p &&& ~~~(FLAG_N ||| FLAG_Z)) FLAG_Z = false ∧
      flag (p &&& ~~~(FLAG_N ||| FLAG_Z)) FLAG_C = flag p FLAG_C ∧
      flag (p &&& ~~~(FLAG_N ||| FLAG_Z)) FLAG_V = flag p FLAG_V ∧
      flag (p &&& ~~~(FLAG_N ||| FLAG_Z)) FLAG_D = flag p FLAG_D := by
    decide
  obtain ⟨n, z, c, v, d⟩ := cleared p
  unfold CPU45GS02State.nzOf
  refine ⟨?_, ?_, ?_, ?_, ?_⟩
  · rw [flag_orIf (by decide), flag_orIf_other (by decide), n, Bool.false_or]
  · rw [flag_orIf_other (by decide), flag_orIf (by decide), z, Bool.false_or]
  · rw [flag_orIf_other (by decide), flag_orIf_other (by decide), c]
  · rw [flag_orIf_other (by decide), flag_orIf_other (by decide), v]
  · rw [flag_orIf_other (by decide), flag_orIf_other (by decide), d]

theorem nz_eq_nzOf (p val : BitVec 8) : nz p val = CPU45GS02State.nzOf p val := by
  have sign : ∀ val, flag val 0x80 = val.msb := by decide
  unfold nz CPU45GS02State.nzOf
  rw [sign]
  rfl

/-! ## Addition and subtraction -/

/-- What an addition with carry leaves, but for Z. -/
structure Sum {n : ℕ} (a v : BitVec n) (c : Bool) (r : BitVec n) (p : BitVec 8) : Prop where
  total : r.toNat + 2 ^ n * (flag p FLAG_C).toNat = a.toNat + v.toNat + c.toNat
  overflow : flag p FLAG_V = (!(a.msb ^^ v.msb) && (a.msb ^^ r.msb))
  negative : flag p FLAG_N = r.msb

/-- What a subtraction leaves; a clear carry is a borrow. -/
structure Difference {n : ℕ} (a v : BitVec n) (c : Bool) (r : BitVec n) (p : BitVec 8) : Prop where
  total : r.toNat + v.toNat + (!c).toNat = a.toNat + 2 ^ n * (!flag p FLAG_C).toNat
  overflow : flag p FLAG_V = ((a.msb ^^ v.msb) && (a.msb ^^ r.msb))
  negative : flag p FLAG_N = r.msb

theorem carry_bit {m : ℕ} (room : 0 < m) (p : BitVec 8) :
    ((p &&& FLAG_C).setWidth m).toNat = (flag p FLAG_C).toNat := by
  have all : ∀ p : BitVec 8, (p &&& FLAG_C).toNat = (flag p FLAG_C).toNat := by decide
  rw [BitVec.toNat_setWidth, all]
  have := (flag p FLAG_C).toNat_le
  exact Nat.mod_eq_of_lt (by have := Nat.one_lt_two_pow (n := m) (by omega); omega)

/-- Overflow and carry, and N from the result. -/
theorem arithmetic_flags {n : ℕ} (p : BitVec 8) (overflows carry : Bool) (r : BitVec n) :
    let p' := CPU45GS02State.nzOf
      (orIf (orIf (p &&& ~~~(FLAG_V ||| FLAG_C)) FLAG_V overflows) FLAG_C carry) r
    flag p' FLAG_C = carry ∧ flag p' FLAG_V = overflows ∧ flag p' FLAG_N = r.msb ∧
      flag p' FLAG_Z = (r == 0) ∧ flag p' FLAG_D = flag p FLAG_D := by
  have cleared : ∀ p : BitVec 8, flag (p &&& ~~~(FLAG_V ||| FLAG_C)) FLAG_C = false ∧
      flag (p &&& ~~~(FLAG_V ||| FLAG_C)) FLAG_V = false ∧
      flag (p &&& ~~~(FLAG_V ||| FLAG_C)) FLAG_D = flag p FLAG_D := by
    decide
  obtain ⟨noC, noV, keptD⟩ := cleared p
  obtain ⟨n_, z, c, v, d⟩ := nzOf_flags
    (orIf (orIf (p &&& ~~~(FLAG_V ||| FLAG_C)) FLAG_V overflows) FLAG_C carry) r
  refine ⟨?_, ?_, n_, z, ?_⟩
  · rw [c, flag_orIf (by decide), flag_orIf_other (by decide), noC, Bool.false_or]
  · rw [v, flag_orIf_other (by decide), flag_orIf (by decide), noV, Bool.false_or]
  · rw [d, flag_orIf_other (by decide), flag_orIf_other (by decide), keptD]

/-- The status byte of an addition or a subtraction. -/
def status {n : ℕ} (p : BitVec 8) (overflows carry : Bool) (r : BitVec n) : BitVec 8 :=
  CPU45GS02State.nzOf (orIf (orIf (p &&& ~~~(FLAG_V ||| FLAG_C)) FLAG_V overflows) FLAG_C carry) r

section Widths
variable {n m : ℕ} (room : n + 2 ≤ m) (p : BitVec 8) (a v : BitVec n) {limit : BitVec m}
  (last : limit.toNat + 1 = 2 ^ n)
include room last

theorem sum_of_wide {wide : BitVec m} (sums : wide = a.setWidth m + v.setWidth m + (p &&& FLAG_C).setWidth m)
    {overflows : Bool} (overs : overflows = (!(a.msb ^^ v.msb) && (a.msb ^^ (wide.setWidth n).msb))) :
    Sum a v (flag p FLAG_C) (wide.setWidth n) (status p overflows (decide (limit < wide)) (wide.setWidth n)) := by
  have whole := wide_sum room a v (carry_bit (by omega) p)
  rw [← sums] at whole
  obtain ⟨c, o, neg, -, -⟩ := arithmetic_flags p overflows (decide (limit < wide)) (wide.setWidth n)
  have := a.isLt
  have := v.isLt
  have := (flag p FLAG_C).toNat_le
  refine ⟨?_, o.trans overs, neg⟩
  rw [status, c, BitVec.toNat_setWidth, whole]
  by_cases above : limit < wide
  · have far := BitVec.lt_def.mp above
    rw [decide_eq_true above, Nat.mod_eq_sub_mod (by omega), Nat.mod_eq_of_lt (by omega)]
    simp only [Bool.toNat_true]
    omega
  · have near := BitVec.not_lt.mp above
    rw [BitVec.le_def] at near
    rw [decide_eq_false above, Nat.mod_eq_of_lt (by omega)]
    simp

theorem difference_of_wide {wide : BitVec m} (b : BitVec m) (borrow : b.toNat = (!flag p FLAG_C).toNat)
    (subtracts : wide = a.setWidth m - v.setWidth m - b)
    {overflows : Bool} (overs : overflows = ((a.msb ^^ v.msb) && (a.msb ^^ (wide.setWidth n).msb))) :
    Difference a v (flag p FLAG_C) (wide.setWidth n)
      (status p overflows (decide (wide ≤ limit)) (wide.setWidth n)) := by
  have whole := wide_difference room a v borrow
  rw [← subtracts] at whole
  obtain ⟨c, o, neg, -, -⟩ := arithmetic_flags p overflows (decide (wide ≤ limit)) (wide.setWidth n)
  have := a.isLt
  have := v.isLt
  have := (!flag p FLAG_C).toNat_le
  have far : 2 ^ (n + 2) ≤ 2 ^ m := Nat.pow_le_pow_right (by decide) room
  rw [Nat.pow_add] at far
  refine ⟨?_, o.trans overs, neg⟩
  rw [status, c, BitVec.toNat_setWidth, whole]
  split
  next fits =>
    have below : wide ≤ limit := by
      rw [BitVec.le_def, whole, if_pos fits]
      omega
    rw [decide_eq_true below, Nat.mod_eq_of_lt (by omega)]
    simp
    omega
  next short =>
    have beyond : ¬wide ≤ limit := by
      rw [BitVec.le_def, whole, if_neg short]
      omega
    obtain ⟨k, blocks⟩ : ∃ k, 2 ^ m = 2 ^ n * (k + 1) := by
      refine ⟨2 ^ (m - n) - 1, ?_⟩
      rw [Nat.sub_add_cancel Nat.one_le_two_pow, ← Nat.pow_add, Nat.add_sub_cancel' (by omega)]
    rw [Nat.mul_succ] at blocks
    have parts : 2 ^ m + a.toNat - v.toNat - (!flag p FLAG_C).toNat =
        2 ^ n * k + (2 ^ n + a.toNat - v.toNat - (!flag p FLAG_C).toNat) := by omega
    rw [decide_eq_false beyond, parts, Nat.mul_add_mod, Nat.mod_eq_of_lt (by omega)]
    simp
    omega

end Widths

theorem sign8 (x : BitVec 16) : (x &&& 0x80 != 0) = x.getLsbD 7 := test_bit x 7 (by decide)

theorem sign32 (x : BitVec 32) : (x &&& 0x80000000 != 0) = x.msb := test_bit x 31 (by decide)

theorem last8 : (0xFF : BitVec 16).toNat + 1 = 2 ^ 8 := by decide

theorem last32 : (0xFFFFFFFF : BitVec 64).toNat + 1 = 2 ^ 32 := by decide

theorem q_setQ (s : CPU45GS02State) (r : BitVec 32) : (s.setQ r).q = r := word_bytes r

theorem q_setQ_p (s : CPU45GS02State) (r : BitVec 32) (p : BitVec 8) :
    ({ s.setQ r with p := p } : CPU45GS02State).q = r := word_bytes r

theorem setQ_q (s : CPU45GS02State) : s.setQ s.q = s := by
  obtain ⟨a, x, y, z⟩ := byteOf_word s.a s.x s.y s.z
  change { s with a := byteOf s.q 0, x := byteOf s.q 1, y := byteOf s.q 2, z := byteOf s.q 3 } = s
  unfold CPU45GS02State.q
  rw [a, x, y, z]

theorem adcBinary_sum (s : CPU45GS02State) (v : BitVec 8) :
    Sum s.a v (flag s.p FLAG_C) (s.adcBinary v).a (s.adcBinary v).p := by
  obtain ⟨wide, sums⟩ : ∃ wide, wide =
    s.a.setWidth 16 + v.setWidth 16 + (s.p &&& FLAG_C).setWidth 16 := ⟨_, rfl⟩
  have overs : (~~~(s.a.setWidth 16 ^^^ v.setWidth 16) &&& (s.a.setWidth 16 ^^^ wide) &&& 0x80 != 0) =
      (!(s.a.msb ^^ v.msb) && (s.a.msb ^^ (wide.setWidth 8).msb)) := by
    rw [sign8]
    simp [BitVec.msb_eq_getLsbD_last]
  have sum := sum_of_wide (by decide) s.p s.a v last8 sums overs
  unfold status at sum
  rw [← nz_eq_nzOf, sums] at sum
  exact sum

theorem doAdc32_sum (s : CPU45GS02State) (v : BitVec 32) :
    Sum s.q v (flag s.p FLAG_C) (s.doAdc32 v).q (s.doAdc32 v).p := by
  obtain ⟨wide, sums⟩ : ∃ wide, wide =
    s.q.setWidth 64 + v.setWidth 64 + (s.p &&& FLAG_C).setWidth 64 := ⟨_, rfl⟩
  have overs : (~~~(s.q ^^^ v) &&& (s.q ^^^ wide.setWidth 32) &&& 0x80000000 != 0) =
      (!(s.q.msb ^^ v.msb) && (s.q.msb ^^ (wide.setWidth 32).msb)) := by
    rw [sign32]
    simp
  have sum := sum_of_wide (by decide) s.p s.q v last32 sums overs
  have result : (s.doAdc32 v).q = wide.setWidth 32 := by
    rw [sums]
    exact q_setQ s _
  rw [sums] at result sum
  rw [result]
  exact sum

theorem sbcBinary_difference (s : CPU45GS02State) (v : BitVec 8) :
    Difference s.a v (flag s.p FLAG_C) (s.sbcBinary v).a (s.sbcBinary v).p := by
  obtain ⟨borrow, borrows⟩ : ∃ borrow : BitVec 16, borrow = if flag s.p FLAG_C then 0 else 1 := ⟨_, rfl⟩
  obtain ⟨wide, subtracts⟩ : ∃ wide, wide = s.a.setWidth 16 - v.setWidth 16 - borrow := ⟨_, rfl⟩
  have bit : borrow.toNat = (!flag s.p FLAG_C).toNat := by
    rw [borrows]
    cases flag s.p FLAG_C <;> rfl
  have overs : ((s.a.setWidth 16 ^^^ v.setWidth 16) &&& (s.a.setWidth 16 ^^^ wide) &&& 0x80 != 0) =
      ((s.a.msb ^^ v.msb) && (s.a.msb ^^ (wide.setWidth 8).msb)) := by
    rw [sign8]
    simp [BitVec.msb_eq_getLsbD_last]
  have difference := difference_of_wide (by decide) s.p s.a v last8 borrow bit subtracts overs
  unfold status at difference
  rw [← nz_eq_nzOf, subtracts, borrows] at difference
  exact difference

theorem doSbc32_difference (s : CPU45GS02State) (v : BitVec 32) :
    Difference s.q v (flag s.p FLAG_C) (s.doSbc32 v).q (s.doSbc32 v).p := by
  obtain ⟨borrow, borrows⟩ : ∃ borrow : BitVec 64, borrow = if flag s.p FLAG_C then 0 else 1 := ⟨_, rfl⟩
  obtain ⟨wide, subtracts⟩ : ∃ wide, wide = s.q.setWidth 64 - v.setWidth 64 - borrow := ⟨_, rfl⟩
  have bit : borrow.toNat = (!flag s.p FLAG_C).toNat := by
    rw [borrows]
    cases flag s.p FLAG_C <;> rfl
  have overs : ((s.q ^^^ v) &&& (s.q ^^^ wide.setWidth 32) &&& 0x80000000 != 0) =
      ((s.q.msb ^^ v.msb) && (s.q.msb ^^ (wide.setWidth 32).msb)) := by
    rw [sign32]
    simp
  have difference := difference_of_wide (by decide) s.p s.q v last32 borrow bit subtracts overs
  have result : (s.doSbc32 v).q = wide.setWidth 32 := by
    rw [subtracts, borrows]
    exact q_setQ s _
  rw [subtracts, borrows] at result difference
  rw [result]
  exact difference

/-- A comparison takes the difference, too, and leaves V as it was. -/
theorem doCmp32_difference (s : CPU45GS02State) (v : BitVec 32) :
    (s.q - v).toNat + v.toNat = s.q.toNat + 2 ^ 32 * (!flag (s.doCmp32 v).p FLAG_C).toNat := by
  have carried : ∀ (p : BitVec 8) (on : Bool), flag (carryTo p on) FLAG_C = on := by decide
  obtain ⟨-, -, c, -, -⟩ := nzOf_flags (carryTo s.p (v ≤ s.q)) (s.q - v)
  have := s.q.isLt
  have := v.isLt
  change _ = _ + 2 ^ 32 * (!flag (CPU45GS02State.nzOf (carryTo s.p (v ≤ s.q)) (s.q - v)) FLAG_C).toNat
  rw [c, carried, BitVec.toNat_sub]
  by_cases enough : v ≤ s.q
  · have := BitVec.le_def.mp enough
    rw [decide_eq_true enough]
    simp
    omega
  · have := BitVec.not_le.mp enough
    rw [BitVec.lt_def] at this
    rw [decide_eq_false enough]
    simp
    omega

theorem result_changes (s : CPU45GS02State) (p : BitVec 8) (r : BitVec 32) :
    (({ s with p := p } : CPU45GS02State).setQ r).updateNZ32 r =
      { s.setQ r with p := CPU45GS02State.nzOf p r } := rfl

theorem doAdc32_changes (s : CPU45GS02State) (v : BitVec 32) : ∃ p, s.doAdc32 v =
    { s.setQ (s.doAdc32 v).q with p := CPU45GS02State.nzOf p (s.doAdc32 v).q } := by
  unfold CPU45GS02State.doAdc32
  dsimp only
  rw [result_changes]
  exact ⟨_, by rw [q_setQ_p]⟩

theorem doSbc32_changes (s : CPU45GS02State) (v : BitVec 32) : ∃ p, s.doSbc32 v =
    { s.setQ (s.doSbc32 v).q with p := CPU45GS02State.nzOf p (s.doSbc32 v).q } := by
  unfold CPU45GS02State.doSbc32
  dsimp only
  rw [result_changes]
  exact ⟨_, by rw [q_setQ_p]⟩

/-! ## Shifts -/

/-- A shift to the left takes `low` in at the low end. -/
def ShiftsLeft {n : ℕ} (f : BitVec 8 → BitVec n → Bool × BitVec n) (low : BitVec 8 → Bool) : Prop :=
  ∀ p v, (f p v).2.toNat + 2 ^ n * (f p v).1.toNat = 2 * v.toNat + (low p).toNat

/-- A shift to the right takes `high` in at the high end. -/
def ShiftsRight {n : ℕ} (f : BitVec 8 → BitVec n → Bool × BitVec n) (high : BitVec 8 → Bool) : Prop :=
  ∀ p v, 2 * (f p v).2.toNat + (f p v).1.toNat = v.toNat + 2 ^ n * (high p).toNat

theorem ShiftsLeft.total {n : ℕ} {f : BitVec 8 → BitVec n → Bool × BitVec n} {low : BitVec 8 → Bool}
    (shifts : ShiftsLeft f low) {p : BitVec 8} {v r : BitVec n} {k : Bool} (op : f p v = (k, r)) :
    r.toNat + 2 ^ n * k.toNat = 2 * v.toNat + (low p).toNat := by
  have total := shifts p v
  rw [op] at total
  exact total

theorem ShiftsRight.total {n : ℕ} {f : BitVec 8 → BitVec n → Bool × BitVec n} {high : BitVec 8 → Bool}
    (shifts : ShiftsRight f high) {p : BitVec 8} {v r : BitVec n} {k : Bool} (op : f p v = (k, r)) :
    2 * r.toNat + k.toNat = v.toNat + 2 ^ n * (high p).toNat := by
  have total := shifts p v
  rw [op] at total
  exact total

theorem shiftsLeft_ASL {n : ℕ} : ShiftsLeft (n := n + 1) (fun _ v => (v.msb, v <<< 1)) fun _ => false := by
  intro p v
  simpa using shl_total v false

theorem shiftsLeft_ROL {n : ℕ} : ShiftsLeft (n := n + 1)
    (fun p v => (v.msb, v <<< 1 ||| if flag p FLAG_C then 1 else 0)) fun p => flag p FLAG_C :=
  fun p v => shl_total v (flag p FLAG_C)

theorem shiftsRight_LSR {n : ℕ} : ShiftsRight (n := n + 1) (fun _ v => (v.getLsbD 0, v >>> 1))
    fun _ => false := by
  intro p v
  simpa using shr_total v false

theorem shiftsRight_ROR {n : ℕ} {top : BitVec (n + 1)} (highest : top = BitVec.twoPow (n + 1) n) :
    ShiftsRight (fun p v => (v.getLsbD 0, v >>> 1 ||| if flag p FLAG_C then top else 0))
      fun p => flag p FLAG_C := by
  intro p v
  rw [highest]
  exact shr_total v (flag p FLAG_C)

theorem shift_flags {n : ℕ} (p : BitVec 8) (k : Bool) (r : BitVec n) :
    flag (CPU45GS02State.nzOf (carryTo p k) r) FLAG_C = k ∧
      flag (CPU45GS02State.nzOf (carryTo p k) r) FLAG_V = flag p FLAG_V ∧
      flag (CPU45GS02State.nzOf (carryTo p k) r) FLAG_N = r.msb ∧
      flag (CPU45GS02State.nzOf (carryTo p k) r) FLAG_Z = (r == 0) := by
  have carried : ∀ (p : BitVec 8) (k : Bool), flag (carryTo p k) FLAG_C = k ∧
      flag (carryTo p k) FLAG_V = flag p FLAG_V := by decide
  obtain ⟨set_, kept⟩ := carried p k
  obtain ⟨n_, z, c, v, -⟩ := nzOf_flags (carryTo p k) r
  exact ⟨c.trans set_, v.trans kept, n_, z⟩

/-! ## The operand -/

section Access
variable {ω : Type} [MachineBus ω]

/-- The operand some bytes on. -/
def plus (o : Operand) (i : ℕ) : Operand :=
  match o with
  | .reg => .reg
  | .mem addr => .mem (addr + BitVec.ofNat 16 i)
  | .flat addr => .flat (addr + BitVec.ofNat 32 i)

/-- A core with other registers. -/
def withState (c : MOS45GS02 ω) (s : CPU45GS02State) : MOS45GS02 ω := { c with state := s }

/-- Reading depends on no register but the mode, and changes none. -/
theorem readAt_withState {o : Operand} (inMemory : o ≠ .reg) (c : MOS45GS02 ω) {s : CPU45GS02State}
    (mode : s.hypervisor = c.state.hypervisor) :
    readAt o (withState c s) = ((readAt o c).1, withState (readAt o c).2 s) := by
  cases o with
  | reg => exact absurd rfl inMemory
  | mem addr =>
    have window : (withState c s).hyperWindow addr = c.hyperWindow addr := by
      unfold MOS45GS02.hyperWindow withState
      dsimp only
      rw [mode]
    change read8 addr _ = ((read8 addr c).1, withState (read8 addr c).2 s)
    unfold read8
    rw [window]
    cases c.hyperWindow addr <;> rfl
  | flat addr => rfl

theorem readAt_state {o : Operand} (c : MOS45GS02 ω) : (readAt o c).2.state = c.state := by
  cases o with
  | reg => rfl
  | mem addr => exact read8_state addr c
  | flat addr => rfl

theorem plus_ne_reg {o : Operand} (inMemory : o ≠ .reg) (i : ℕ) : plus o i ≠ .reg := by
  cases o with
  | reg => exact absurd rfl inMemory
  | mem addr => simp [plus]
  | flat addr => simp [plus]

theorem cpu_address (addr : BitVec 16) (i : ℕ) :
    (addr.setWidth 32 + BitVec.ofNat 32 i).setWidth 16 = addr + BitVec.ofNat 16 i := by
  apply BitVec.eq_of_toNat_eq
  simp only [BitVec.toNat_setWidth, BitVec.toNat_add, BitVec.toNat_ofNat]
  omega

/-- Four bytes are read one after the other. -/
theorem readQ_eq {o : Operand} (inMemory : o ≠ .reg) : (readQ o : Exec ω (BitVec 32)) = do
    let b0 ← readAt o
    let b1 ← readAt (plus o 1)
    let b2 ← readAt (plus o 2)
    let b3 ← readAt (plus o 3)
    return b3 ++ b2 ++ b1 ++ b0 := by
  cases o with
  | reg => exact absurd rfl inMemory
  | mem addr =>
    have first : (addr.setWidth 32).setWidth 16 = addr := by simp
    have second := cpu_address addr 1
    have third := cpu_address addr 2
    have fourth := cpu_address addr 3
    change (do
      let b0 ← read8 ((addr.setWidth 32).setWidth 16)
      let b1 ← read8 ((addr.setWidth 32 + BitVec.ofNat 32 1).setWidth 16)
      let b2 ← read8 ((addr.setWidth 32 + BitVec.ofNat 32 2).setWidth 16)
      let b3 ← read8 ((addr.setWidth 32 + BitVec.ofNat 32 3).setWidth 16)
      return b3 ++ b2 ++ b1 ++ b0 : Exec ω (BitVec 32)) = _
    rw [first, second, third, fourth]
    rfl
  | flat addr => rfl

theorem readQ_state {o : Operand} (inMemory : o ≠ .reg) (c : MOS45GS02 ω) :
    (readQ o c).2.state = c.state := by
  have read : readQ o c = _ := congrFun (readQ_eq inMemory) c
  rw [read]
  exact (readAt_state _).trans ((readAt_state _).trans ((readAt_state _).trans (readAt_state c)))

theorem readQ_withState {o : Operand} (inMemory : o ≠ .reg) (c : MOS45GS02 ω) {s : CPU45GS02State}
    (mode : s.hypervisor = c.state.hypervisor) :
    readQ o (withState c s) = ((readQ o c).1, withState (readQ o c).2 s) := by
  have mode1 := mode.trans (congrArg CPU45GS02State.hypervisor (readAt_state (o := o) c)).symm
  have mode2 := mode1.trans (congrArg CPU45GS02State.hypervisor
    (readAt_state (o := plus o 1) (readAt o c).2)).symm
  have mode3 := mode2.trans (congrArg CPU45GS02State.hypervisor
    (readAt_state (o := plus o 2) (readAt (plus o 1) (readAt o c).2).2)).symm
  simp only [readQ_eq inMemory, bind_apply, pure_apply, readAt_withState inMemory c mode,
    readAt_withState (plus_ne_reg inMemory 1) _ mode1, readAt_withState (plus_ne_reg inMemory 2) _ mode2,
    readAt_withState (plus_ne_reg inMemory 3) _ mode3]

/-- The operand goes into an operation on Q; no register is changed by reading it. -/
theorem loadedQ_eq (f : CPU45GS02State → BitVec 32 → CPU45GS02State) {o : Operand} (inMemory : o ≠ .reg)
    (c : MOS45GS02 ω) :
    (loadedQ f o c).2 = withState (readQ o c).2 (f c.state (readQ o c).1) := by
  change withState (readQ o c).2 (f (readQ o c).2.state (readQ o c).1) = _
  rw [readQ_state inMemory]

/-! ## Memory -/

/-- What the core sees of its memory. -/
def shown (c : MOS45GS02 ω) (addr : BitVec 16) : BitVec 8 := (read8 addr c).1

/-- Plain memory, in parts read-only: reading changes nothing and writing is a store. -/
structure Memory (plain : MOS45GS02 ω → Prop) (rom : BitVec 16 → Bool) : Prop where
  reads : ∀ c addr, plain c → (read8 addr c).2 = c
  writes : ∀ c addr v, plain c → plain (write8 addr v c).2
  stores : ∀ c addr v, plain c → shown (write8 addr v c).2 = store rom (shown c) addr v
  registers : ∀ c s, plain c → s.hypervisor = c.state.hypervisor → plain (withState c s)

variable {plain : MOS45GS02 ω → Prop} {rom : BitVec 16 → Bool}

theorem shown_withState (c : MOS45GS02 ω) {s : CPU45GS02State}
    (mode : s.hypervisor = c.state.hypervisor) : shown (withState c s) = shown c :=
  funext fun addr => read8_congr c (withState c s) rfl mode rfl addr

/-- What an instruction on memory leaves: other flags and other bytes. -/
structure Leaves (plain : MOS45GS02 ω → Prop) (c c' : MOS45GS02 ω) (p : BitVec 8)
    (mem : BitVec 16 → BitVec 8) : Prop where
  plain : plain c'
  state : c'.state = { c.state with p := p }
  memory : shown c' = mem

theorem Leaves.trans {c c' c'' : MOS45GS02 ω} {p p' : BitVec 8} {mem mem' : BitVec 16 → BitVec 8}
    (one : Leaves plain c c' p mem) (two : Leaves plain c' c'' p' mem') : Leaves plain c c'' p' mem' :=
  ⟨two.plain, by rw [two.state, one.state], two.memory⟩

theorem shifted_leaves (memory : Memory plain rom) {c : MOS45GS02 ω} (here : plain c)
    (f : BitVec 8 → BitVec 8 → Bool × BitVec 8) (addr : BitVec 16) {k : Bool} {r : BitVec 8}
    (shifts : f c.state.p (shown c addr) = (k, r)) :
    Leaves plain c (shifted f (.mem addr) c).2 (CPU45GS02State.nzOf (carryTo c.state.p k) r)
      (store rom (shown c) addr r) := by
  have read : read8 addr c = (shown c addr, c) := Prod.ext rfl (memory.reads c addr here)
  let c1 := withState c { c.state with p := carryTo c.state.p k }
  have here1 : plain c1 := memory.registers c _ here rfl
  have after : (shifted f (.mem addr) c).2 = (regs (fun s => s.updateNZ r) (write8 addr r c1).2).2 := by
    simp only [shifted, bind_apply, get_apply, readAt, read, shifts, writeAt]
    rfl
  have state : (write8 addr r c1).2.state = c1.state := write8_state addr r c1
  rw [after]
  refine ⟨memory.registers _ _ (memory.writes c1 addr r here1) rfl, ?_, ?_⟩
  · change (write8 addr r c1).2.state.updateNZ r = _
    rw [state]
    exact congrArg (fun p => ({ c.state with p := p } : CPU45GS02State)) (nz_eq_nzOf _ r)
  · change shown (withState (write8 addr r c1).2 ((write8 addr r c1).2.state.updateNZ r)) = _
    rw [shown_withState (write8 addr r c1).2 (by rfl), memory.stores c1 addr r here1,
      shown_withState c (by rfl)]

/-- The word that four bytes of memory are. -/
def wordAt (mem : BitVec 16 → BitVec 8) (addr : BitVec 16) : BitVec 32 :=
  mem (addr + 3) ++ mem (addr + 2) ++ mem (addr + 1) ++ mem addr

/-- A word is stored from the low byte on. -/
def storeWord (rom : BitVec 16 → Bool) (mem : BitVec 16 → BitVec 8) (addr : BitVec 16)
    (r : BitVec 32) : BitVec 16 → BitVec 8 :=
  store rom (store rom (store rom (store rom mem addr (byteOf r 0)) (addr + 1) (byteOf r 1))
    (addr + 2) (byteOf r 2)) (addr + 3) (byteOf r 3)

/-- The bytes that are stored where memory takes them. -/
theorem wordAt_storeWord {addr : BitVec 16} (writable : ∀ i < 4, rom (addr + BitVec.ofNat 16 i) = false)
    (mem : BitVec 16 → BitVec 8) (r : BitVec 32) : wordAt (storeWord rom mem addr r) addr = r := by
  have w0 : rom addr = false := by simpa using writable 0 (by decide)
  have w1 : rom (addr + 1) = false := writable 1 (by decide)
  have w2 : rom (addr + 2) = false := writable 2 (by decide)
  have w3 : rom (addr + 3) = false := writable 3 (by decide)
  unfold wordAt storeWord store
  simp only [w0, w1, w2, w3, Bool.false_eq_true, if_false]
  simpa [Function.update_apply] using word_bytes r

theorem write32_eq (addr : BitVec 16) (r : BitVec 32) : (write32 addr r : Exec ω Unit) = (do
    write8 addr (byteOf r 0)
    write8 (addr + 1) (byteOf r 1)
    write8 (addr + 2) (byteOf r 2)
    write8 (addr + 3) (byteOf r 3)) := by
  have first : (addr.setWidth 32).setWidth 16 = addr := by simp
  have second := cpu_address addr 1
  have third := cpu_address addr 2
  have fourth := cpu_address addr 3
  change (do
    write8 ((addr.setWidth 32).setWidth 16) (byteOf r 0)
    write8 ((addr.setWidth 32 + BitVec.ofNat 32 1).setWidth 16) (byteOf r 1)
    write8 ((addr.setWidth 32 + BitVec.ofNat 32 2).setWidth 16) (byteOf r 2)
    write8 ((addr.setWidth 32 + BitVec.ofNat 32 3).setWidth 16) (byteOf r 3) : Exec ω Unit) = _
  rw [first, second, third, fourth]
  rfl

theorem write32_leaves (memory : Memory plain rom) {c : MOS45GS02 ω} (here : plain c)
    (addr : BitVec 16) (r : BitVec 32) :
    Leaves plain c (write32 addr r c).2 c.state.p (storeWord rom (shown c) addr r) := by
  have here1 := memory.writes c addr (byteOf r 0) here
  have here2 := memory.writes _ (addr + 1) (byteOf r 1) here1
  have here3 := memory.writes _ (addr + 2) (byteOf r 2) here2
  rw [write32_eq]
  refine ⟨memory.writes _ _ _ here3, ?_, ?_⟩
  · exact (write8_state _ _ _).trans ((write8_state _ _ _).trans
      ((write8_state _ _ _).trans (write8_state _ _ _)))
  · simp only [bind_apply, storeWord, memory.stores _ _ _ here, memory.stores _ _ _ here1,
      memory.stores _ _ _ here2, memory.stores _ _ _ here3]

theorem readQ_mem (memory : Memory plain rom) {c : MOS45GS02 ω} (here : plain c) (addr : BitVec 16) :
    readQ (.mem addr) c = (wordAt (shown c) addr, c) := by
  have read : ∀ x, read8 x c = (shown c x, c) := fun x => Prod.ext rfl (memory.reads c x here)
  rw [readQ_eq (by simp)]
  simp only [bind_apply, pure_apply, readAt, plus, read]
  rfl

theorem shiftedQ_leaves (memory : Memory plain rom) {c : MOS45GS02 ω} (here : plain c)
    (f : BitVec 8 → BitVec 32 → Bool × BitVec 32) (addr : BitVec 16) {k : Bool} {r : BitVec 32}
    (shifts : f c.state.p (wordAt (shown c) addr) = (k, r)) :
    Leaves plain c (shiftedQ f (.mem addr) c).2 (CPU45GS02State.nzOf (carryTo c.state.p k) r)
      (storeWord rom (shown c) addr r) := by
  let c1 := withState c { c.state with p := carryTo c.state.p k }
  have here1 : plain c1 := memory.registers c _ here rfl
  have after : (shiftedQ f (.mem addr) c).2 =
      (regs (fun s => s.updateNZ32 r) (write32 addr r c1).2).2 := by
    simp only [shiftedQ, bind_apply, get_apply, readQ_mem memory here, shifts, writeQ]
    rfl
  have written := write32_leaves memory here1 addr r
  rw [after]
  refine ⟨memory.registers _ _ written.plain rfl, ?_, ?_⟩
  · change (write32 addr r c1).2.state.updateNZ32 r = _
    rw [written.state]
    rfl
  · change shown (withState (write32 addr r c1).2 ((write32 addr r c1).2.state.updateNZ32 r)) = _
    rw [shown_withState (write32 addr r c1).2 (by rfl), written.memory, shown_withState c (by rfl)]

end Access

end Mmemu.Source.Cpu45gs02
