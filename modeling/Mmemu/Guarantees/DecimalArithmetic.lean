import Mathlib.Tactic.Ring
import Mmemu.Library.Numerals
import Mmemu.Library.Stepping
import Mmemu.Source.Cpu45gs02Step
import Mmemu.Source.CpuZ80Step

/-!
# Decimal digits on the three cores

ADC and SBC in decimal mode, on the NMOS, the CMOS and the 45GS02 core: six
corrections of a sum or a difference of nibbles. On decimal digits each of them
adds or subtracts two digits to the base hundred, with the carry flag as carry or
as missing borrow.
-/
namespace Mmemu.Guarantees.DecimalDigits
open Mmemu.Source.Cpu6502 (CPU6502State MOS6502 flag orIf flag_orIf_other nz int CVZN FLAG_C FLAG_Z
  FLAG_D FLAG_V FLAG_N addBinary addDecimal adcDecimalCmos subtract sbcDecimalCmos)
open Mmemu.Source.Cpu45gs02 (CPU45GS02State MOS45GS02)

/-! ## Digits -/

def tens (v : BitVec 8) : ℕ := v.toNat / 16

def ones (v : BitVec 8) : ℕ := v.toNat % 16

/-- The number two decimal digits in a byte stand for. -/
def value (v : BitVec 8) : ℕ := 10 * tens v + ones v

/-- Both nibbles are decimal digits. -/
structure Decimal (v : BitVec 8) : Prop where
  tens : tens v ≤ 9
  ones : ones v ≤ 9

instance (v : BitVec 8) : Decidable (Decimal v) :=
  decidable_of_iff (tens v ≤ 9 ∧ ones v ≤ 9) ⟨fun h => ⟨h.1, h.2⟩, fun h => ⟨h.tens, h.ones⟩⟩

theorem Decimal.value_lt {v : BitVec 8} (h : Decimal v) : value v < 100 := by
  have := h.tens
  have := h.ones
  unfold value
  omega

/-- Decimal bytes of one value are equal. -/
theorem Decimal.ext {v v' : BitVec 8} (h : Decimal v) (h' : Decimal v') (same : value v = value v') :
    v = v' := by
  have := h.ones
  have := h'.ones
  apply BitVec.eq_of_toNat_eq
  unfold value DecimalDigits.tens DecimalDigits.ones at *
  omega

/-- The digits of a byte, read at the two widths the processors add at. -/
theorem nibbles : ∀ v : BitVec 8,
    (int v &&& 0x0F = BitVec.ofNat 32 (ones v) ∧ int v &&& 0xF0 = BitVec.ofNat 32 (16 * tens v)) ∧
      v.setWidth 16 &&& 0x0F = BitVec.ofNat 16 (ones v) ∧
      v.setWidth 16 &&& 0xF0 = BitVec.ofNat 16 (16 * tens v) := by
  decide

theorem low_nibble (v : BitVec 8) : int v &&& 0x0F = BitVec.ofNat 32 (ones v) := (nibbles v).1.1

theorem high_nibble (v : BitVec 8) : int v &&& 0xF0 = BitVec.ofNat 32 (16 * tens v) :=
  (nibbles v).1.2

/-! ## The carry flag -/

def carryNat (p : BitVec 8) : ℕ := if flag p FLAG_C then 1 else 0

theorem flag_orIf_C {p : BitVec 8} (clear : flag p FLAG_C = false) (on : Bool) :
    flag (orIf p FLAG_C on) FLAG_C = on := by
  cases on with
  | false => exact clear
  | true =>
    revert clear p
    decide

/-- What clearing the flags of a result leaves of the carry and the decimal flag. -/
theorem cleared_flags : ∀ p : BitVec 8,
    (flag (p &&& ~~~CVZN) FLAG_C = false ∧ flag (p &&& ~~~CVZN) FLAG_D = flag p FLAG_D) ∧
      flag (p &&& ~~~(FLAG_N ||| FLAG_Z)) FLAG_C = flag p FLAG_C ∧
      flag (p &&& ~~~(FLAG_N ||| FLAG_Z)) FLAG_D = flag p FLAG_D := by
  decide

theorem carry_cleared (p : BitVec 8) : flag (p &&& ~~~CVZN) FLAG_C = false :=
  (cleared_flags p).1.1

theorem decimal_kept (p : BitVec 8) : flag (p &&& ~~~CVZN) FLAG_D = flag p FLAG_D :=
  (cleared_flags p).1.2

theorem flag_nz {mask : BitVec 8} (apart : FLAG_Z &&& mask = 0#8) (apart' : FLAG_N &&& mask = 0#8)
    (cleared : ∀ p : BitVec 8, flag (p &&& ~~~(FLAG_N ||| FLAG_Z)) mask = flag p mask)
    (p val : BitVec 8) : flag (nz p val) mask = flag p mask := by
  unfold nz
  dsimp only
  rw [flag_orIf_other apart', flag_orIf_other apart, cleared]

theorem nz_C (p val : BitVec 8) : flag (nz p val) FLAG_C = flag p FLAG_C :=
  flag_nz (by decide) (by decide) (fun p => (cleared_flags p).2.1) p val

theorem nz_D (p val : BitVec 8) : flag (nz p val) FLAG_D = flag p FLAG_D :=
  flag_nz (by decide) (by decide) (fun p => (cleared_flags p).2.2) p val

theorem carry_cases : ∀ p : BitVec 8,
    (p &&& FLAG_C = 0 ∧ carryNat p = 0 ∧ flag p FLAG_C = false) ∨
      (p &&& FLAG_C = 1 ∧ carryNat p = 1 ∧ flag p FLAG_C = true) := by
  decide

theorem carry_bit (p : BitVec 8) : int (p &&& FLAG_C) = BitVec.ofNat 32 (carryNat p) := by
  rcases carry_cases p with ⟨bit, carry, -⟩ | ⟨bit, carry, -⟩ <;> rw [bit, carry] <;> rfl

/-! ## One byte -/

/-- What an addition of two decimal bytes should leave. -/
structure AddsByte (a m : BitVec 8) (c : ℕ) (r : BitVec 8) (p : BitVec 8) : Prop where
  sum : value r + 100 * carryNat p = value a + value m + c
  digits : Decimal r
  mode : flag p FLAG_D = true

/-- What a subtraction should leave; the carry flag is the missing borrow. -/
structure SubtractsByte (a m : BitVec 8) (c : ℕ) (r : BitVec 8) (p : BitVec 8) : Prop where
  difference : value r + value m + (1 - c) = value a + 100 * (1 - carryNat p)
  digits : Decimal r
  mode : flag p FLAG_D = true

theorem carryNat_le (p : BitVec 8) : carryNat p ≤ 1 := by
  unfold carryNat
  split <;> omega

/-- The sums of the digits of two decimal bytes and a carry. -/
theorem digit_sums {a m : BitVec 8} (p : BitVec 8) (ha : Decimal a) (hm : Decimal m) :
    ∃ h : Fin 19, ∃ l : Fin 20, h.val = tens a + tens m ∧ l.val = ones a + ones m + carryNat p ∧
      10 * h.val + l.val = value a + value m + carryNat p := by
  have := carryNat_le p
  have := ha.tens
  have := ha.ones
  have := hm.tens
  have := hm.ones
  refine ⟨⟨tens a + tens m, by omega⟩, ⟨ones a + ones m + carryNat p, by omega⟩, rfl, rfl, ?_⟩
  unfold value
  dsimp only
  omega

theorem high_sum (a m : BitVec 8) :
    (int a &&& 0xF0) + (int m &&& 0xF0) = BitVec.ofNat 32 (16 * (tens a + tens m)) := by
  rw [high_nibble, high_nibble, ← BitVec.ofNat_add, Nat.mul_add]

theorem low_sum (a m p : BitVec 8) :
    (int a &&& 0x0F) + (int m &&& 0x0F) + int (p &&& FLAG_C) =
      BitVec.ofNat 32 (ones a + ones m + carryNat p) := by
  rw [low_nibble, low_nibble, carry_bit, ← BitVec.ofNat_add, ← BitVec.ofNat_add]

/-- The result of the NMOS addition, from the sums of the nibbles. -/
def nmosSum (hi lo : BitVec 32) : BitVec 32 :=
  let lo := if 0x0A ≤ lo then ((lo + 0x06) &&& 0x0F) + 0x10 else lo
  let sum := hi + lo
  if 0xA0 ≤ sum then sum + 0x60 else sum

theorem nmosSum_digits : ∀ h : Fin 19, ∀ l : Fin 20,
    let sum := nmosSum (BitVec.ofNat 32 (16 * h)) (BitVec.ofNat 32 l)
    value (sum.setWidth 8) + 100 * (if 0x100 ≤ sum then 1 else 0) = 10 * h.val + l.val ∧
      Decimal (sum.setWidth 8) := by
  decide

theorem addDecimal_adds (s : CPU6502State) {m : BitVec 8} (mode : flag s.p FLAG_D = true)
    (ha : Decimal s.a) (hm : Decimal m) :
    AddsByte s.a m (carryNat s.p) (addDecimal s m).a (addDecimal s m).p := by
  obtain ⟨h, l, hi, lo, total⟩ := digit_sums s.p ha hm
  have digits := nmosSum_digits h l
  rw [hi, lo, ← high_sum, ← low_sum, ← hi, ← lo] at digits
  have carry : flag (addDecimal s m).p FLAG_C =
      decide (0x100 ≤ nmosSum ((int s.a &&& 0xF0) + (int m &&& 0xF0))
        ((int s.a &&& 0x0F) + (int m &&& 0x0F) + int (s.p &&& FLAG_C))) := by
    unfold addDecimal
    dsimp only
    rw [flag_orIf_other (by decide), flag_orIf_C]
    · rfl
    · rw [flag_orIf_other (by decide), flag_orIf_other (by decide), carry_cleared]
  refine ⟨?_, digits.2, ?_⟩
  · unfold carryNat at total ⊢
    rw [carry, ← total, ← digits.1]
    simp only [decide_eq_true_eq]
    rfl
  · unfold addDecimal
    dsimp only
    rw [flag_orIf_other (by decide), flag_orIf_other (by decide), flag_orIf_other (by decide),
      flag_orIf_other (by decide), decimal_kept]
    exact mode

/-- The result of the CMOS addition and its corrected high nibble. -/
def cmosSum (hi lo : BitVec 16) : BitVec 8 × BitVec 16 :=
  let (hi, lo) := if 0x09 < lo then (hi + 0x10, lo + 0x06) else (hi, lo)
  let hi := if 0x90 < hi then hi + 0x60 else hi
  ((lo &&& 0x0F ||| hi &&& 0xF0).setWidth 8, hi)

theorem cmosSum_digits : ∀ h : Fin 19, ∀ l : Fin 20,
    let sum := cmosSum (BitVec.ofNat 16 (16 * h)) (BitVec.ofNat 16 l)
    value sum.1 + 100 * (if sum.2 &&& 0xFF00 != 0 then 1 else 0) = 10 * h.val + l.val ∧
      Decimal sum.1 := by
  decide

theorem high_nibble16 (v : BitVec 8) : v.setWidth 16 &&& 0xF0 = BitVec.ofNat 16 (16 * tens v) :=
  (nibbles v).2.2

theorem low_nibble16 (v : BitVec 8) : v.setWidth 16 &&& 0x0F = BitVec.ofNat 16 (ones v) :=
  (nibbles v).2.1

theorem carry_bit16 (p : BitVec 8) : (p &&& FLAG_C).setWidth 16 = BitVec.ofNat 16 (carryNat p) := by
  rcases carry_cases p with ⟨bit, carry, -⟩ | ⟨bit, carry, -⟩ <;> rw [bit, carry] <;> rfl

theorem adcDecimalCmos_adds (s : CPU6502State) {m : BitVec 8} (mode : flag s.p FLAG_D = true)
    (ha : Decimal s.a) (hm : Decimal m) :
    AddsByte s.a m (carryNat s.p) (adcDecimalCmos s m).a (adcDecimalCmos s m).p := by
  obtain ⟨h, l, hi, lo, total⟩ := digit_sums s.p ha hm
  have digits := cmosSum_digits h l
  have high : (s.a.setWidth 16 &&& 0xF0) + (m.setWidth 16 &&& 0xF0) = BitVec.ofNat 16 (16 * h.val) := by
    rw [high_nibble16, high_nibble16, ← BitVec.ofNat_add, hi, Nat.mul_add]
  have low : (s.a.setWidth 16 &&& 0x0F) + (m.setWidth 16 &&& 0x0F) +
      (s.p &&& FLAG_C).setWidth 16 = BitVec.ofNat 16 l.val := by
    rw [low_nibble16, low_nibble16, carry_bit16, ← BitVec.ofNat_add, ← BitVec.ofNat_add, lo]
  rw [← high, ← low] at digits
  have state : (adcDecimalCmos s m).a =
      (cmosSum ((s.a.setWidth 16 &&& 0xF0) + (m.setWidth 16 &&& 0xF0))
        ((s.a.setWidth 16 &&& 0x0F) + (m.setWidth 16 &&& 0x0F) +
          (s.p &&& FLAG_C).setWidth 16)).1 := by
    unfold adcDecimalCmos cmosSum
    dsimp only
  have carry : flag (adcDecimalCmos s m).p FLAG_C =
      ((cmosSum ((s.a.setWidth 16 &&& 0xF0) + (m.setWidth 16 &&& 0xF0))
        ((s.a.setWidth 16 &&& 0x0F) + (m.setWidth 16 &&& 0x0F) +
          (s.p &&& FLAG_C).setWidth 16)).2 &&& 0xFF00 != 0) := by
    unfold adcDecimalCmos cmosSum
    dsimp only
    split
    · dsimp only
      rw [nz_C, flag_orIf_other (by decide), flag_orIf_C (carry_cleared _)]
    · dsimp only
      rw [nz_C, flag_orIf_other (by decide), flag_orIf_C (carry_cleared _)]
  refine ⟨?_, ?_, ?_⟩
  · unfold carryNat at total ⊢
    rw [carry, state, ← total]
    exact digits.1
  · rw [state]
    exact digits.2
  · unfold adcDecimalCmos
    dsimp only
    split
    · dsimp only
      rw [nz_D, flag_orIf_other (by decide), flag_orIf_other (by decide), decimal_kept]
      exact mode
    · dsimp only
      rw [nz_D, flag_orIf_other (by decide), flag_orIf_other (by decide), decimal_kept]
      exact mode

/-- The 45GS02's sum before its high nibble is corrected. -/
def gs02Sum (hi lo : BitVec 32) : BitVec 32 :=
  let lo := if 9 < lo then lo + 6 else lo
  (lo &&& 0x0F) + hi + if lo < 0x10 then 0 else 0x10

theorem gs02Sum_digits : ∀ h : Fin 19, ∀ l : Fin 20,
    let t := gs02Sum (BitVec.ofNat 32 (16 * h)) (BitVec.ofNat 32 l)
    if 9 < (t >>> 4 &&& 0x1F) then
      value (((t + 0x60) &&& 0xFF).setWidth 8) + 100 = 10 * h.val + l.val ∧
        Decimal (((t + 0x60) &&& 0xFF).setWidth 8)
    else value (t.setWidth 8) = 10 * h.val + l.val ∧ Decimal (t.setWidth 8) := by
  decide

theorem adcDecimal_adds (s : CPU45GS02State) {m : BitVec 8} (mode : flag s.p FLAG_D = true)
    (ha : Decimal s.a) (hm : Decimal m) :
    AddsByte s.a m (carryNat s.p) (s.adcDecimal m).a (s.adcDecimal m).p := by
  obtain ⟨h, l, hi, lo, total⟩ := digit_sums s.p ha hm
  have digits := gs02Sum_digits h l
  have high : (int s.a &&& 0xF0) + (int m &&& 0xF0) = BitVec.ofNat 32 (16 * h.val) := by
    rw [high_sum, hi]
  have low : (int s.a &&& 0x0F) + (int m &&& 0x0F) + int (s.p &&& FLAG_C) = BitVec.ofNat 32 l.val := by
    rw [low_sum, lo]
  rw [← high, ← low] at digits
  unfold CPU45GS02State.adcDecimal
  extract_lets a c lo0 lo1 t p p1 p2 p3
  have sum : t = gs02Sum ((int s.a &&& 0xF0) + (int m &&& 0xF0))
      ((int s.a &&& 0x0F) + (int m &&& 0x0F) + int (s.p &&& FLAG_C)) := by
    change (lo1 &&& 0x0F) + (int s.a &&& 0xF0) + (int m &&& 0xF0) + _ = (lo1 &&& 0x0F) + (_ + _) + _
    rw [BitVec.add_assoc (lo1 &&& 0x0F)]
  have clear : flag p3 FLAG_C = false := by
    rw [flag_orIf_other (by decide), flag_orIf_other (by decide), flag_orIf_other (by decide)]
    exact carry_cleared s.p
  have kept : flag p3 FLAG_D = true := by
    rw [flag_orIf_other (by decide), flag_orIf_other (by decide), flag_orIf_other (by decide)]
    exact (decimal_kept s.p).trans mode
  rw [← sum] at digits
  dsimp only at digits
  split at digits
  next exceeds =>
    rw [if_pos exceeds]
    refine ⟨?_, digits.2, (flag_orIf_other (m := FLAG_C) (by decide) true).trans kept⟩
    have carry : carryNat (p3 ||| FLAG_C) = 1 := if_pos (flag_orIf_C clear true)
    rw [carry, ← total]
    exact digits.1
  next fits =>
    rw [if_neg fits]
    refine ⟨?_, digits.2, kept⟩
    have carry : carryNat p3 = 0 := if_neg (by rw [clear]; decide)
    rw [carry, ← total]
    exact digits.1

/-! ### Subtractions -/

/-- A decimal difference with the borrow in, before a borrow out makes up for it. -/
def difference (a m p : BitVec 8) : ℤ := (value a : ℤ) - value m - (1 - carryNat p)

/-- A byte of a difference, and a carry flag that says whether there was enough. -/
theorem subtracts_of {a m p r p' : BitVec 8}
    (digits : (value r : ℤ) = difference a m p + if difference a m p < 0 then 100 else 0)
    (decimal : Decimal r) (carry : flag p' FLAG_C = decide (0 ≤ difference a m p))
    (mode : flag p' FLAG_D = true) : SubtractsByte a m (carryNat p) r p' := by
  have := carryNat_le p
  refine ⟨?_, decimal, mode⟩
  have out : carryNat p' = if 0 ≤ difference a m p then 1 else 0 := by
    unfold carryNat
    rw [carry]
    simp only [decide_eq_true_eq]
  rw [out]
  unfold difference at *
  split at digits <;> split <;> omega

/-- The differences of the digits of two decimal bytes; `e` counts the borrow in. -/
theorem digit_differences {a m : BitVec 8} (p : BitVec 8) (ha : Decimal a) (hm : Decimal m) :
    ∃ d : Fin 19, ∃ e : Fin 20, (d.val : ℤ) - 9 = (tens a : ℤ) - tens m ∧
      (e.val : ℤ) - 10 = (ones a : ℤ) - ones m + carryNat p - 1 ∧
      10 * ((d.val : ℤ) - 9) + (e.val - 10) = difference a m p := by
  have := carryNat_le p
  have := ha.tens
  have := ha.ones
  have := hm.tens
  have := hm.ones
  refine ⟨⟨tens a + 9 - tens m, by omega⟩, ⟨ones a + 9 + carryNat p - ones m, by omega⟩, ?_, ?_, ?_⟩
  · dsimp only
    omega
  · dsimp only
    omega
  · unfold difference value
    dsimp only
    omega

theorem ofInt_sub (n : ℕ) (x y : ℤ) : BitVec.ofInt n (x - y) = BitVec.ofInt n x - BitVec.ofInt n y := by
  refine eq_sub_of_add_eq ?_
  rw [← BitVec.ofInt_add, Int.sub_add_cancel]

/-- A byte and its complement by the byte's digits, at the two widths. -/
theorem bytes_of_digits : ∀ v : BitVec 8,
    (int v = BitVec.ofInt 32 (16 * (tens v : ℤ) + ones v) ∧
      int (v ^^^ 0xFF) = BitVec.ofInt 32 (255 - (16 * (tens v : ℤ) + ones v)) ∧
      int v >>> 4 = BitVec.ofInt 32 (tens v)) ∧
    v.setWidth 16 = BitVec.ofInt 16 (16 * (tens v : ℤ) + ones v) ∧
      (v ^^^ 0xFF).setWidth 16 = BitVec.ofInt 16 (255 - (16 * (tens v : ℤ) + ones v)) := by
  decide

theorem whole_byte (v : BitVec 8) : int v = BitVec.ofInt 32 (16 * (tens v : ℤ) + ones v) :=
  (bytes_of_digits v).1.1

theorem complement_byte (v : BitVec 8) :
    int (v ^^^ 0xFF) = BitVec.ofInt 32 (255 - (16 * (tens v : ℤ) + ones v)) :=
  (bytes_of_digits v).1.2.1

theorem whole_byte16 (v : BitVec 8) :
    v.setWidth 16 = BitVec.ofInt 16 (16 * (tens v : ℤ) + ones v) :=
  (bytes_of_digits v).2.1

theorem complement_byte16 (v : BitVec 8) :
    (v ^^^ 0xFF).setWidth 16 = BitVec.ofInt 16 (255 - (16 * (tens v : ℤ) + ones v)) :=
  (bytes_of_digits v).2.2

theorem tens_nibble (v : BitVec 8) : int v >>> 4 = BitVec.ofInt 32 (tens v) :=
  (bytes_of_digits v).1.2.2

theorem carry_int (p : BitVec 8) : int (p &&& FLAG_C) = BitVec.ofInt 32 (carryNat p) := by
  rcases carry_cases p with ⟨bit, carry, -⟩ | ⟨bit, carry, -⟩ <;> rw [bit, carry] <;> rfl

theorem carry_int16 (p : BitVec 8) : (p &&& FLAG_C).setWidth 16 = BitVec.ofInt 16 (carryNat p) := by
  rcases carry_cases p with ⟨bit, carry, -⟩ | ⟨bit, carry, -⟩ <;> rw [bit, carry] <;> rfl

theorem low_difference (a m p : BitVec 8) :
    (int a &&& 0x0F) - (int m &&& 0x0F) + int (p &&& FLAG_C) - 1 =
      BitVec.ofInt 32 ((ones a : ℤ) - ones m + carryNat p - 1) := by
  rw [low_nibble, low_nibble, carry_int, ofInt_sub, BitVec.ofInt_add, ofInt_sub, BitVec.ofInt_natCast,
    BitVec.ofInt_natCast]
  rfl

theorem high_difference (a m : BitVec 8) :
    (int a &&& 0xF0) - (int m &&& 0xF0) = BitVec.ofInt 32 (16 * ((tens a : ℤ) - tens m)) := by
  have apart : 16 * ((tens a : ℤ) - tens m) = ((16 * tens a : ℕ) : ℤ) - (16 * tens m : ℕ) := by
    push_cast
    ring
  rw [high_nibble, high_nibble, apart, ofInt_sub, BitVec.ofInt_natCast, BitVec.ofInt_natCast]

/-- The result of the NMOS subtraction, from the differences of the nibbles. -/
def nmosDifference (hi lo : BitVec 32) : BitVec 32 :=
  let lo := if lo.slt 0 then ((lo - 0x06) &&& 0x0F) - 0x10 else lo
  let r := hi + lo
  if r.slt 0 then r - 0x60 else r

theorem nmosDifference_digits : ∀ d : Fin 19, ∀ e : Fin 20,
    let x : ℤ := 10 * ((d.val : ℤ) - 9) + (e.val - 10)
    let r := nmosDifference (BitVec.ofInt 32 (16 * ((d.val : ℤ) - 9))) (BitVec.ofInt 32 ((e.val : ℤ) - 10))
    (value (r.setWidth 8) : ℤ) = x + (if x < 0 then 100 else 0) ∧ Decimal (r.setWidth 8) ∧
      decide (0xFF < BitVec.ofInt 16 (16 * ((d.val : ℤ) - 9) + (e.val - 10) + 256)) =
        decide (0 ≤ x) := by
  decide

theorem subtract_subtracts (s : CPU6502State) {m : BitVec 8} (mode : flag s.p FLAG_D = true)
    (ha : Decimal s.a) (hm : Decimal m) :
    SubtractsByte s.a m (carryNat s.p) (subtract s m).a (subtract s m).p := by
  obtain ⟨d, e, high, low, whole⟩ := digit_differences s.p ha hm
  obtain ⟨digits, decimal, carry⟩ := nmosDifference_digits d e
  have hi : (int s.a &&& 0xF0) - (int m &&& 0xF0) = BitVec.ofInt 32 (16 * ((d.val : ℤ) - 9)) := by
    rw [high_difference, high]
  have lo : (int s.a &&& 0x0F) - (int m &&& 0x0F) + int (s.p &&& FLAG_C) - 1 =
      BitVec.ofInt 32 ((e.val : ℤ) - 10) := by
    rw [low_difference, low]
  have sum : s.a.setWidth 16 + (m ^^^ 0xFF).setWidth 16 + (s.p &&& FLAG_C).setWidth 16 =
      BitVec.ofInt 16 (16 * ((d.val : ℤ) - 9) + (e.val - 10) + 256) := by
    rw [whole_byte16, complement_byte16, carry_int16, ← BitVec.ofInt_add, ← BitVec.ofInt_add, high, low]
    congr 1
    ring
  have binaryD : flag (addBinary s (m ^^^ 0xFF)).p FLAG_D = true := by
    unfold addBinary
    dsimp only
    rw [nz_D, flag_orIf_other (by decide), flag_orIf_other (by decide), decimal_kept]
    exact mode
  have binaryC : flag (addBinary s (m ^^^ 0xFF)).p FLAG_C = decide (0 ≤ difference s.a m s.p) := by
    unfold addBinary
    dsimp only
    rw [nz_C, flag_orIf_other (by decide), flag_orIf_C (carry_cleared _), sum, carry, whole]
  have state : subtract s m = { addBinary s (m ^^^ 0xFF) with
      a := (nmosDifference ((int s.a &&& 0xF0) - (int m &&& 0xF0))
        ((int s.a &&& 0x0F) - (int m &&& 0x0F) + int (s.p &&& FLAG_C) - 1)).setWidth 8 } := by
    unfold subtract
    dsimp only
    rw [if_pos binaryD]
    rfl
  rw [state, hi, lo]
  rw [whole] at digits
  exact subtracts_of digits decimal binaryC binaryD

/-- The result of the CMOS subtraction, from the difference of the bytes and that of
the low nibbles. -/
def cmosDifference (r lo : BitVec 32) : BitVec 32 :=
  let r := if r.slt 0 then r - 0x60 else r
  if lo.slt 0 then r - 0x06 else r

theorem cmosDifference_digits : ∀ d : Fin 19, ∀ e : Fin 20,
    let x : ℤ := 10 * ((d.val : ℤ) - 9) + (e.val - 10)
    let r := cmosDifference (BitVec.ofInt 32 (16 * ((d.val : ℤ) - 9) + (e.val - 10)))
      (BitVec.ofInt 32 ((e.val : ℤ) - 10))
    (value (r.setWidth 8) : ℤ) = x + (if x < 0 then 100 else 0) ∧ Decimal (r.setWidth 8) ∧
      ((BitVec.ofInt 32 (16 * ((d.val : ℤ) - 9) + (e.val - 10) + 256)).setWidth 16 &&& 0x100#16 != 0) =
        decide (0 ≤ x) := by
  decide

theorem carry_choice (p : BitVec 8) :
    (if flag p FLAG_C then (1 : BitVec 32) else 0) = BitVec.ofInt 32 (carryNat p) := by
  rcases carry_cases p with ⟨-, carry, on⟩ | ⟨-, carry, on⟩ <;> rw [on, carry] <;> rfl

/-- The difference of two bytes with the borrow in. -/
theorem whole_difference {a m p : BitVec 8} {d e : ℤ} (high : d = (tens a : ℤ) - tens m)
    (low : e = (ones a : ℤ) - ones m + carryNat p - 1) :
    int a - int m + BitVec.ofInt 32 (carryNat p) - 1 = BitVec.ofInt 32 (16 * d + e) := by
  have one : (1 : BitVec 32) = BitVec.ofInt 32 1 := rfl
  rw [whole_byte, whole_byte, one, ← ofInt_sub, ← BitVec.ofInt_add, ← ofInt_sub, high, low]
  congr 1
  ring

theorem sbcDecimalCmos_subtracts (s : CPU6502State) {m : BitVec 8} (mode : flag s.p FLAG_D = true)
    (ha : Decimal s.a) (hm : Decimal m) :
    SubtractsByte s.a m (carryNat s.p) (sbcDecimalCmos s m).a (sbcDecimalCmos s m).p := by
  obtain ⟨d, e, high, low, whole⟩ := digit_differences s.p ha hm
  obtain ⟨digits, decimal, carry⟩ := cmosDifference_digits d e
  have lo : (int s.a &&& 0x0F) - (int m &&& 0x0F) + BitVec.ofInt 32 (carryNat s.p) - 1 =
      BitVec.ofInt 32 ((e.val : ℤ) - 10) := by
    rw [← carry_int, low_difference, low]
  have r := whole_difference (m := m) high low
  have bin : int s.a + int (m ^^^ 0xFF) + BitVec.ofInt 32 (carryNat s.p) =
      BitVec.ofInt 32 (16 * ((d.val : ℤ) - 9) + (e.val - 10) + 256) := by
    rw [whole_byte, complement_byte, ← BitVec.ofInt_add, ← BitVec.ofInt_add, high, low]
    congr 1
    ring
  have state : (sbcDecimalCmos s m).a =
      (cmosDifference (BitVec.ofInt 32 (16 * ((d.val : ℤ) - 9) + (e.val - 10)))
        (BitVec.ofInt 32 ((e.val : ℤ) - 10))).setWidth 8 := by
    unfold sbcDecimalCmos
    dsimp only
    rw [carry_choice, lo, r]
    rfl
  rw [whole] at digits
  refine subtracts_of ?_ ?_ ?_ ?_
  · rw [state]
    exact digits
  · rw [state]
    exact decimal
  · unfold sbcDecimalCmos
    dsimp only
    rw [nz_C, flag_orIf_other (by decide), flag_orIf_C (carry_cleared _), carry_choice, bin, ← whole]
    exact carry
  · unfold sbcDecimalCmos
    dsimp only
    rw [nz_D, flag_orIf_other (by decide), flag_orIf_other (by decide), decimal_kept]
    exact mode

/-- The result of the 45GS02 subtraction, from the differences of the digits. -/
def gs02Difference (hi lo : BitVec 32) : BitVec 32 :=
  let d := lo &&& 0x1FF
  let d :=
    if d &&& 0x10 != 0 then ((d &&& 0x0F) - 6) &&& 0x0F ||| ((hi - 1) &&& 0x1F) <<< 4
    else d &&& 0x0F ||| (hi &&& 0x1F) <<< 4
  if d &&& 0x100 != 0 then (d - 0x60) &&& 0x1FF else d

theorem gs02Difference_digits : ∀ d : Fin 19, ∀ e : Fin 20,
    let x : ℤ := 10 * ((d.val : ℤ) - 9) + (e.val - 10)
    let r := gs02Difference (BitVec.ofInt 32 ((d.val : ℤ) - 9)) (BitVec.ofInt 32 ((e.val : ℤ) - 10))
    (value (r.setWidth 8) : ℤ) = x + (if x < 0 then 100 else 0) ∧ Decimal (r.setWidth 8) ∧
      decide ((BitVec.ofInt 32 (16 * ((d.val : ℤ) - 9) + (e.val - 10))).setWidth 16 ≤ 0xFF#16) =
        decide (0 ≤ x) := by
  decide

theorem borrow_choice (p : BitVec 8) :
    (if flag p FLAG_C then (0 : BitVec 32) else 1) = BitVec.ofInt 32 (1 - carryNat p) := by
  rcases carry_cases p with ⟨-, carry, on⟩ | ⟨-, carry, on⟩ <;> rw [on, carry] <;> rfl

theorem sbcDecimal_subtracts (s : CPU45GS02State) {m : BitVec 8} (mode : flag s.p FLAG_D = true)
    (ha : Decimal s.a) (hm : Decimal m) :
    SubtractsByte s.a m (carryNat s.p) (s.sbcDecimal m).a (s.sbcDecimal m).p := by
  obtain ⟨d, e, high, low, whole⟩ := digit_differences s.p ha hm
  obtain ⟨digits, decimal, carry⟩ := gs02Difference_digits d e
  have lo : (int s.a &&& 0x0F) - (int m &&& 0x0F) - BitVec.ofInt 32 (1 - carryNat s.p) =
      BitVec.ofInt 32 ((e.val : ℤ) - 10) := by
    rw [low_nibble, low_nibble, ← BitVec.ofInt_natCast, ← BitVec.ofInt_natCast, ← ofInt_sub,
      ← ofInt_sub, low]
    congr 1
    ring
  have hi : int s.a >>> 4 - int m >>> 4 = BitVec.ofInt 32 ((d.val : ℤ) - 9) := by
    rw [tens_nibble, tens_nibble, ← ofInt_sub, high]
  have bin : int s.a - int m - BitVec.ofInt 32 (1 - carryNat s.p) =
      BitVec.ofInt 32 (16 * ((d.val : ℤ) - 9) + (e.val - 10)) := by
    rw [whole_byte, whole_byte, ← ofInt_sub, ← ofInt_sub, high, low]
    congr 1
    ring
  have state : (s.sbcDecimal m).a =
      (gs02Difference (BitVec.ofInt 32 ((d.val : ℤ) - 9)) (BitVec.ofInt 32 ((e.val : ℤ) - 10))).setWidth
        8 := by
    unfold CPU45GS02State.sbcDecimal
    dsimp only
    rw [borrow_choice, lo, hi]
    rfl
  rw [whole] at digits
  refine subtracts_of ?_ ?_ ?_ ?_
  · rw [state]
    exact digits
  · rw [state]
    exact decimal
  · unfold CPU45GS02State.sbcDecimal
    dsimp only
    rw [flag_orIf_other (by decide), flag_orIf_other (by decide), flag_orIf_other (by decide)]
    refine (flag_orIf_C (carry_cleared s.p) _).trans ?_
    rw [borrow_choice, bin, ← whole]
    exact carry
  · unfold CPU45GS02State.sbcDecimal
    dsimp only
    rw [flag_orIf_other (by decide), flag_orIf_other (by decide), flag_orIf_other (by decide),
      flag_orIf_other (by decide)]
    exact (decimal_kept s.p).trans mode

end Mmemu.Guarantees.DecimalDigits

/-!
# Decimal arithmetic in chains

Chains of ADC or SBC in decimal mode, each instruction taking up the carry that the one
before it left. On decimal digits they add and subtract numbers of any length, and the
NMOS, the CMOS and the 45GS02 core do the same in every step.
-/
namespace Mmemu.Guarantees.DecimalChains
open Mmemu.Library.CarryChain Mmemu.Library.StateFrame Mmemu.Source Mmemu.Source.MemoryBus
open Mmemu.Guarantees.DecimalDigits
open Mmemu.Source.Cpu6502 (CPU6502State MOS6502 flag FLAG_C FLAG_D read opADC opSBC opLDA opSTA
  adcDecimalCmos addDecimal sbcDecimalCmos subtract)
open Mmemu.Source
open Mmemu.Source.Cpu45gs02 (CPU45GS02State MOS45GS02 MachineBus Operand)

/-! ## Chains -/

inductive Arith where
  | ADC | SBC
  deriving DecidableEq, Repr

/-- CLC before an addition, SEC before a subtraction. -/
def Arith.start : Arith → Bool
  | .ADC => false
  | .SBC => true

/-- The carry out of an addition, the borrow out of a subtraction. -/
def Arith.carried : Arith → BitVec 8 → ℕ
  | .ADC, p => carryNat p
  | .SBC, p => 1 - carryNat p

/-- What a chain works out. -/
def Arith.exactly : Arith → ℕ → ℕ → ℤ
  | .ADC, x, y => (x : ℤ) + y
  | .SBC, x, y => (x : ℤ) - y

/-- When a chain of `n` instructions should end with C set: the sum has more digits than
fit, or the difference needs no borrow. -/
def Arith.carries : Arith → ℕ → ℕ → ℕ → Prop
  | .ADC, n, x, y => 100 ^ n ≤ x + y
  | .SBC, _, x, y => y ≤ x

/-- One instruction of a chain: the accumulator before it, the operand it read, and the
accumulator and the status register after it. -/
structure Row where
  left : BitVec 8
  operand : BitVec 8
  result : BitVec 8
  status : BitVec 8
  deriving DecidableEq, Repr

def Row.column (op : Arith) (row : Row) : Column :=
  match op with
  | .ADC => ⟨value row.left, value row.operand, value row.result, op.carried row.status⟩
  | .SBC => ⟨value row.result, value row.operand, value row.left, op.carried row.status⟩

/-- What the instruction does to decimal digits, `c` being the carry flag before it. -/
def Row.Sound (op : Arith) (c : ℕ) (row : Row) : Prop :=
  match op with
  | .ADC => AddsByte row.left row.operand c row.result row.status
  | .SBC => SubtractsByte row.left row.operand c row.result row.status

/-- A core as a chain sees it, with an operand for each `α`. -/
structure Core (σ α : Type) where
  a : σ → BitVec 8
  p : σ → BitVec 8
  operand : α → σ → BitVec 8
  run : Arith → α → σ → σ
  sound : ∀ op o c, flag (p c) FLAG_D = true → Decimal (a c) → Decimal (operand o c) →
    Row.Sound op (carryNat (p c)) ⟨a c, operand o c, a (run op o c), p (run op o c)⟩

section Chains
variable {σ α : Type} {K : Core σ α} {op : Arith}

def Core.row (K : Core σ α) (op : Arith) (o : α) (c : σ) : Row :=
  ⟨K.a c, K.operand o c, K.a (K.run op o c), K.p (K.run op o c)⟩

/-- What runs before one of the instructions and finds its operand: loads, stores and all
that leaves the carry and the mode as they are. -/
structure Link (K : Core σ α) where
  before : σ → α × σ
  carry : ∀ c, flag (K.p (before c).2) FLAG_C = flag (K.p c) FLAG_C
  mode : ∀ c, flag (K.p (before c).2) FLAG_D = flag (K.p c) FLAG_D

def rows (op : Arith) : List (Link K) → σ → List Row
  | [], _ => []
  | link :: rest, c =>
    let (o, c) := link.before c
    K.row op o c :: rows op rest (K.run op o c)

/-- The core after the last instruction. -/
def after (op : Arith) : List (Link K) → σ → σ
  | [], c => c
  | link :: rest, c =>
    let (o, c) := link.before c
    after op rest (K.run op o c)

/-- Every instruction does its digits and takes the carry the one before it left. -/
def Chained (op : Arith) : ℕ → List Row → Prop
  | _, [] => True
  | c, row :: rest => row.Sound op c ∧ Chained op (carryNat row.status) rest

theorem Row.Sound.mode {c : ℕ} {row : Row} (h : row.Sound op c) : flag row.status FLAG_D = true := by
  cases op with
  | ADC => exact AddsByte.mode h
  | SBC => exact SubtractsByte.mode h

theorem Row.Sound.digits {c : ℕ} {row : Row} (h : row.Sound op c) : Decimal row.result := by
  cases op with
  | ADC => exact AddsByte.digits h
  | SBC => exact SubtractsByte.digits h

theorem chained_rows {links : List (Link K)} {c : σ} (mode : flag (K.p c) FLAG_D = true)
    (digits : ∀ row ∈ rows op links c, Decimal row.left ∧ Decimal row.operand) :
    Chained op (carryNat (K.p c)) (rows op links c) := by
  induction links generalizing c with
  | nil => trivial
  | cons link rest ih =>
    obtain ⟨left, operand⟩ := digits _ List.mem_cons_self
    have kept : carryNat (K.p (link.before c).2) = carryNat (K.p c) := by
      unfold carryNat
      rw [link.carry]
    have here := K.sound op (link.before c).1 (link.before c).2 ((link.mode c).trans mode) left operand
    rw [kept] at here
    refine ⟨here, ih here.mode ?_⟩
    intro row mem
    exact digits row (List.mem_cons_of_mem _ mem)

theorem Row.Sound.adds {p : BitVec 8} {row : Row} (h : row.Sound op (carryNat p)) :
    (row.column op).sum + 100 * (row.column op).carry =
      (row.column op).left + (row.column op).right + op.carried p := by
  cases op with
  | ADC => exact AddsByte.sum h
  | SBC => exact (SubtractsByte.difference h).symm

theorem Chained.adds {p : BitVec 8} {l : List Row} (h : Chained op (carryNat p) l) :
    Adds 100 (op.carried p) (l.map (Row.column op)) := by
  induction l generalizing p with
  | nil => trivial
  | cons row rest ih =>
    refine ⟨h.1.adds, ?_⟩
    have later := ih h.2
    cases op <;> exact later

theorem Chained.digits {c : ℕ} {l : List Row} (h : Chained op c l) :
    ∀ row ∈ l, Decimal row.result := by
  induction l generalizing c with
  | nil => exact fun _ mem => absurd mem List.not_mem_nil
  | cons head rest ih =>
    intro row mem
    rcases List.mem_cons.mp mem with rfl | mem
    · exact h.1.digits
    · exact ih h.2 row mem

theorem carryOut_rows (links : List (Link K)) (c : σ) :
    carryOut (op.carried (K.p c)) ((rows op links c).map (Row.column op)) =
      op.carried (K.p (after op links c)) := by
  induction links generalizing c with
  | nil => rfl
  | cons link rest ih =>
    have later := ih (K.run op (link.before c).1 (link.before c).2)
    cases op <;> exact later

/-- The number that bytes of decimal digits spell, the lowest first. -/
def decimalNumber (bytes : List (BitVec 8)) : ℕ := Nat.ofDigits 100 (bytes.map value)

theorem number_column (part : Column → ℕ) (byte : Row → BitVec 8)
    (same : ∀ row : Row, part (row.column op) = value (byte row)) (l : List Row) :
    number 100 part (l.map (Row.column op)) = decimalNumber (l.map byte) := by
  unfold number decimalNumber
  rw [List.map_map, List.map_map]
  congr 1
  exact List.map_congr_left fun row _ => same row

/-- Instructions on the same digits with the same carry leave the same. -/
theorem Row.Sound.unique {p p' : BitVec 8} {row row' : Row} (h : row.Sound op (carryNat p))
    (h' : row'.Sound op (carryNat p')) (carry : carryNat p = carryNat p') (left : row.left = row'.left)
    (operand : row.operand = row'.operand) :
    row.result = row'.result ∧ carryNat row.status = carryNat row'.status := by
  have fits := h.digits.value_lt
  have fits' := h'.digits.value_lt
  have := carryNat_le row.status
  have := carryNat_le row'.status
  have found : value row.result = value row'.result ∧ carryNat row.status = carryNat row'.status := by
    cases op with
    | ADC =>
      have sum := AddsByte.sum h
      have sum' := AddsByte.sum h'
      rw [left, operand, carry] at sum
      omega
    | SBC =>
      have difference := SubtractsByte.difference h
      have difference' := SubtractsByte.difference h'
      rw [left, operand, carry] at difference
      omega
  exact ⟨h.digits.ext h'.digits found.1, found.2⟩

/-- What a chain leaves, step by step: the byte and the carry. -/
def outcome (l : List Row) : List (BitVec 8 × ℕ) := l.map fun row => (row.result, carryNat row.status)

theorem Chained.unique {p p' : BitVec 8} {l l' : List Row} (h : Chained op (carryNat p) l)
    (h' : Chained op (carryNat p') l') (carry : carryNat p = carryNat p')
    (left : l.map Row.left = l'.map Row.left) (operand : l.map Row.operand = l'.map Row.operand) :
    outcome l = outcome l' := by
  induction l generalizing l' p p' with
  | nil =>
    rw [List.map_nil, eq_comm, List.map_eq_nil_iff] at left
    rw [left]
  | cons row rest ih =>
    cases l' with
    | nil => cases left
    | cons row' rest' =>
      rw [List.map_cons, List.map_cons, List.cons.injEq] at left operand
      obtain ⟨result, status⟩ := h.1.unique h'.1 carry left.1 operand.1
      have later := ih h.2 h'.2 status left.2 operand.2
      unfold outcome at later ⊢
      rw [List.map_cons, List.map_cons, later, result, status]

/-- A chain runs in decimal mode from the right carry and works on these bytes. -/
structure Feeds (op : Arith) (links : List (Link K)) (c : σ) (left operand : List (BitVec 8)) : Prop where
  mode : flag (K.p c) FLAG_D = true
  start : flag (K.p c) FLAG_C = op.start
  left : (rows op links c).map Row.left = left
  operand : (rows op links c).map Row.operand = operand

/-- The bytes of the result are decimal digits of the sum or the difference, and the
carry is the last one. -/
structure Computes (op : Arith) (links : List (Link K)) (c : σ) (x y : ℕ) : Prop where
  digits : ∀ row ∈ rows op links c, Decimal row.result
  number : (decimalNumber ((rows op links c).map Row.result) : ℤ) =
    op.exactly x y % 100 ^ links.length
  carry : flag (K.p (after op links c)) FLAG_C = true ↔ op.carries links.length x y

theorem length_rows (op : Arith) (links : List (Link K)) (c : σ) :
    (rows op links c).length = links.length := by
  induction links generalizing c with
  | nil => rfl
  | cons link rest ih => exact congrArg (· + 1) (ih _)

theorem carried_start {p : BitVec 8} (start : flag p FLAG_C = op.start) : op.carried p = 0 := by
  cases op with
  | ADC => exact if_neg (by rw [start]; decide)
  | SBC =>
    have on : carryNat p = 1 := if_pos start
    exact congrArg (1 - ·) on

theorem carryNat_ne_zero {p : BitVec 8} : carryNat p ≠ 0 ↔ flag p FLAG_C = true := by
  unfold carryNat
  split
  next on => exact iff_of_true Nat.one_ne_zero on
  next off => exact iff_of_false (fun h => h rfl) off

theorem carryNat_eq_zero {p : BitVec 8} : 1 - carryNat p ≠ 0 ↔ flag p FLAG_C = false := by
  unfold carryNat
  split
  next on => exact iff_of_false (fun h => h rfl) (by rw [on]; decide)
  next off => exact iff_of_true Nat.one_ne_zero (Bool.eq_false_iff.mpr off)

/-- All rows of a chain that works on decimal bytes have decimal bytes. -/
theorem Feeds.decimal {links : List (Link K)} {c : σ} {left operand : List (BitVec 8)}
    (h : Feeds op links c left operand) (decimal : ∀ v ∈ left ++ operand, Decimal v) :
    ∀ row ∈ rows op links c, Decimal row.left ∧ Decimal row.operand := by
  intro row mem
  constructor
  · refine decimal _ (List.mem_append_left _ ?_)
    rw [← h.left]
    exact List.mem_map_of_mem mem
  · refine decimal _ (List.mem_append_right _ ?_)
    rw [← h.operand]
    exact List.mem_map_of_mem mem

theorem Feeds.chained {links : List (Link K)} {c : σ} {left operand : List (BitVec 8)}
    (h : Feeds op links c left operand) (decimal : ∀ v ∈ left ++ operand, Decimal v) :
    Chained op (carryNat (K.p c)) (rows op links c) :=
  chained_rows h.mode (h.decimal decimal)

theorem Feeds.computes {links : List (Link K)} {c : σ} {left operand : List (BitVec 8)}
    (h : Feeds op links c left operand) (decimal : ∀ v ∈ left ++ operand, Decimal v) :
    Computes op links c (decimalNumber left) (decimalNumber operand) := by
  have chained := h.chained decimal
  have results := chained.digits
  have adds := chained.adds
  have out : carryOut (op.carried (K.p c)) ((rows op links c).map (Row.column op)) =
      op.carried (K.p (after op links c)) := carryOut_rows links c
  rw [carried_start h.start] at adds out
  have length : ((rows op links c).map (Row.column op)).length = links.length := by
    rw [List.length_map, length_rows]
  cases op with
  | ADC =>
    have small : ∀ col ∈ (rows .ADC links c).map (Row.column .ADC), col.sum < 100 := by
      intro col mem
      obtain ⟨row, found, rfl⟩ := List.mem_map.mp mem
      exact (results row found).value_lt
    have sum := adds.sum_mod (by decide) small
    have carry := adds.carry_iff (by decide) small
    rw [number_column Column.left Row.left fun _ => rfl,
      number_column Column.right Row.operand fun _ => rfl, h.left, h.operand, length] at sum carry
    rw [number_column Column.sum Row.result fun _ => rfl] at sum
    rw [out] at carry
    refine ⟨results, ?_, carryNat_ne_zero.symm.trans carry⟩
    rw [sum]
    unfold Arith.exactly
    push_cast
    rfl
  | SBC =>
    have small : ∀ col ∈ (rows .SBC links c).map (Row.column .SBC), col.left < 100 := by
      intro col mem
      obtain ⟨row, found, rfl⟩ := List.mem_map.mp mem
      exact (results row found).value_lt
    have difference := adds.left_mod (by decide) small
    have borrow := adds.borrow_iff (by decide) small
    rw [number_column Column.sum Row.left fun _ => rfl,
      number_column Column.right Row.operand fun _ => rfl, h.left, h.operand] at difference borrow
    rw [number_column Column.left Row.result fun _ => rfl, length] at difference
    rw [out] at borrow
    refine ⟨results, difference, ?_⟩
    have missing := carryNat_eq_zero.symm.trans borrow
    rw [← Bool.not_eq_false, missing, Nat.not_lt]
    rfl

/-- Chains on two cores that work on the same bytes do the same in every step. -/
theorem Feeds.agree {σ' α' : Type} {K' : Core σ' α'} {links : List (Link K)} {links' : List (Link K')}
    {c : σ} {c' : σ'} {left operand : List (BitVec 8)} (h : Feeds op links c left operand)
    (h' : Feeds op links' c' left operand) (decimal : ∀ v ∈ left ++ operand, Decimal v) :
    outcome (rows op links c) = outcome (rows op links' c') := by
  refine (h.chained decimal).unique (h'.chained decimal) ?_ (h.left.trans h'.left.symm)
    (h.operand.trans h'.operand.symm)
  unfold carryNat
  rw [h.start, h'.start]

end Chains

/-! ## The cores -/

section Cores
variable {ω : Type}

theorem opADC_state [IBus ω] (addr : BitVec 16) (c : MOS6502 ω) (mode : flag c.state.p FLAG_D = true) :
    (opADC addr c).2.state =
      if c.cmos then adcDecimalCmos c.state (read addr c).1 else addDecimal c.state (read addr c).1 := by
  unfold opADC
  rw [bind_apply, bind_apply, get_apply]
  have choice : ((read addr c).2.cmos && flag (read addr c).2.state.p FLAG_D) = c.cmos := by
    change (c.cmos && flag c.state.p FLAG_D) = _
    rw [mode, Bool.and_true]
  dsimp only
  rw [choice]
  split
  · rfl
  · exact if_pos mode

theorem opSBC_state [IBus ω] (addr : BitVec 16) (c : MOS6502 ω) (mode : flag c.state.p FLAG_D = true) :
    (opSBC addr c).2.state =
      if c.cmos then sbcDecimalCmos c.state (read addr c).1 else subtract c.state (read addr c).1 := by
  unfold opSBC
  rw [bind_apply, bind_apply, get_apply]
  have choice : ((read addr c).2.cmos && flag (read addr c).2.state.p FLAG_D) = c.cmos := by
    change (c.cmos && flag c.state.p FLAG_D) = _
    rw [mode, Bool.and_true]
  dsimp only
  rw [choice]
  split <;> rfl

/-- The 6502 with its `read` operand; `cmos` says which of the two variants it is. -/
def core6502 (ω : Type) [IBus ω] : Core (MOS6502 ω) (BitVec 16) where
  a c := c.state.a
  p c := c.state.p
  operand addr c := (read addr c).1
  run op addr c :=
    match op with
    | .ADC => (opADC addr c).2
    | .SBC => (opSBC addr c).2
  sound := by
    intro op addr c mode left operand
    cases op with
    | ADC =>
      unfold Row.Sound
      dsimp only
      rw [opADC_state addr c mode]
      split
      · exact adcDecimalCmos_adds c.state mode left operand
      · exact addDecimal_adds c.state mode left operand
    | SBC =>
      unfold Row.Sound
      dsimp only
      rw [opSBC_state addr c mode]
      split
      · exact sbcDecimalCmos_subtracts c.state mode left operand
      · exact subtract_subtracts c.state mode left operand

/-- LDA of the next byte, and first STA of the last result where there is one. -/
def load6502 [IBus ω] (result : Option (BitVec 16)) (left operand : BitVec 16) : Link (core6502 ω) where
  before c :=
    let c := match result with
      | some addr => (opSTA addr c).2
      | none => c
    (operand, (opLDA left c).2)
  carry c := by
    cases result <;> exact nz_C _ _
  mode c := by
    cases result <;> exact nz_D _ _

theorem readAt_state [MachineBus ω] (o : Operand) (c : MOS45GS02 ω) :
    (Cpu45gs02.readAt o c).2.state = c.state := by
  cases o with
  | reg => rfl
  | mem addr =>
    change (Cpu45gs02.read8 addr c).2.state = _
    unfold Cpu45gs02.read8
    split <;> rfl
  | flat addr => rfl

theorem loaded_state [MachineBus ω] (f : CPU45GS02State → BitVec 8 → CPU45GS02State) (o : Operand)
    (c : MOS45GS02 ω) :
    (Cpu45gs02.loaded f o c).2.state = f c.state (Cpu45gs02.readAt o c).1 := by
  rw [← readAt_state o c]
  rfl

theorem stored_p [MachineBus ω] (val : CPU45GS02State → BitVec 8) (o : Operand) (c : MOS45GS02 ω) :
    (Cpu45gs02.stored val o c).2.state.p = c.state.p := by
  cases o with
  | reg => rfl
  | mem addr =>
    change (Cpu45gs02.write8 addr (val c.state) c).2.state.p = _
    rw [Cpu45gs02.write8_run]
    cases c.hyperWindow addr with
    | none => rfl
    | some w =>
      rw [Option.elim_some]
      split <;> rfl
  | flat addr => rfl

/-- The 45GS02 with any of its operands. -/
def core45gs02 (ω : Type) [MachineBus ω] : Core (MOS45GS02 ω) Operand where
  a c := c.state.a
  p c := c.state.p
  operand o c := (Cpu45gs02.readAt o c).1
  run op o c :=
    match op with
    | .ADC => (Cpu45gs02.loaded (·.doAdc8 ·) o c).2
    | .SBC => (Cpu45gs02.loaded (·.doSbc8 ·) o c).2
  sound := by
    intro op o c mode left operand
    cases op with
    | ADC =>
      unfold Row.Sound
      dsimp only
      rw [loaded_state, CPU45GS02State.doAdc8, if_pos mode]
      exact adcDecimal_adds c.state mode left operand
    | SBC =>
      unfold Row.Sound
      dsimp only
      rw [loaded_state, CPU45GS02State.doSbc8, if_pos mode]
      exact sbcDecimal_subtracts c.state mode left operand

/-- LDA of the next byte, and first STA of the last result where there is one. -/
def load45gs02 [MachineBus ω] (result : Option Operand) (left operand : Operand) :
    Link (core45gs02 ω) where
  before c :=
    let c := match result with
      | some o => (Cpu45gs02.stored (·.a) o c).2
      | none => c
    (operand, (Cpu45gs02.loaded Cpu45gs02.toA left c).2)
  carry c := by
    unfold core45gs02
    dsimp only
    rw [loaded_state]
    refine (nz_C _ _).trans ?_
    cases result with
    | none => rfl
    | some o => exact congrArg (flag · FLAG_C) (stored_p (·.a) o c)
  mode c := by
    unfold core45gs02
    dsimp only
    rw [loaded_state]
    refine (nz_D _ _).trans ?_
    cases result with
    | none => rfl
    | some o => exact congrArg (flag · FLAG_D) (stored_p (·.a) o c)

end Cores

section Arithmetic
variable {op : Arith} {x y : List (BitVec 8)} {ω₁ ω₂ ω₃ : Type} [IBus ω₁] [IBus ω₂] [MachineBus ω₃]
  {links₁ : List (Link (core6502 ω₁))} {links₂ : List (Link (core6502 ω₂))}
  {links₃ : List (Link (core45gs02 ω₃))} {c₁ : MOS6502 ω₁} {c₂ : MOS6502 ω₂} {c₃ : MOS45GS02 ω₃}

/-- Chains of ADC and of SBC on decimal numbers of any length leave the sum and the
difference, and so on each core; `cmos` may be either in `c₁` and in `c₂`. -/
theorem decimal_chains_exact (decimal : ∀ v ∈ x ++ y, Decimal v) (first : Feeds op links₁ c₁ x y)
    (second : Feeds op links₂ c₂ x y) (third : Feeds op links₃ c₃ x y) :
    Computes op links₁ c₁ (decimalNumber x) (decimalNumber y) ∧
      Computes op links₂ c₂ (decimalNumber x) (decimalNumber y) ∧
      Computes op links₃ c₃ (decimalNumber x) (decimalNumber y) ∧
      outcome (rows op links₂ c₂) = outcome (rows op links₁ c₁) ∧
      outcome (rows op links₃ c₃) = outcome (rows op links₁ c₁) :=
  ⟨first.computes decimal, second.computes decimal, third.computes decimal,
    second.agree first decimal, third.agree first decimal⟩

/-- 999 at $10, 1 at $20. -/
def operands : FlatMemoryBus :=
  { FlatMemoryBus.new 16 with
    data := fun addr =>
      if addr = 0x10 then 0x99 else if addr = 0x11 then 0x09 else if addr = 0x20 then 0x01 else 0 }

def decimal6502 (cmos : Bool) : MOS6502 FlatMemoryBus where
  state := { (default : CPU6502State) with p := FLAG_D }
  bus := operands
  cmos := cmos
  curOp := 0
  branchTarget := 0

def decimal45gs02 : MOS45GS02 FlatMemoryBus where
  state := { (default : CPU45GS02State) with p := FLAG_D }
  hyperState := default
  bus := operands
  mapMmu := false
  hyperRom := none
  experimentalPrefixMode := false

def sum6502 : List (Link (core6502 FlatMemoryBus)) :=
  [load6502 none 0x10 0x20, load6502 (some 0x30) 0x11 0x21]

def sum45gs02 : List (Link (core45gs02 FlatMemoryBus)) :=
  [load45gs02 none (.mem 0x10) (.mem 0x20), load45gs02 (some (.mem 0x30)) (.mem 0x11) (.mem 0x21)]

/-- 999 + 1 on the three cores. -/
theorem thousand_exact :
    Computes .ADC sum6502 (decimal6502 false) 999 1 ∧ Computes .ADC sum6502 (decimal6502 true) 999 1 ∧
      Computes .ADC sum45gs02 decimal45gs02 999 1 ∧
      outcome (rows .ADC sum6502 (decimal6502 true)) = outcome (rows .ADC sum6502 (decimal6502 false)) ∧
      outcome (rows .ADC sum45gs02 decimal45gs02) = outcome (rows .ADC sum6502 (decimal6502 false)) :=
  decimal_chains_exact (x := [0x99, 0x09]) (y := [0x01, 0x00]) (by decide)
    ⟨by decide, by decide, by decide, by decide⟩ ⟨by decide, by decide, by decide, by decide⟩
    ⟨by decide, by decide, by decide, by decide⟩

end Arithmetic

end Mmemu.Guarantees.DecimalChains

/-!
# Decimal arithmetic on the Z80

ADC and SBC add and subtract binary digits, and DAA makes them decimal from what they leave in
H, C and N. Bytes of two digits can so be added and subtracted in chains of any length.
-/
namespace Mmemu.Guarantees.DaaChains
open Mmemu.Source.MemoryBus Mmemu.Source.CpuZ80
open Mmemu.Library.CarryChain
open Mmemu.Guarantees.DecimalDigits (Decimal value tens ones)

/-! ## Flags -/

theorem flag_C (f : BitVec 8) : flag f FC = f.getLsbD 0 := by
  revert f
  decide

theorem flag_N (f : BitVec 8) : flag f FN = f.getLsbD 1 := by
  revert f
  decide

theorem flag_H (f : BitVec 8) : flag f FH = f.getLsbD 4 := by
  revert f
  decide

/-- What DAA looks at after an operation, the carry or borrow of the low digits being `half`. -/
structure Leaves (s : Z80State) (half carry subtracted : Bool) : Prop where
  half : flag s.f FH = half
  carry : flag s.f FC = carry
  subtracted : flag s.f FN = subtracted

theorem carry_low (a v : BitVec 8) (c : Bool) :
    BitVec.carry 4 a v c = decide (16 ≤ ones a + ones v + c.toNat) := decide_eq_decide.mpr Iff.rfl

theorem half_of_sum (a v : BitVec 8) (c : Bool) :
    (a ^^^ v ^^^ (a + v + BitVec.setWidth 8 (BitVec.ofBool c))).getLsbD 4 =
      decide (16 ≤ ones a + ones v + c.toNat) := by
  rw [BitVec.getLsbD_xor, BitVec.getLsbD_xor, BitVec.getLsbD_add_add_bool (by decide), carry_low]
  generalize decide (16 ≤ ones a + ones v + c.toNat) = half
  cases a.getLsbD 4 <;> cases v.getLsbD 4 <;> simp

theorem add_half (a v : BitVec 8) (c : Bool) :
    (a ^^^ v ^^^ BitVec.ofNat 8 (a.toNat + v.toNat + c.toNat)).getLsbD 4 =
      decide (16 ≤ ones a + ones v + c.toNat) := by
  have sum : BitVec.ofNat 8 (a.toNat + v.toNat + c.toNat) =
      a + v + BitVec.setWidth 8 (BitVec.ofBool c) := by
    cases c <;> apply BitVec.eq_of_toNat_eq <;> simp
  rw [sum, half_of_sum]

/-- A difference is what is missing to the first operand. -/
theorem sub_half (a v : BitVec 8) (c : Bool) :
    (a ^^^ v ^^^ BitVec.ofInt 8 ((a.toNat : ℤ) - v.toNat - c.toNat)).getLsbD 4 =
      decide (ones a < ones v + c.toNat) := by
  obtain ⟨r, found⟩ : ∃ r, r = BitVec.ofInt 8 ((a.toNat : ℤ) - v.toNat - c.toNat) := ⟨_, rfl⟩
  have value_ : (r.toNat : ℤ) = ((a.toNat : ℤ) - v.toNat - c.toNat) % 256 := by
    rw [found, BitVec.toNat_ofInt]
    omega
  have back : a = r + v + BitVec.setWidth 8 (BitVec.ofBool c) := by
    have := c.toNat_le
    apply BitVec.eq_of_toNat_eq
    cases c <;> simp at * <;> omega
  have half := half_of_sum r v c
  rw [← back] at half
  rw [← found, BitVec.xor_comm (a ^^^ v), ← BitVec.xor_assoc, BitVec.xor_comm (r ^^^ a),
    ← BitVec.xor_assoc, BitVec.xor_comm v r, half]
  refine decide_eq_decide.mpr ?_
  have := c.toNat_le
  have := a.isLt
  have := v.isLt
  unfold ones
  omega

theorem bitIf_bit (mask : BitVec 8) (on : Bool) {i : ℕ} (bound : i < 8) :
    (bitIf mask on)[i] = (on && mask[i]) := by
  cases on <;> simp [bitIf]

theorem sz53_bits : ∀ v, (sz53 v)[0] = false ∧ (sz53 v)[1] = false ∧ (sz53 v)[4] = false := by
  decide

theorem sz53p_bits : ∀ v, (sz53p v)[0] = false ∧ (sz53p v)[1] = false ∧ (sz53p v)[4] = false := by
  decide

theorem add8_leaves (s : Z80State) (v : BitVec 8) (c : Bool) :
    Leaves (s.add8 v c.toNat) (decide (16 ≤ ones s.a + ones v + c.toNat))
      (decide (255 < s.a.toNat + v.toNat + c.toNat)) false := by
  have half := add_half s.a v c
  obtain ⟨zero, one, four⟩ := sz53_bits (BitVec.ofNat 8 (s.a.toNat + v.toNat + c.toNat))
  constructor
  · rw [flag_H, ← half]
    simp [Z80State.add8, Z80State.setF, bitIf_bit, four, FH, FC, FP]
  · rw [flag_C]
    simp [Z80State.add8, Z80State.setF, bitIf_bit, zero, FH, FC, FP]
  · rw [flag_N]
    simp [Z80State.add8, Z80State.setF, bitIf_bit, one, FH, FC, FP]

theorem sub8_leaves (s : Z80State) (v : BitVec 8) (c : Bool) :
    Leaves (s.sub8 v c.toNat) (decide (ones s.a < ones v + c.toNat))
      (decide (s.a.toNat < v.toNat + c.toNat)) true := by
  have half := sub_half s.a v c
  have borrow : decide ((s.a.toNat : ℤ) - v.toNat - c.toNat < 0) =
      decide (s.a.toNat < v.toNat + c.toNat) := decide_eq_decide.mpr (by omega)
  constructor
  · rw [flag_H, ← half]
    simp [Z80State.sub8, Z80State.difference, Z80State.setF, bitIf_bit, FH, FC, FP, FS, FZ, FN, FX, FY]
  · rw [flag_C, ← borrow]
    simp [Z80State.sub8, Z80State.difference, Z80State.setF, bitIf_bit, FH, FC, FP, FS, FZ, FN, FX, FY]
  · rw [flag_N]
    simp [Z80State.sub8, Z80State.difference, Z80State.setF, bitIf_bit, FH, FC, FP, FS, FZ, FN, FX, FY]

/-- A and the carry that DAA makes of A and what an operation leaves. -/
def adjusted (a : BitVec 8) (half carry subtracted : Bool) : BitVec 8 × Bool :=
  let low := half || 9 < (a &&& 0x0F).toNat
  let high := carry || 0x99 < a.toNat
  let corr := bitIf 0x06 low ||| bitIf 0x60 high
  (if subtracted then a - corr else a + corr, high)

theorem daa_adjusts {s : Z80State} {half carry subtracted : Bool}
    (leaves : Leaves s half carry subtracted) :
    (s.daa.a, flag s.daa.f FC) = adjusted s.a half carry subtracted := by
  have bit : s.f &&& FC = bitIf FC carry := by
    have all : ∀ f : BitVec 8, f &&& FC = bitIf FC (flag f FC) := by decide
    rw [all, leaves.carry]
  have some_ : ∀ on : Bool, (bitIf FC on != 0) = on := by decide
  have carried : flag s.daa.f FC = (carry || decide (0x99 < s.a.toNat)) := by
    obtain ⟨zero, -, -⟩ := sz53p_bits s.daa.a
    have flags : s.daa.f = sz53p s.daa.a ||| s.f &&& FN ||| (s.a ^^^ s.daa.a) &&& FH |||
        if s.f &&& FC != 0 || decide (0x99 < s.a.toNat) then FC else s.f &&& FC := rfl
    rw [flag_C, flags, bit, some_]
    generalize decide (0x99 < s.a.toNat) = beyond
    cases carry <;> cases beyond <;> simp [zero, bitIf, FC, FN, FH]
  rw [carried]
  unfold adjusted Z80State.daa Z80State.setF
  dsimp only
  rw [leaves.half, leaves.subtracted, bit, some_]

/-! ## One byte -/

/-- The digits of a sum are those of the sums of the digits. -/
theorem adjusted_sums : ∀ h : Fin 19, ∀ l : Fin 20,
    let out := adjusted (BitVec.ofNat 8 (16 * h + l)) (decide (16 ≤ l.val))
      (decide (255 < 16 * h.val + l)) false
    value out.1 + 100 * out.2.toNat = 10 * h.val + l.val ∧ Decimal out.1 := by
  decide

/-- The digits of a difference; `h` and `l` count from the lowest there are. -/
theorem adjusted_differences : ∀ h : Fin 19, ∀ l : Fin 20,
    let binary : ℤ := 16 * ((h.val : ℤ) - 9) + ((l.val : ℤ) - 10)
    let out := adjusted (BitVec.ofInt 8 binary) (decide (l.val < 10)) (decide (binary < 0)) true
    (value out.1 : ℤ) = 10 * ((h.val : ℤ) - 9) + ((l.val : ℤ) - 10) + 100 * (out.2.toNat : ℤ) ∧
      Decimal out.1 := by
  decide

theorem toNat_eq (v : BitVec 8) : v.toNat = 16 * tens v + ones v := by
  unfold tens ones
  omega

/-- ADC and DAA. -/
theorem add_daa {s : Z80State} {v : BitVec 8} (c : Bool) (a : Decimal s.a) (m : Decimal v) :
    value (s.add8 v c.toNat).daa.a + 100 * (flag (s.add8 v c.toNat).daa.f FC).toNat =
        value s.a + value v + c.toNat ∧
      Decimal (s.add8 v c.toNat).daa.a := by
  have := c.toNat_le
  have := a.tens
  have := a.ones
  have := m.tens
  have := m.ones
  have digits := adjusted_sums ⟨tens s.a + tens v, by omega⟩ ⟨ones s.a + ones v + c.toNat, by omega⟩
  have binary : 16 * (tens s.a + tens v) + (ones s.a + ones v + c.toNat) =
      s.a.toNat + v.toNat + c.toNat := by
    rw [toNat_eq s.a, toNat_eq v]
    omega
  dsimp only at digits
  rw [binary] at digits
  have out := daa_adjusts (add8_leaves s v c)
  have result : (s.add8 v c.toNat).a = BitVec.ofNat 8 (s.a.toNat + v.toNat + c.toNat) := rfl
  rw [result] at out
  rw [← out] at digits
  refine ⟨?_, digits.2⟩
  rw [digits.1]
  unfold value
  omega

/-- SBC and DAA. -/
theorem sub_daa {s : Z80State} {v : BitVec 8} (c : Bool) (a : Decimal s.a) (m : Decimal v) :
    value (s.sub8 v c.toNat).daa.a + value v + c.toNat =
        value s.a + 100 * (flag (s.sub8 v c.toNat).daa.f FC).toNat ∧
      Decimal (s.sub8 v c.toNat).daa.a := by
  have := c.toNat_le
  have := a.tens
  have := a.ones
  have := m.tens
  have := m.ones
  have digits := adjusted_differences ⟨9 + tens s.a - tens v, by omega⟩
    ⟨10 + ones s.a - ones v - c.toNat, by omega⟩
  have binary : 16 * (((9 + tens s.a - tens v : ℕ) : ℤ) - 9) +
      (((10 + ones s.a - ones v - c.toNat : ℕ) : ℤ) - 10) =
        (s.a.toNat : ℤ) - v.toNat - c.toNat := by
    rw [toNat_eq s.a, toNat_eq v]
    omega
  have half : decide (10 + ones s.a - ones v - c.toNat < 10) =
      decide (ones s.a < ones v + c.toNat) := decide_eq_decide.mpr (by omega)
  have borrow : decide ((s.a.toNat : ℤ) - v.toNat - c.toNat < 0) =
      decide (s.a.toNat < v.toNat + c.toNat) := decide_eq_decide.mpr (by omega)
  dsimp only at digits
  rw [binary, half, borrow] at digits
  have out := daa_adjusts (sub8_leaves s v c)
  have result : (s.sub8 v c.toNat).a =
      BitVec.ofInt 8 ((s.a.toNat : ℤ) - v.toNat - c.toNat) := rfl
  rw [result] at out
  rw [← out] at digits
  have number := digits.1
  refine ⟨?_, digits.2⟩
  dsimp only at number
  unfold value at number ⊢
  omega

/-! ## Chains -/

inductive Arith where
  | ADC | SBC
  deriving DecidableEq, Repr

/-- The opcode for a register, or for (HL). -/
def Arith.opcode : Arith → Fin 8 → BitVec 8
  | .ADC, r => 0x88 ||| BitVec.ofNat 8 r
  | .SBC, r => 0x98 ||| BitVec.ofNat 8 r

def DAA : BitVec 8 := 0x27

/-- What a chain works out. -/
def Arith.exactly : Arith → ℕ → ℕ → ℤ
  | .ADC, x, y => (x : ℤ) + y
  | .SBC, x, y => (x : ℤ) - y

/-- When a chain of `n` bytes ends with a carry or a borrow. -/
def Arith.carries : Arith → ℕ → ℕ → ℕ → Prop
  | .ADC, n, x, y => 100 ^ n ≤ x + y
  | .SBC, _, x, y => x < y

section Chains
variable {ω : Type} [PortBus ω]

/-- The instructions for one byte. Those before ADC or SBC keep the flags, and those before DAA
also A. -/
structure Link (ω : Type) where
  before : Context ω → Context ω
  register : Fin 8
  amid : Context ω → Context ω
  flags : ∀ c, (before c).regs.f = c.regs.f
  flags_amid : ∀ c, (amid c).regs.f = c.regs.f
  a_amid : ∀ c, (amid c).regs.a = c.regs.a

/-- A byte of each number, and what DAA leaves. -/
structure Row where
  left : BitVec 8
  operand : BitVec 8
  result : BitVec 8
  carry : Bool

/-- The core behind DAA. -/
def Link.run (op : Arith) (link : Link ω) (c : Context ω) : Context ω :=
  (execMain DAA (link.amid (execMain (op.opcode link.register) (link.before c)).2)).2

def Link.row (op : Arith) (link : Link ω) (c : Context ω) : Row :=
  ⟨(link.before c).regs.a, (reg8 link.register (link.before c)).1, (link.run op c).regs.a,
    flag (link.run op c).regs.f FC⟩

def rows (op : Arith) : List (Link ω) → Context ω → List Row
  | [], _ => []
  | link :: rest, c => link.row op c :: rows op rest (link.run op c)

/-- The core after the chain. -/
def after (op : Arith) : List (Link ω) → Context ω → Context ω
  | [], c => c
  | link :: rest, c => after op rest (link.run op c)

/-- The number that bytes of decimal digits spell, the lowest first. -/
def decimalNumber (bytes : List (BitVec 8)) : ℕ := Nat.ofDigits 100 (bytes.map value)

/-- ADC and SBC on the registers. -/
def Arith.alu (op : Arith) (s : Z80State) (v : BitVec 8) : Z80State :=
  match op with
  | .ADC => s.alu 1 v
  | .SBC => s.alu 3 v

theorem reg8_af (r : Fin 8) (c : Context ω) :
    (reg8 r c).2.regs.a = c.regs.a ∧ (reg8 r c).2.regs.f = c.regs.f := by
  obtain ⟨regs, bus, prefix_, addr, fetched⟩ := c
  fin_cases r <;> cases prefix_ <;> cases fetched <;> exact ⟨rfl, rfl⟩

theorem execMain_arith (op : Arith) (r : Fin 8) (c : Context ω) :
    (execMain (op.opcode r) c).2.regs = op.alu (reg8 r c).2.regs (reg8 r c).1 := by
  cases op with
  | ADC => fin_cases r <;> rfl
  | SBC => fin_cases r <;> rfl

/-- DAA depends on A and F alone. -/
theorem daa_congr {s s' : Z80State} (a : s.a = s'.a) (f : s.f = s'.f) :
    s.daa.a = s'.daa.a ∧ s.daa.f = s'.daa.f := by
  unfold Z80State.daa Z80State.setF
  dsimp only
  rw [a, f]
  exact ⟨rfl, rfl⟩

/-- What the instructions do to decimal digits, with `c` carried or borrowed before. -/
def Row.Sound (op : Arith) (c : ℕ) (row : Row) : Prop :=
  Decimal row.result ∧
    match op with
    | .ADC => value row.result + 100 * row.carry.toNat = value row.left + value row.operand + c
    | .SBC => value row.result + value row.operand + c = value row.left + 100 * row.carry.toNat

theorem carry_eq (s : Z80State) : s.carry = (flag s.f FC).toNat := by
  unfold Z80State.carry
  cases flag s.f FC <;> rfl

theorem Arith.sound (op : Arith) {s : Z80State} {v : BitVec 8} (a : Decimal s.a) (m : Decimal v) :
    Row.Sound op (flag s.f FC).toNat
      ⟨s.a, v, (op.alu s v).daa.a, flag (op.alu s v).daa.f FC⟩ := by
  cases op with
  | ADC =>
    have step := add_daa (flag s.f FC) a m
    rw [← carry_eq] at step ⊢
    exact ⟨step.2, step.1⟩
  | SBC =>
    have step := sub_daa (flag s.f FC) a m
    rw [← carry_eq] at step ⊢
    exact ⟨step.2, step.1⟩

theorem Link.sound (op : Arith) (link : Link ω) (c : Context ω)
    (left : Decimal (link.row op c).left) (operand : Decimal (link.row op c).operand) :
    (link.row op c).Sound op (flag c.regs.f FC).toNat := by
  obtain ⟨a, f⟩ := reg8_af link.register (link.before c)
  obtain ⟨result, status⟩ := daa_congr
    (link.a_amid (execMain (op.opcode link.register) (link.before c)).2)
    (link.flags_amid (execMain (op.opcode link.register) (link.before c)).2)
  have sound := op.sound (s := (reg8 link.register (link.before c)).2.regs)
    (v := (reg8 link.register (link.before c)).1) (a ▸ left) operand
  rw [f, link.flags, a, ← execMain_arith, ← result, ← status] at sound
  exact sound

/-- A chain is one of carries. -/
def Chained (op : Arith) : ℕ → List Row → Prop
  | _, [] => True
  | c, row :: rest => row.Sound op c ∧ Chained op row.carry.toNat rest

theorem chained_rows (op : Arith) (links : List (Link ω)) (c : Context ω)
    (digits : ∀ row ∈ rows op links c, Decimal row.left ∧ Decimal row.operand) :
    Chained op (flag c.regs.f FC).toNat (rows op links c) := by
  induction links generalizing c with
  | nil => trivial
  | cons link rest ih =>
    obtain ⟨left, operand⟩ := digits _ List.mem_cons_self
    refine ⟨link.sound op c left operand, ih (link.run op c) ?_⟩
    intro row mem
    exact digits row (List.mem_cons_of_mem _ mem)

def Row.column (op : Arith) (row : Row) : Column :=
  match op with
  | .ADC => ⟨value row.left, value row.operand, value row.result, row.carry.toNat⟩
  | .SBC => ⟨value row.result, value row.operand, value row.left, row.carry.toNat⟩

theorem Chained.adds {op : Arith} {c : ℕ} {l : List Row} (chained : Chained op c l) :
    Adds 100 c (l.map (Row.column op)) := by
  induction l generalizing c with
  | nil => trivial
  | cons row rest ih =>
    cases op with
    | ADC => exact ⟨chained.1.2, ih chained.2⟩
    | SBC => exact ⟨chained.1.2.symm, ih chained.2⟩

theorem Chained.digits {op : Arith} {c : ℕ} {l : List Row} (chained : Chained op c l) :
    ∀ row ∈ l, Decimal row.result := by
  induction l generalizing c with
  | nil => simp
  | cons head rest ih =>
    intro row mem
    rcases List.mem_cons.mp mem with rfl | mem
    · exact chained.1.1
    · exact ih chained.2 row mem

theorem carryOut_rows (op : Arith) (links : List (Link ω)) (c : Context ω) :
    carryOut (flag c.regs.f FC).toNat ((rows op links c).map (Row.column op)) =
      (flag (after op links c).regs.f FC).toNat := by
  induction links generalizing c with
  | nil => rfl
  | cons link rest ih =>
    have later := ih (link.run op c)
    cases op <;> exact later

theorem number_column {op : Arith} (part : Column → ℕ) (byte : Row → BitVec 8)
    (same : ∀ row : Row, part (row.column op) = value (byte row)) (l : List Row) :
    number 100 part (l.map (Row.column op)) = decimalNumber (l.map byte) := by
  unfold number decimalNumber
  rw [List.map_map, List.map_map]
  congr 1
  exact List.map_congr_left fun row _ => same row

theorem length_rows (op : Arith) (links : List (Link ω)) (c : Context ω) :
    (rows op links c).length = links.length := by
  induction links generalizing c with
  | nil => rfl
  | cons link rest ih => exact congrArg (· + 1) (ih _)

/-- The bytes of the result are decimal digits of the sum or the difference, and C is what is
carried or borrowed at the end. -/
structure Computes (op : Arith) (links : List (Link ω)) (c : Context ω) (x y : ℕ) : Prop where
  digits : ∀ row ∈ rows op links c, Decimal row.result
  number : (decimalNumber ((rows op links c).map Row.result) : ℤ) =
    op.exactly x y % 100 ^ links.length
  carry : flag (after op links c).regs.f FC = true ↔ op.carries links.length x y

theorem toNat_ne_zero (b : Bool) : b.toNat ≠ 0 ↔ b = true := by
  cases b <;> simp

/-- Chains of ADC and DAA and of SBC and DAA are exact on decimal digits. -/
theorem chain_computes (op : Arith) (links : List (Link ω)) (c : Context ω)
    (clear : flag c.regs.f FC = false)
    (decimal : ∀ row ∈ rows op links c, Decimal row.left ∧ Decimal row.operand) :
    Computes op links c (decimalNumber ((rows op links c).map Row.left))
      (decimalNumber ((rows op links c).map Row.operand)) := by
  have chained := chained_rows op links c decimal
  have results := chained.digits
  have out := carryOut_rows op links c
  rw [clear] at chained out
  have adds := chained.adds
  have length : ((rows op links c).map (Row.column op)).length = links.length := by
    rw [List.length_map, length_rows]
  have small (part : Column → ℕ) (same : ∀ row : Row, part (row.column op) = value row.result) :
      ∀ col ∈ (rows op links c).map (Row.column op), part col < 100 := by
    intro col mem
    obtain ⟨row, found, rfl⟩ := List.mem_map.mp mem
    rw [same]
    exact (results row found).value_lt
  cases op with
  | ADC =>
    have sum := adds.sum_mod (by decide) (small Column.sum fun _ => rfl)
    have carry := adds.carry_iff (by decide) (small Column.sum fun _ => rfl)
    rw [number_column Column.left Row.left fun _ => rfl,
      number_column Column.right Row.operand fun _ => rfl, length] at sum carry
    rw [number_column Column.sum Row.result fun _ => rfl] at sum
    refine ⟨results, ?_, (toNat_ne_zero _).symm.trans (out ▸ carry)⟩
    rw [sum]
    unfold Arith.exactly
    push_cast
    rfl
  | SBC =>
    have difference := adds.left_mod (by decide) (small Column.left fun _ => rfl)
    have borrow := adds.borrow_iff (by decide) (small Column.left fun _ => rfl)
    rw [number_column Column.sum Row.left fun _ => rfl,
      number_column Column.right Row.operand fun _ => rfl] at difference borrow
    rw [number_column Column.left Row.result fun _ => rfl, length] at difference
    exact ⟨results, difference, (toNat_ne_zero _).symm.trans (out ▸ borrow)⟩

end Chains

/-- LD A,n and LD B,n before ADC A,B or SBC A,B. -/
def loadBoth (a b : BitVec 8) : Link FlatMemoryBus where
  before c := { c with regs := { c.regs with a := a, b := b } }
  register := 0
  amid c := c
  flags _ := rfl
  flags_amid _ := rfl
  a_amid _ := rfl

def start : Context FlatMemoryBus where
  regs := { (default : Z80State) with f := 0 }
  bus := FlatMemoryBus.new 16
  prefix_ := .none
  dispAddr := 0
  dispFetched := false

/-- 4758 and 5367, added and subtracted. -/
theorem chain_computes_pair :
    Computes .ADC [loadBoth 0x58 0x67, loadBoth 0x47 0x53] start 4758 5367 ∧
      Computes .SBC [loadBoth 0x58 0x67, loadBoth 0x47 0x53] start 4758 5367 := by
  have digits (op : Arith) : ∀ row ∈ rows op [loadBoth 0x58 0x67, loadBoth 0x47 0x53] start,
      Decimal row.left ∧ Decimal row.operand := by
    have low : Decimal 0x58 ∧ Decimal 0x67 := by decide
    have high : Decimal 0x47 ∧ Decimal 0x53 := by decide
    simp only [rows, List.forall_mem_cons]
    exact ⟨low, high, by simp⟩
  exact ⟨chain_computes .ADC _ start rfl (digits .ADC), chain_computes .SBC _ start rfl (digits .SBC)⟩

end Mmemu.Guarantees.DaaChains
