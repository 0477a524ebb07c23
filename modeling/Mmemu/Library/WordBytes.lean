import Mathlib.Data.Nat.ModEq
import Mathlib.Data.BitVec
import Mathlib.Algebra.Order.Ring.Nat

/-!
# Little-endian records

Numbers of a fixed width as bytes, the lowest first, and records of such numbers laid out
one after the other.
-/
namespace Mmemu.Library.LittleEndian

abbrev Byte := BitVec 8

def encode : ℕ → ℕ → List Byte
  | 0, _ => []
  | width + 1, n => BitVec.ofNat 8 n :: encode width (n / 256)

def decode (bytes : List Byte) : ℕ := bytes.foldr (fun b n => b.toNat + 256 * n) 0

@[simp] theorem length_encode (width n : ℕ) : (encode width n).length = width := by
  induction width generalizing n with
  | zero => rfl
  | succ width ih => simp [encode, ih]

theorem decode_encode (width n : ℕ) : decode (encode width n) = n % 256 ^ width := by
  induction width generalizing n with
  | zero => simp [encode, decode, Nat.mod_one]
  | succ width ih =>
    have step : decode (encode (width + 1) n) = n % 256 + 256 * decode (encode width (n / 256)) := by
      simp [encode, decode]
    rw [step, ih, Nat.pow_succ', Nat.mod_mul]

/-- As many bytes as hold a word keep all of it. -/
theorem toNat_mod_pow {w : ℕ} (width : ℕ) (v : BitVec w) (fits : w ≤ 8 * width) :
    v.toNat % 256 ^ width = v.toNat := by
  refine Nat.mod_eq_of_lt ?_
  calc v.toNat < 2 ^ w := v.isLt
    _ ≤ 2 ^ (8 * width) := Nat.pow_le_pow_right (by omega) fits
    _ = 256 ^ width := by rw [Nat.pow_mul]

theorem ofNat_decode_encode {w : ℕ} (width : ℕ) (v : BitVec w) (fits : w ≤ 8 * width) :
    BitVec.ofNat w (decode (encode width v.toNat)) = v := by
  rw [decode_encode, toNat_mod_pow width v fits, BitVec.ofNat_toNat, BitVec.setWidth_eq]

theorem ofNat_mod_pow {w : ℕ} (width : ℕ) (v : BitVec w) (fits : w ≤ 8 * width) :
    BitVec.ofNat w (v.toNat % 256 ^ width) = v := by
  rw [toNat_mod_pow width v fits, BitVec.ofNat_toNat, BitVec.setWidth_eq]

/-- Fields, each with its width, one after the other. -/
def record (fields : List (ℕ × ℕ)) : List Byte := fields.flatMap fun f => encode f.1 f.2

/-- The numbers that fields of these widths hold. -/
def fields : List ℕ → List Byte → List ℕ
  | [], _ => []
  | width :: widths, bytes => decode (bytes.take width) :: fields widths (bytes.drop width)

theorem fields_record (layout : List (ℕ × ℕ)) (rest : List Byte) :
    fields (layout.map Prod.fst) (record layout ++ rest) =
      layout.map fun f => f.2 % 256 ^ f.1 := by
  induction layout with
  | nil => rfl
  | cons f layout ih =>
    have laid : record (f :: layout) ++ rest = encode f.1 f.2 ++ (record layout ++ rest) := by
      simp [record]
    rw [laid, List.map_cons, fields, List.take_left' (length_encode _ _),
      List.drop_left' (length_encode _ _), decode_encode, ih, List.map_cons]

/-- The two bytes of a word, put together again. -/
theorem bytes_append (v : BitVec 16) : v.extractLsb' 8 8 ++ v.setWidth 8 = v := by
  ext i hi
  rw [BitVec.getElem_append]
  split
  · simp [BitVec.getLsbD_eq_getElem hi]
  · simp only [BitVec.getElem_extractLsb']
    rw [BitVec.getLsbD_eq_getElem (by omega)]
    congr 1
    omega

/-! ## Bytes at their places -/

section Placed
variable {n : ℕ} {mask : BitVec n}

/-- A byte at its place in a word, and a mask that is clear there. -/
theorem placed_and_clear (s : ℕ) (clear : ∀ i < 8, mask.getLsbD (s + i) = false) (b : BitVec 8) :
    (b.setWidth n <<< s) &&& mask = 0#n := by
  apply BitVec.eq_of_getLsbD_eq
  intro i inside
  rw [BitVec.getLsbD_and, BitVec.getLsbD_shiftLeft, BitVec.getLsbD_zero]
  by_cases placed : s ≤ i ∧ i < s + 8
  · have bit := clear (i - s) (by omega)
    rw [Nat.add_sub_cancel' placed.1] at bit
    rw [bit, Bool.and_false]
  · by_cases below : i < s
    · simp [below]
    · simp [BitVec.getLsbD_of_ge b (i - s) (by omega)]

/-- A byte at its place in a word, and a mask that is set there. -/
theorem placed_and_set (s : ℕ) (set : ∀ i < 8, mask.getLsbD (s + i) = true) (b : BitVec 8) :
    (b.setWidth n <<< s) &&& mask = b.setWidth n <<< s := by
  apply BitVec.eq_of_getLsbD_eq
  intro i inside
  rw [BitVec.getLsbD_and, BitVec.getLsbD_shiftLeft]
  by_cases placed : s ≤ i ∧ i < s + 8
  · have bit := set (i - s) (by omega)
    rw [Nat.add_sub_cancel' placed.1] at bit
    rw [bit, Bool.and_true]
  · by_cases below : i < s
    · simp [below]
    · simp [BitVec.getLsbD_of_ge b (i - s) (by omega)]

theorem low_and_clear (clear : ∀ i < 8, mask.getLsbD i = false) (b : BitVec 8) :
    b.setWidth n &&& mask = 0#n := by
  simpa using placed_and_clear 0 (by simpa using clear) b

theorem low_and_set (set : ∀ i < 8, mask.getLsbD i = true) (b : BitVec 8) :
    b.setWidth n &&& mask = b.setWidth n := by
  simpa using placed_and_set 0 (by simpa using set) b

end Placed

end Mmemu.Library.LittleEndian

/-!
# Words and their bytes

A 32-bit word as its four bytes, and what sums, differences and shifts of words amount to as
numbers, with the carry that goes in and the one that comes out.
-/
namespace Mmemu.Library.WordBytes

/-! ## Four bytes -/

def byteOf (v : BitVec 32) (i : ℕ) : BitVec 8 := v.extractLsb' (8 * i) 8

theorem toNat_bytes (v : BitVec 32) : v.toNat = (byteOf v 0).toNat + 2 ^ 8 * (byteOf v 1).toNat +
    2 ^ 16 * (byteOf v 2).toNat + 2 ^ 24 * (byteOf v 3).toNat := by
  have := v.isLt
  simp only [byteOf, BitVec.extractLsb'_toNat, Nat.shiftRight_eq_div_pow]
  omega

theorem msb_byte (v : BitVec 32) : v.msb = (byteOf v 3).msb := by
  simp [byteOf, BitVec.msb_eq_getLsbD_last]

theorem toNat_and_le {n : ℕ} (x mask : BitVec n) : (x &&& mask).toNat ≤ mask.toNat := by
  rw [BitVec.toNat_and]
  exact Nat.and_le_right

theorem toNat_join {n : ℕ} (x : BitVec n) (y : BitVec 8) :
    (x ++ y).toNat = 2 ^ 8 * x.toNat + y.toNat := by
  rw [BitVec.toNat_append, ← Nat.shiftLeft_add_eq_or_of_lt y.isLt, Nat.shiftLeft_eq, Nat.mul_comm]

theorem toNat_word (r0 r1 r2 r3 : BitVec 8) : (r3 ++ r2 ++ r1 ++ r0).toNat =
    r0.toNat + 2 ^ 8 * r1.toNat + 2 ^ 16 * r2.toNat + 2 ^ 24 * r3.toNat := by
  rw [toNat_join, toNat_join, toNat_join]
  omega

theorem msb_word (r0 r1 r2 r3 : BitVec 8) : (r3 ++ r2 ++ r1 ++ r0).msb = r3.msb := by
  have := r0.isLt
  have := r1.isLt
  have := r2.isLt
  rw [BitVec.msb_eq_decide, BitVec.msb_eq_decide, toNat_word]
  exact decide_eq_decide.mpr (by omega)

theorem word_bytes (v : BitVec 32) : byteOf v 3 ++ byteOf v 2 ++ byteOf v 1 ++ byteOf v 0 = v :=
  BitVec.eq_of_toNat_eq (by rw [toNat_word, ← toNat_bytes])

theorem byteOf_word (r0 r1 r2 r3 : BitVec 8) : byteOf (r3 ++ r2 ++ r1 ++ r0) 0 = r0 ∧
    byteOf (r3 ++ r2 ++ r1 ++ r0) 1 = r1 ∧ byteOf (r3 ++ r2 ++ r1 ++ r0) 2 = r2 ∧
    byteOf (r3 ++ r2 ++ r1 ++ r0) 3 = r3 := by
  have whole := toNat_bytes (r3 ++ r2 ++ r1 ++ r0)
  rw [toNat_word] at whole
  have bound : ∀ i, (byteOf (r3 ++ r2 ++ r1 ++ r0) i).toNat < 256 := fun i => BitVec.isLt _
  have := bound 0
  have := bound 1
  have := bound 2
  have := bound 3
  have := r0.isLt
  have := r1.isLt
  have := r2.isLt
  have := r3.isLt
  refine ⟨?_, ?_, ?_, ?_⟩ <;> exact BitVec.eq_of_toNat_eq (by omega)

theorem word_zero (r0 r1 r2 r3 : BitVec 8) :
    ((r3 ++ r2 ++ r1 ++ r0 : BitVec 32) == 0) = (r0 == 0 && (r1 == 0 && (r2 == 0 && r3 == 0))) := by
  have whole := toNat_word r0 r1 r2 r3
  simp only [beq_eq_decide, ← Bool.decide_and, decide_eq_decide, ← BitVec.toNat_inj, whole]
  simp
  omega

/-! ## Sums and differences -/

/-- A sum in a wider word does not wrap around. -/
theorem wide_sum {n m : ℕ} (room : n + 2 ≤ m) (a v : BitVec n) {c : BitVec m} {on : Bool}
    (carry : c.toNat = on.toNat) :
    (a.setWidth m + v.setWidth m + c).toNat = a.toNat + v.toNat + on.toNat := by
  have := on.toNat_le
  have far : 2 ^ (n + 2) ≤ 2 ^ m := Nat.pow_le_pow_right (by decide) room
  have := a.isLt
  have := v.isLt
  have := Nat.one_le_two_pow (n := n)
  rw [Nat.pow_add] at far
  rw [BitVec.toNat_add, BitVec.toNat_add, BitVec.toNat_setWidth, BitVec.toNat_setWidth, carry,
    Nat.mod_eq_of_lt (a := a.toNat) (by omega), Nat.mod_eq_of_lt (a := v.toNat) (by omega),
    Nat.mod_eq_of_lt (a := a.toNat + v.toNat) (by omega), Nat.mod_eq_of_lt (by omega)]

/-- A difference in a wider word, which a borrow fills up with ones. -/
theorem wide_difference {n m : ℕ} (room : n + 2 ≤ m) (a v : BitVec n) {b : BitVec m} {on : Bool}
    (borrow : b.toNat = on.toNat) :
    (a.setWidth m - v.setWidth m - b).toNat =
      if v.toNat + on.toNat ≤ a.toNat then a.toNat - v.toNat - on.toNat
      else 2 ^ m + a.toNat - v.toNat - on.toNat := by
  have := on.toNat_le
  have far : 2 ^ (n + 2) ≤ 2 ^ m := Nat.pow_le_pow_right (by decide) room
  have := a.isLt
  have := v.isLt
  have := Nat.one_le_two_pow (n := n)
  rw [Nat.pow_add] at far
  rw [BitVec.toNat_sub, BitVec.toNat_sub, BitVec.toNat_setWidth, BitVec.toNat_setWidth, borrow,
    Nat.mod_eq_of_lt (a := a.toNat) (by omega), Nat.mod_eq_of_lt (a := v.toNat) (by omega)]
  split
  next fits =>
    have first : (2 ^ m - v.toNat + a.toNat) % 2 ^ m = a.toNat - v.toNat := by
      rw [show 2 ^ m - v.toNat + a.toNat = 2 ^ m + (a.toNat - v.toNat) by omega, Nat.add_mod_left,
        Nat.mod_eq_of_lt (by omega)]
    rw [first, show 2 ^ m - on.toNat + (a.toNat - v.toNat) = 2 ^ m + (a.toNat - v.toNat - on.toNat) by omega,
      Nat.add_mod_left, Nat.mod_eq_of_lt (by omega)]
  next short =>
    by_cases below : v.toNat ≤ a.toNat
    · have first : (2 ^ m - v.toNat + a.toNat) % 2 ^ m = 0 := by
        rw [show 2 ^ m - v.toNat + a.toNat = 2 ^ m by omega, Nat.mod_self]
      rw [first, Nat.mod_eq_of_lt (by omega)]
      omega
    · rw [Nat.mod_eq_of_lt (a := 2 ^ m - v.toNat + a.toNat) (by omega),
        show 2 ^ m - on.toNat + (2 ^ m - v.toNat + a.toNat) =
          2 ^ m + (2 ^ m + a.toNat - v.toNat - on.toNat) by omega,
        Nat.add_mod_left, Nat.mod_eq_of_lt (by omega)]

/-- The bit that a mask tests. -/
theorem test_bit {n : ℕ} (x : BitVec n) (i : ℕ) (inside : i < n) :
    (x &&& BitVec.twoPow n i != 0) = x.getLsbD i := by
  rw [BitVec.and_twoPow]
  cases x.getLsbD i with
  | false => simp
  | true =>
    have bit : (BitVec.twoPow n i).getLsbD i = true := by simp [inside]
    rw [if_pos rfl, bne_iff_ne]
    intro none_
    simp [none_] at bit

/-- A word and its carry are what they amount to. -/
theorem sum_unique {n total : ℕ} {r r' : BitVec n} {b b' : Bool}
    (here : r.toNat + 2 ^ n * b.toNat = total) (there : r'.toNat + 2 ^ n * b'.toNat = total) :
    r = r' ∧ b = b' := by
  have := r.isLt
  have := r'.isLt
  cases b <;> cases b' <;> simp at here there
  · exact ⟨BitVec.eq_of_toNat_eq (here.trans there.symm), rfl⟩
  · omega
  · omega
  · exact ⟨BitVec.eq_of_toNat_eq (by omega), rfl⟩

theorem halves_unique {n total : ℕ} {r r' : BitVec n} {b b' : Bool}
    (here : 2 * r.toNat + b.toNat = total) (there : 2 * r'.toNat + b'.toNat = total) :
    r = r' ∧ b = b' := by
  cases b <;> cases b' <;> simp at here there
  · exact ⟨BitVec.eq_of_toNat_eq (by omega), rfl⟩
  · omega
  · omega
  · exact ⟨BitVec.eq_of_toNat_eq (by omega), rfl⟩

theorem difference_unique {n lost total : ℕ} {r r' : BitVec n} {b b' : Bool}
    (here : r.toNat + lost = total + 2 ^ n * (!b).toNat)
    (there : r'.toNat + lost = total + 2 ^ n * (!b').toNat) : r = r' ∧ b = b' := by
  have := r.isLt
  have := r'.isLt
  cases b <;> cases b' <;> simp at here there
  · exact ⟨BitVec.eq_of_toNat_eq (by omega), rfl⟩
  · omega
  · omega
  · exact ⟨BitVec.eq_of_toNat_eq (by omega), rfl⟩

/-! ## Shifts -/

/-- A shift to the left: the carry comes in at the low end. -/
theorem shl_total {n : ℕ} (v : BitVec (n + 1)) (low : Bool) :
    (v <<< 1 ||| if low then 1 else 0).toNat + 2 ^ (n + 1) * v.msb.toNat =
      2 * v.toNat + low.toNat := by
  have apart : v <<< 1 &&& (if low then 1 else 0) = 0 := by
    ext i
    cases low <;> cases i <;> simp
  have bit : (if low then 1 else 0 : BitVec (n + 1)).toNat = low.toNat := by
    cases low <;> simp
  have := v.isLt
  have := low.toNat_le
  rw [← BitVec.add_eq_or_of_and_eq_zero _ _ apart, BitVec.toNat_add, BitVec.toNat_shiftLeft, bit,
    Nat.shiftLeft_eq, BitVec.msb_eq_decide, Nat.add_sub_cancel, Nat.mod_add_mod]
  by_cases high : 2 ^ n ≤ v.toNat
  · rw [decide_eq_true high, Nat.mod_eq_sub_mod (by omega), Nat.mod_eq_of_lt (by omega)]
    simp
    omega
  · rw [decide_eq_false high, Nat.mod_eq_of_lt (by omega)]
    simp
    omega

/-- A shift to the right: the carry comes in at the high end. -/
theorem shr_total {n : ℕ} (v : BitVec (n + 1)) (high : Bool) :
    2 * (v >>> 1 ||| if high then BitVec.twoPow (n + 1) n else 0).toNat + (v.getLsbD 0).toNat =
      v.toNat + 2 ^ (n + 1) * high.toNat := by
  have apart : v >>> 1 &&& (if high then BitVec.twoPow (n + 1) n else 0) = 0 := by
    ext i inside
    cases high with
    | false => simp
    | true =>
      by_cases last : i = n
      · simp [last, BitVec.getLsbD_of_ge v (1 + n) (by omega)]
      · simp
        omega
  have bit : (if high then BitVec.twoPow (n + 1) n else 0).toNat = 2 ^ n * high.toNat := by
    cases high with
    | false => simp
    | true => simp [Nat.mod_eq_of_lt (Nat.pow_lt_pow_succ (a := 2) (n := n) (by decide))]
  have := v.isLt
  have low : (v.getLsbD 0).toNat = v.toNat % 2 := by
    rw [BitVec.getLsbD, Nat.testBit_zero]
    rcases Nat.mod_two_eq_zero_or_one v.toNat with even | odd
    · simp [even]
    · simp [odd]
  have fits : v.toNat / 2 + 2 ^ n * high.toNat < 2 ^ (n + 1) := by
    cases high with
    | false => simp; omega
    | true => simp; omega
  have twice : 2 ^ (n + 1) * high.toNat = 2 * (2 ^ n * high.toNat) := by
    rw [Nat.pow_succ, Nat.mul_comm (2 ^ n) 2, Nat.mul_assoc]
  rw [← BitVec.add_eq_or_of_and_eq_zero _ _ apart, BitVec.toNat_add, BitVec.toNat_ushiftRight, bit, low,
    Nat.shiftRight_eq_div_pow, Nat.pow_one, Nat.mod_eq_of_lt fits, twice]
  omega

end Mmemu.Library.WordBytes
