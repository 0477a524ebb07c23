import Mathlib.Data.BitVec

/-!
# Numbers in a stream of bits

Numbers of any width one after the other, each with its lowest bit first.
-/
namespace Mmemu.Library.BitStream

/-- The lowest bits of a number. -/
def bitsOf : ℕ → ℕ → List Bool
  | 0, _ => []
  | width + 1, n => (n % 2 == 1) :: bitsOf width (n / 2)

def ofBits : List Bool → ℕ
  | [] => 0
  | b :: rest => b.toNat + 2 * ofBits rest

@[simp] theorem length_bitsOf (width n : ℕ) : (bitsOf width n).length = width := by
  induction width generalizing n with
  | zero => rfl
  | succ width ih => simp [bitsOf, ih]

theorem ofBits_bitsOf (width n : ℕ) : ofBits (bitsOf width n) = n % 2 ^ width := by
  induction width generalizing n with
  | zero => simp [bitsOf, ofBits, Nat.mod_one]
  | succ width ih =>
    have low : (n % 2 == 1).toNat = n % 2 := by
      rcases Nat.mod_two_eq_zero_or_one n with zero | one
      · simp [zero]
      · simp [one]
    rw [bitsOf, ofBits, ih, low, Nat.pow_succ', Nat.mod_mul]

theorem ofBits_bitsOf_of_lt {width n : ℕ} (fits : n < 2 ^ width) : ofBits (bitsOf width n) = n := by
  rw [ofBits_bitsOf, Nat.mod_eq_of_lt fits]

theorem bitsOf_append (v w n : ℕ) : bitsOf (v + w) n = bitsOf v n ++ bitsOf w (n / 2 ^ v) := by
  induction v generalizing n with
  | zero => simp [bitsOf]
  | succ v ih =>
    rw [Nat.succ_add, bitsOf, bitsOf, ih, List.cons_append, Nat.div_div_eq_div_mul, Nat.pow_succ']

theorem bitsOf_mod (width n : ℕ) : bitsOf width (n % 2 ^ width) = bitsOf width n := by
  induction width generalizing n with
  | zero => rfl
  | succ width ih =>
    have half : n % 2 ^ (width + 1) / 2 = n / 2 % 2 ^ width := by
      rw [Nat.pow_succ', Nat.mod_mul_right_div_self]
    have low : n % 2 ^ (width + 1) % 2 = n % 2 :=
      Nat.mod_mod_of_dvd n (Dvd.intro_left (2 ^ width) (Nat.pow_succ ..).symm)
    rw [bitsOf, bitsOf, half, ih, low]

/-- The bits of a number above those of another. -/
theorem bitsOf_or_shiftLeft {v a : ℕ} (fits : a < 2 ^ v) (w b : ℕ) :
    bitsOf (v + w) (a ||| b <<< v) = bitsOf v a ++ bitsOf w b := by
  have sum : a ||| b <<< v = a + b * 2 ^ v := by
    rw [Nat.or_comm, ← Nat.shiftLeft_add_eq_or_of_lt fits, Nat.shiftLeft_eq, Nat.add_comm]
  have low : (a + b * 2 ^ v) % 2 ^ v = a := by rw [Nat.add_mul_mod_self_right, Nat.mod_eq_of_lt fits]
  have high : (a + b * 2 ^ v) / 2 ^ v = b := by
    rw [Nat.add_mul_div_right _ _ (Nat.two_pow_pos v), Nat.div_eq_of_lt fits, Nat.zero_add]
  rw [sum, bitsOf_append, high, ← bitsOf_mod, low]

/-- Bits above a number's own are zero. -/
theorem bitsOf_of_lt {v n : ℕ} (fits : n < 2 ^ v) (w : ℕ) :
    bitsOf (v + w) n = bitsOf v n ++ bitsOf w 0 := by
  rw [bitsOf_append, Nat.div_eq_of_lt fits]

theorem bitsOf_zero_append (v w : ℕ) : bitsOf (v + w) 0 = bitsOf v 0 ++ bitsOf w 0 := by
  rw [bitsOf_append, Nat.zero_div]

/-- The bits of bytes. -/
def byteBits (bytes : List (BitVec 8)) : List Bool := bytes.flatMap fun b => bitsOf 8 b.toNat

theorem byteBits_append (a b : List (BitVec 8)) : byteBits (a ++ b) = byteBits a ++ byteBits b :=
  List.flatMap_append

theorem byteBits_ofNat (n : ℕ) : byteBits [BitVec.ofNat 8 n] = bitsOf 8 n := by
  simp only [byteBits, List.flatMap_cons, List.flatMap_nil, List.append_nil, BitVec.toNat_ofNat]
  exact bitsOf_mod 8 n

@[simp] theorem length_byteBits (bytes : List (BitVec 8)) : (byteBits bytes).length = 8 * bytes.length := by
  induction bytes with
  | nil => rfl
  | cons b rest ih =>
    rw [byteBits, List.flatMap_cons, List.length_append, length_bitsOf, List.length_cons, ← byteBits, ih]
    omega

end Mmemu.Library.BitStream
