import Mathlib.Algebra.Order.Ring.Nat
import Mathlib.Data.List.DropRight
import Mathlib.Data.Nat.Digits.Lemmas
import Mathlib.Tactic.Ring
import Mathlib.Tactic.Linarith

/-!
# Numerals and trimmed text

Positional numerals over any alphabet of digits, written with a fixed number of them and
read from left to right, and text whose ends are trimmed.
-/
namespace Mmemu.Library.Numerals

variable {α : Type*}

/-- Symbols for the digits below a base; each reads back as the digit it was written for. -/
structure Digits (α : Type*) (base : ℕ) where
  glyph : ℕ → α
  digit : α → ℕ
  digit_glyph : ∀ d < base, digit (glyph d) = d

namespace Digits
variable {base : ℕ} (digits : Digits α base)

def value (text : List α) : ℕ := text.foldl (fun n c => n * base + digits.digit c) 0

/-- The last `width` digits of a number. -/
def render : ℕ → ℕ → List α
  | 0, _ => []
  | width + 1, n => render width (n / base) ++ [digits.glyph (n % base)]

theorem value_concat (text : List α) (c : α) :
    digits.value (text ++ [c]) = digits.value text * base + digits.digit c := by
  simp [value]

@[simp] theorem length_render (width n : ℕ) : (digits.render width n).length = width := by
  induction width generalizing n with
  | zero => rfl
  | succ width ih => simp [render, ih]

theorem value_render (positive : 0 < base) (width n : ℕ) :
    digits.value (digits.render width n) = n % base ^ width := by
  induction width generalizing n with
  | zero => simp [render, value, Nat.mod_one]
  | succ width ih =>
    have inRange : n % base < base := Nat.mod_lt n positive
    rw [render, value_concat, ih, digits.digit_glyph _ inRange, Nat.pow_succ', Nat.mod_mul,
      Nat.mul_comm base]
    exact Nat.add_comm _ _

theorem mem_render {width n : ℕ} {c : α} (positive : 0 < base) (mem : c ∈ digits.render width n) :
    ∃ d < base, c = digits.glyph d := by
  induction width generalizing n with
  | zero => simp [render] at mem
  | succ width ih =>
    rcases List.mem_append.mp mem with before | last
    · exact ih before
    · exact ⟨n % base, Nat.mod_lt n positive, List.mem_singleton.mp last⟩

end Digits

section Trimmed
variable (blank : α → Bool)

/-- A text without the blanks at its two ends. -/
def trim (text : List α) : List α := (text.dropWhile blank).rdropWhile blank

/-- A text that no trimming changes. -/
def Trimmed (text : List α) : Prop :=
  (∀ c, text.head? = some c → blank c = false) ∧ ∀ c, text.getLast? = some c → blank c = false

variable {blank}

theorem trim_of_trimmed {text : List α} (trimmed : Trimmed blank text) : trim blank text = text := by
  obtain ⟨first, last⟩ := trimmed
  have front : text.dropWhile blank = text := by
    cases text with
    | nil => rfl
    | cons c text => simp [first c rfl]
  rw [trim, front, List.rdropWhile_eq_self_iff]
  intro nonempty
  simp [last _ (List.getLast?_eq_getLast_of_ne_nil nonempty)]

theorem trimmed_of_forall {text : List α} (none : ∀ c ∈ text, blank c = false) :
    Trimmed blank text :=
  ⟨fun c first => none c (List.mem_of_mem_head? first),
    fun c last => none c (List.mem_of_mem_getLast? last)⟩

theorem trim_blanks_append {front : List α} (blanks : ∀ c ∈ front, blank c = true)
    (text : List α) : trim blank (front ++ text) = trim blank text := by
  rw [trim, List.dropWhile_append_of_pos blanks, trim]

/-- Blanks behind a text that does not end in one go as well. -/
theorem trim_append_blanks {text back : List α} (trimmed : Trimmed blank text)
    (blanks : ∀ c ∈ back, blank c = true) : trim blank (text ++ back) = text := by
  induction back using List.reverseRecOn with
  | nil => rw [List.append_nil, trim_of_trimmed trimmed]
  | append_singleton back c ih =>
    have same := ih fun d mem => blanks d (List.mem_append_left _ mem)
    have isBlank : blank c = true := blanks c (by simp)
    have dropped : (text ++ (back ++ [c])).dropWhile blank = (text ++ back).dropWhile blank ++ [c]
        ∨ (text ++ (back ++ [c])).dropWhile blank = (text ++ back).dropWhile blank := by
      rw [← List.append_assoc, List.dropWhile_append]
      split
      · rename_i empty
        rw [List.isEmpty_iff.mp empty]
        simp [isBlank]
      · exact .inl rfl
    rw [trim]
    rcases dropped with h | h
    · rw [h, List.rdropWhile_concat_pos _ _ _ isBlank]
      exact same
    · rw [h]
      exact same

end Trimmed

end Mmemu.Library.Numerals

/-!
# Carry chains

Numbers of several digits, added one digit at a time with a carry from each to
the next, the lowest digit first. A subtraction is the addition that it undoes:
its result and what is subtracted add up to what it started from, and the
carries are its borrows.
-/
namespace Mmemu.Library.CarryChain

/-- One digit of an addition: two digits give a sum and a carry out. -/
structure Column where
  left : ℕ
  right : ℕ
  sum : ℕ
  carry : ℕ
  deriving DecidableEq, Repr

/-- Each column adds its digits and the carry from the one before it. -/
def Adds (b : ℕ) : ℕ → List Column → Prop
  | _, [] => True
  | c, col :: rest => col.sum + b * col.carry = col.left + col.right + c ∧ Adds b col.carry rest

/-- The carry out of the last column. -/
def carryOut : ℕ → List Column → ℕ
  | c, [] => c
  | _, col :: rest => carryOut col.carry rest

/-- The number some part of the columns spells. -/
def number (b : ℕ) (part : Column → ℕ) (cols : List Column) : ℕ := Nat.ofDigits b (cols.map part)

@[simp] theorem number_cons (b : ℕ) (part : Column → ℕ) (col : Column) (rest : List Column) :
    number b part (col :: rest) = part col + b * number b part rest := Nat.ofDigits_cons

/-- Nothing is lost along the chain. -/
theorem Adds.total {b c : ℕ} {cols : List Column} (h : Adds b c cols) :
    number b Column.sum cols + b ^ cols.length * carryOut c cols =
      number b Column.left cols + number b Column.right cols + c := by
  induction cols generalizing c with
  | nil => simp [number, carryOut]
  | cons col rest ih =>
    obtain ⟨here, later⟩ := h
    have below := ih later
    simp only [number_cons, List.length_cons, carryOut]
    calc col.sum + b * number b Column.sum rest + b ^ (rest.length + 1) * carryOut col.carry rest
        = col.sum +
            b * (number b Column.sum rest + b ^ rest.length * carryOut col.carry rest) := by ring
      _ = col.sum + b * col.carry +
            b * (number b Column.left rest + number b Column.right rest) := by
          rw [below]
          ring
      _ = _ := by
          rw [here]
          ring

theorem number_lt {b : ℕ} (base : 1 < b) {part : Column → ℕ} {cols : List Column}
    (h : ∀ col ∈ cols, part col < b) : number b part cols < b ^ cols.length := by
  rw [← List.length_map (f := part)]
  refine Nat.ofDigits_lt_base_pow_length base ?_
  intro d hd
  obtain ⟨col, mem, rfl⟩ := List.mem_map.mp hd
  exact h col mem

/-- A sum of digits is the sum of the numbers, up to a carry out. -/
theorem Adds.sum_mod {b : ℕ} (base : 1 < b) {cols : List Column} (h : Adds b 0 cols)
    (digits : ∀ col ∈ cols, col.sum < b) :
    number b Column.sum cols =
      (number b Column.left cols + number b Column.right cols) % b ^ cols.length := by
  have total := h.total
  have small := number_lt base digits
  rw [Nat.add_zero] at total
  rw [← total, Nat.add_mul_mod_self_left, Nat.mod_eq_of_lt small]

/-- There is a carry out exactly when the numbers do not fit. -/
theorem Adds.carry_iff {b : ℕ} (base : 1 < b) {cols : List Column} (h : Adds b 0 cols)
    (digits : ∀ col ∈ cols, col.sum < b) :
    carryOut 0 cols ≠ 0 ↔
      b ^ cols.length ≤ number b Column.left cols + number b Column.right cols := by
  have total := h.total
  have small := number_lt base digits
  rw [Nat.add_zero] at total
  rw [← total]
  constructor
  · intro some_
    have positive : 1 ≤ carryOut 0 cols := Nat.one_le_iff_ne_zero.mpr some_
    exact Nat.le_trans (Nat.le_mul_of_pos_right _ positive) (Nat.le_add_left _ _)
  · intro long none_
    rw [none_] at long
    omega

/-- The digits that were found in a subtraction are its difference, up to a borrow. -/
theorem Adds.left_mod {b : ℕ} (base : 1 < b) {cols : List Column} (h : Adds b 0 cols)
    (digits : ∀ col ∈ cols, col.left < b) :
    (number b Column.left cols : ℤ) =
      ((number b Column.sum cols : ℤ) - number b Column.right cols) % (b : ℤ) ^ cols.length := by
  have total := h.total
  have small := number_lt base digits
  have difference : (number b Column.sum cols : ℤ) - number b Column.right cols =
      number b Column.left cols - (b : ℤ) ^ cols.length * carryOut 0 cols := by
    have whole : ((number b Column.sum cols + b ^ cols.length * carryOut 0 cols : ℕ) : ℤ) =
        (number b Column.left cols + number b Column.right cols + 0 : ℕ) := by rw [total]
    push_cast at whole
    linarith
  rw [difference, Int.sub_mul_emod_self_left]
  exact (Int.emod_eq_of_lt (Int.natCast_nonneg _) (by exact_mod_cast small)).symm

/-- There is a borrow exactly when less is there than is subtracted. -/
theorem Adds.borrow_iff {b : ℕ} (base : 1 < b) {cols : List Column} (h : Adds b 0 cols)
    (digits : ∀ col ∈ cols, col.left < b) :
    carryOut 0 cols ≠ 0 ↔ number b Column.sum cols < number b Column.right cols := by
  have total := h.total
  have small := number_lt base digits
  constructor
  · intro some_
    have positive : 1 ≤ carryOut 0 cols := Nat.one_le_iff_ne_zero.mpr some_
    have whole : b ^ cols.length ≤ b ^ cols.length * carryOut 0 cols :=
      Nat.le_mul_of_pos_right _ positive
    omega
  · intro less none_
    rw [none_] at total
    omega

end Mmemu.Library.CarryChain
