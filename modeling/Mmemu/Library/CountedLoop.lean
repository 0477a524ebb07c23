import Mathlib.Data.List.Basic
import Mathlib.Data.BitVec

/-!
# Loops over a fixed-width counter

A loop `for (c = first; c <= last; c += stride)` over a counter that wraps around. It ends
exactly if some value of the counter lies above `last`, and then the values it runs through
cover the interval from `first` to `last`, a stride at a time.
-/
namespace Mmemu.Library.CountedLoop

variable {w : ℕ}

/-- The values of the counter that the body runs for, unless the fuel is used up first. -/
def upTo (stride : ℕ) (last : BitVec w) : ℕ → BitVec w → Option (List (BitVec w))
  | 0, _ => none
  | fuel + 1, c =>
    if c ≤ last then (upTo stride last fuel (c + BitVec.ofNat w stride)).map (c :: ·) else some []

/-- The values from `first` to `last`. -/
def interval (first last : BitVec w) : List (BitVec w) :=
  (List.range (last.toNat + 1 - first.toNat)).map fun i => first + BitVec.ofNat w i

/-- The values of a stride from `c` on, up to `last`. -/
def stretch (stride : ℕ) (last c : BitVec w) : List (BitVec w) :=
  ((List.range stride).map fun i => c + BitVec.ofNat w i).takeWhile (· ≤ last)

theorem interval_of_lt {first last : BitVec w} (after : last < first) : interval first last = [] := by
  have none_ : last.toNat + 1 - first.toNat = 0 := by
    rw [BitVec.lt_def] at after
    omega
  rw [interval, none_, List.range_zero, List.map_nil]

theorem toNat_add_ofNat {c : BitVec w} {i : ℕ} (fits : c.toNat + i < 2 ^ w) :
    (c + BitVec.ofNat w i).toNat = c.toNat + i := by
  rw [BitVec.toNat_add, BitVec.toNat_ofNat, Nat.add_mod_mod, Nat.mod_eq_of_lt fits]

/-- Where the stride does not wrap around, it stops behind `last` at the latest. -/
theorem stretch_eq {stride : ℕ} {last c : BitVec w} (fits : c.toNat + stride ≤ 2 ^ w) :
    stretch stride last c =
      (List.range (min stride (last.toNat + 1 - c.toNat))).map fun i => c + BitVec.ofNat w i := by
  induction stride with
  | zero => simp [stretch]
  | succ stride ih =>
    have before := ih (by omega)
    unfold stretch at before ⊢
    rw [List.range_succ, List.map_append, List.takeWhile_append, before]
    by_cases through : stride < last.toNat + 1 - c.toNat
    · have here : c + BitVec.ofNat w stride ≤ last := by
        rw [BitVec.le_def, toNat_add_ofNat (by omega)]
        omega
      rw [Nat.min_eq_left (by omega), Nat.min_eq_left (by omega), List.range_succ]
      simp [here]
    · have past : ¬c + BitVec.ofNat w stride ≤ last := by
        rw [BitVec.le_def, toNat_add_ofNat (by omega)]
        omega
      rw [Nat.min_eq_right (by omega), Nat.min_eq_right (by omega)]
      simp only [List.map_cons, List.map_nil, List.takeWhile_cons, past, decide_false,
        Bool.false_eq_true, if_false, List.append_nil, List.length_map, List.length_range,
        ite_eq_right_iff]
      intro all
      rw [all]

/-- A stride, and the interval behind it. -/
theorem stretch_append_interval {stride : ℕ} {last c : BitVec w} (fits : c.toNat + stride < 2 ^ w) :
    stretch stride last c ++ interval (c + BitVec.ofNat w stride) last = interval c last := by
  rw [stretch_eq fits.le, interval, interval, toNat_add_ofNat fits]
  rcases Nat.lt_or_ge stride (last.toNat + 1 - c.toNat) with through | past
  · have parts : last.toNat + 1 - c.toNat = stride + (last.toNat + 1 - (c.toNat + stride)) := by
      omega
    rw [Nat.min_eq_left through.le, parts, List.range_add, List.map_append, List.map_map]
    congr 1
    refine List.map_congr_left fun i _ => ?_
    rw [Function.comp_apply, BitVec.ofNat_add, BitVec.add_assoc]
  · have none_ : last.toNat + 1 - (c.toNat + stride) = 0 := by omega
    rw [Nat.min_eq_right past, none_, List.range_zero, List.map_nil, List.append_nil]

theorem mem_upTo_le {stride fuel : ℕ} {last first : BitVec w} {out : List (BitVec w)}
    (ended : upTo stride last fuel first = some out) {c : BitVec w} (mem : c ∈ out) : c ≤ last := by
  induction fuel generalizing first out with
  | zero => cases ended
  | succ fuel ih =>
    rw [upTo] at ended
    split at ended
    next inside =>
      obtain ⟨rest, later, rfl⟩ := Option.map_eq_some_iff.mp ended
      rcases List.mem_cons.mp mem with rfl | mem
      · exact inside
      · exact ih later mem
    next =>
      cases ended
      cases mem

/-- A loop that takes one value at a time. -/
theorem flatMap_stretch_one {fuel : ℕ} {last first : BitVec w} {out : List (BitVec w)}
    (ended : upTo 1 last fuel first = some out) : out.flatMap (stretch 1 last) = out := by
  have each : out.flatMap (stretch 1 last) = out.flatMap fun c => [c] := by
    refine List.flatMap_congr fun c mem => ?_
    simp [stretch, mem_upTo_le ended mem]
  rw [each, List.flatMap_singleton']

/-! ## When the loop ends -/

/-- Some value that the counter takes lies above `last`. -/
def Bounded (stride : ℕ) (first last : BitVec w) : Prop :=
  last.toNat + stride < 2 ^ w + first.toNat % stride

instance (stride : ℕ) (first last : BitVec w) : Decidable (Bounded stride first last) :=
  inferInstanceAs (Decidable (_ < _))

section Ends
variable {stride : ℕ} (whole : stride ∣ 2 ^ w) {first last : BitVec w}
include whole

/-- A value within bounds has a next one. -/
theorem Bounded.next (bounded : Bounded stride first last) (inside : first ≤ last) :
    first.toNat + stride < 2 ^ w := by
  obtain ⟨q, hq⟩ := whole
  unfold Bounded at bounded
  rw [BitVec.le_def] at inside
  have parts := Nat.div_add_mod first.toNat stride
  generalize first.toNat / stride = a at parts
  have room : stride * (a + 1) < stride * q := by
    rw [Nat.mul_succ]
    omega
  have steps := Nat.lt_of_mul_lt_mul_left room
  have far : stride * (a + 2) ≤ stride * q := Nat.mul_le_mul_left stride steps
  have rest : first.toNat % stride < stride := Nat.mod_lt _ (by
    rcases Nat.eq_zero_or_pos stride with none_ | pos
    · subst none_
      omega
    · exact pos)
  rw [Nat.mul_add] at far
  omega

theorem mod_step (c : BitVec w) :
    (c + BitVec.ofNat w stride).toNat % stride = c.toNat % stride := by
  rw [BitVec.toNat_add, BitVec.toNat_ofNat, Nat.add_mod_mod, Nat.mod_mod_of_dvd _ whole,
    Nat.add_mod_right]

/-- A loop within bounds runs through the interval and ends. -/
theorem upTo_of_bounded (positive : 0 < stride) (bounded : Bounded stride first last) :
    ∃ fuel out, upTo stride last fuel first = some out ∧
      out.flatMap (stretch stride last) = interval first last := by
  induction rounds : last.toNat + 1 - first.toNat using Nat.strong_induction_on generalizing first with
  | _ n ih =>
    by_cases inside : first ≤ last
    · have fits := bounded.next whole inside
      have next : Bounded stride (first + BitVec.ofNat w stride) last := by
        unfold Bounded
        rw [mod_step whole]
        exact bounded
      have fewer : last.toNat + 1 - (first.toNat + stride) < n := by
        rw [BitVec.le_def] at inside
        omega
      obtain ⟨fuel, out, ended, covers⟩ := ih _ fewer next (by rw [toNat_add_ofNat fits])
      refine ⟨fuel + 1, first :: out, ?_, ?_⟩
      · rw [upTo, if_pos inside, ended, Option.map_some]
      · rw [List.flatMap_cons, covers, stretch_append_interval fits]
    · refine ⟨1, [], ?_, ?_⟩
      · rw [upTo, if_neg inside]
      · rw [List.flatMap_nil, interval_of_lt (BitVec.not_le.mp inside)]

/-- Past the bound every value of the counter is at most `last`. -/
theorem upTo_of_not_bounded (past : ¬Bounded stride first last) (fuel : ℕ) :
    upTo stride last fuel first = none := by
  induction fuel generalizing first with
  | zero => rfl
  | succ fuel ih =>
    have inside : first ≤ last := by
      rw [BitVec.le_def]
      by_contra above
      have below := first.isLt
      unfold Bounded at past
      obtain ⟨q, hq⟩ := whole
      have parts := Nat.div_add_mod first.toNat stride
      generalize first.toNat / stride = a at parts
      have beyond : stride * q < stride * (a + 1) := by
        rw [Nat.mul_succ]
        omega
      have reached : stride * q ≤ stride * a :=
        Nat.mul_le_mul_left stride (Nat.lt_succ_iff.mp (Nat.lt_of_mul_lt_mul_left beyond))
      omega
    have next : ¬Bounded stride (first + BitVec.ofNat w stride) last := by
      unfold Bounded
      rw [mod_step whole]
      exact past
    rw [upTo, if_pos inside, ih next, Option.map_none]

end Ends

end Mmemu.Library.CountedLoop
