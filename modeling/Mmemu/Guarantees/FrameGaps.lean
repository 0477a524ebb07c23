import Mathlib.Data.Set.Lattice
import Mathlib.Order.CompletePartialOrder
import Mmemu.Source.FrameAnalyzer

/-!
# The gaps of a stack frame

A gap lies between an entry and the next one by offset. The two always cover what lies between
their offsets, but what an earlier entry reaches over counts as a gap as well: the gaps are the
unallocated bytes exactly when no entry ends past a later one that a hole follows.
-/
namespace Mmemu.Guarantees.FrameGaps
open Mmemu.Source.FrameAnalyzer

/-- One past an entry's last byte. -/
def stop (e : FrameLayoutEntry) : ℕ := e.offset.toNat + e.size.toNat

def bytes (e : FrameLayoutEntry) : Set ℕ := Set.Ico e.offset.toNat (stop e)

def Sorted (layout : List FrameLayoutEntry) : Prop :=
  layout.Pairwise fun a b => a.offset.toNat ≤ b.offset.toNat

/-- No entry reaches the end of the address space. -/
def Bounded (layout : List FrameLayoutEntry) : Prop := ∀ e ∈ layout, stop e < 2 ^ 32

/-- The gaps are the bytes between the entries. -/
structure Unallocated (layout gaps : List FrameLayoutEntry) : Prop where
  apart : gaps.Pairwise fun g g' => Disjoint (bytes g) (bytes g')
  free : ∀ g ∈ gaps, ∀ e ∈ layout, Disjoint (bytes g) (bytes e)
  cover : ∀ b, (∃ e ∈ layout, e.offset.toNat ≤ b) → (∃ e ∈ layout, b < stop e) →
    ∃ e ∈ layout ++ gaps, b ∈ bytes e

/-- No entry ends past a later one that a hole follows. -/
def Reaching (layout : List FrameLayoutEntry) : Prop :=
  ∀ before current next after, layout = before ++ current :: next :: after →
    stop current < next.offset.toNat → ∀ e ∈ before, stop e ≤ stop current

/-! ## One gap -/

/-- A gap runs from the end of an entry to the start of the next. -/
structure Between (current next gap : FrameLayoutEntry) : Prop where
  hole : stop current < next.offset.toNat
  offset : gap.offset.toNat = stop current
  stop : stop gap = next.offset.toNat

theorem gapBetween_eq {current : FrameLayoutEntry} (small : stop current < 2 ^ 32) (next : FrameLayoutEntry) :
    (∀ gap, gapBetween current next = some gap → Between current next gap) ∧
      (gapBetween current next = none → next.offset.toNat ≤ stop current) := by
  have sum : (current.offset + current.size).toNat = stop current := by
    rw [BitVec.toNat_add]
    exact Nat.mod_eq_of_lt small
  unfold gapBetween
  dsimp only
  split
  next hole =>
    rw [BitVec.lt_def, sum] at hole
    refine ⟨fun gap is_gap => ?_, fun no_gap => absurd no_gap (Option.some_ne_none _)⟩
    obtain rfl := Option.some.inj is_gap
    have size : (next.offset - (current.offset + current.size)).toNat = next.offset.toNat - stop current := by
      rw [BitVec.toNat_sub_of_le (by rw [BitVec.le_def, sum]; exact hole.le), sum]
    refine ⟨hole, sum, ?_⟩
    change (current.offset + current.size).toNat + (next.offset - (current.offset + current.size)).toNat = _
    rw [sum, size]
    omega
  next flush =>
    rw [BitVec.lt_def, sum, Nat.not_lt] at flush
    exact ⟨fun gap is_gap => absurd is_gap.symm (Option.some_ne_none gap), fun _ => flush⟩

theorem mem_detectGaps {layout : List FrameLayoutEntry} (bounded : Bounded layout) {gap : FrameLayoutEntry}
    (found : gap ∈ detectGaps layout) :
    ∃ before current next after, layout = before ++ current :: next :: after ∧ Between current next gap := by
  induction layout with
  | nil => simp [detectGaps] at found
  | cons current rest ih =>
    cases rest with
    | nil => simp [detectGaps] at found
    | cons next rest =>
      rw [detectGaps, List.mem_append, Option.mem_toList] at found
      cases found with
      | inl here =>
        have small := bounded current (List.mem_cons_self ..)
        exact ⟨[], current, next, rest, rfl, (gapBetween_eq small next).1 gap here⟩
      | inr later =>
        obtain ⟨before, c, n, after, split, between⟩ :=
          ih (fun e mem => bounded e (List.mem_cons_of_mem _ mem)) later
        exact ⟨current :: before, c, n, after, by rw [split, List.cons_append], between⟩

theorem detectGaps_mem {before after : List FrameLayoutEntry} {current next : FrameLayoutEntry}
    (small : stop current < 2 ^ 32) (hole : stop current < next.offset.toNat) :
    ∃ gap ∈ detectGaps (before ++ current :: next :: after), Between current next gap := by
  induction before with
  | nil =>
    cases found : gapBetween current next with
    | none => exact absurd ((gapBetween_eq small next).2 found) hole.not_ge
    | some gap =>
      refine ⟨gap, ?_, (gapBetween_eq small next).1 gap found⟩
      simp [detectGaps, found]
  | cons e before ih =>
    obtain ⟨gap, mem, between⟩ := ih
    refine ⟨gap, ?_, between⟩
    cases before with
    | nil => exact List.mem_append_right _ mem
    | cons e' before => exact List.mem_append_right _ mem

/-- The gaps of a layout start no earlier than its first entry. -/
theorem offset_le_gap {first : FrameLayoutEntry} {rest : List FrameLayoutEntry} (sorted : Sorted (first :: rest))
    (bounded : Bounded (first :: rest)) {gap : FrameLayoutEntry} (found : gap ∈ detectGaps (first :: rest)) :
    first.offset.toNat ≤ gap.offset.toNat := by
  obtain ⟨before, current, next, after, split, between⟩ := mem_detectGaps bounded found
  have within : current ∈ first :: rest := by simp [split]
  have least : first.offset.toNat ≤ current.offset.toNat := by
    cases within with
    | head => exact le_rfl
    | tail _ later => exact (List.pairwise_cons.mp sorted).1 current later
  rw [between.offset, stop]
  omega

/-! ## All the gaps -/

theorem disjoint_of_le {a b : FrameLayoutEntry} (le : stop a ≤ b.offset.toNat) : Disjoint (bytes a) (bytes b) := by
  rw [Set.disjoint_left]
  intro x in_a in_b
  exact absurd (in_a.2.trans_le le) in_b.1.not_gt

theorem gaps_apart {layout : List FrameLayoutEntry} (sorted : Sorted layout) (bounded : Bounded layout) :
    (detectGaps layout).Pairwise fun g g' => Disjoint (bytes g) (bytes g') := by
  induction layout with
  | nil => exact List.Pairwise.nil
  | cons current rest ih =>
    cases rest with
    | nil => exact List.Pairwise.nil
    | cons next rest =>
      have later_sorted := (List.pairwise_cons.mp sorted).2
      have later_bounded : Bounded (next :: rest) := fun e mem => bounded e (List.mem_cons_of_mem _ mem)
      have small := bounded current (List.mem_cons_self ..)
      rw [detectGaps, List.pairwise_append]
      refine ⟨?_, ih later_sorted later_bounded, fun gap here gap' later => ?_⟩
      · cases gapBetween current next <;> simp
      · have between := (gapBetween_eq small next).1 gap (Option.mem_toList.mp here)
        exact disjoint_of_le (between.stop.trans_le (offset_le_gap later_sorted later_bounded later))

/-- Entries and gaps together leave no byte out. -/
theorem gaps_cover {layout : List FrameLayoutEntry} (bounded : Bounded layout) (b : ℕ)
    (first : ∃ e ∈ layout.head?, e.offset.toNat ≤ b) (last : ∃ e ∈ layout, b < stop e) :
    ∃ e ∈ layout ++ detectGaps layout, b ∈ bytes e := by
  induction layout with
  | nil => simp at first
  | cons current rest ih =>
    obtain ⟨e, is_head, le⟩ := first
    obtain rfl := Option.some.inj is_head
    by_cases inside : b < stop current
    · exact ⟨current, by simp, le, inside⟩
    obtain ⟨e, mem, lt⟩ := last
    have tail : e ∈ rest := by
      cases mem with
      | head => exact absurd lt inside
      | tail _ later => exact later
    cases rest with
    | nil => simp at tail
    | cons next rest =>
      have small := bounded current (List.mem_cons_self ..)
      by_cases from_next : next.offset.toNat ≤ b
      · obtain ⟨e, found, covers⟩ := ih (fun e mem => bounded e (List.mem_cons_of_mem _ mem))
          ⟨next, rfl, from_next⟩ ⟨e, tail, lt⟩
        refine ⟨e, ?_, covers⟩
        rw [detectGaps]
        simp only [List.mem_append, List.mem_cons] at found ⊢
        tauto
      · have hole : stop current < next.offset.toNat := by omega
        obtain ⟨gap, found, between⟩ := @detectGaps_mem [] rest current next small hole
        refine ⟨gap, List.mem_append_right _ found, ?_⟩
        change gap.offset.toNat ≤ b ∧ b < stop gap
        rw [between.offset, between.stop]
        omega

theorem head_le {layout : List FrameLayoutEntry} (sorted : Sorted layout) {b : ℕ}
    (from_ : ∃ e ∈ layout, e.offset.toNat ≤ b) : ∃ e ∈ layout.head?, e.offset.toNat ≤ b := by
  obtain ⟨e, mem, le⟩ := from_
  cases layout with
  | nil => simp at mem
  | cons first rest =>
    refine ⟨first, rfl, ?_⟩
    cases mem with
    | head => exact le
    | tail _ later => exact ((List.pairwise_cons.mp sorted).1 e later).trans le

theorem gaps_free {layout : List FrameLayoutEntry} (sorted : Sorted layout) (bounded : Bounded layout)
    (reaching : Reaching layout) : ∀ g ∈ detectGaps layout, ∀ e ∈ layout, Disjoint (bytes g) (bytes e) := by
  intro gap found e mem
  obtain ⟨before, current, next, after, split, between⟩ := mem_detectGaps bounded found
  rw [split, List.mem_append, List.mem_cons] at mem
  have behind : e ∈ before ∨ e = current → stop e ≤ stop current := by
    intro earlier
    cases earlier with
    | inl before_ => exact reaching before current next after split between.hole e before_
    | inr same => rw [same]
  by_cases later : e ∈ next :: after
  · have order : next.offset.toNat ≤ e.offset.toNat := by
      rw [split, Sorted, List.pairwise_append] at sorted
      have tail := (List.pairwise_cons.mp sorted.2.1).2
      cases later with
      | head => exact le_rfl
      | tail _ further => exact (List.pairwise_cons.mp tail).1 e further
    exact disjoint_of_le (between.stop.trans_le order)
  · have earlier : e ∈ before ∨ e = current := by tauto
    exact (disjoint_of_le ((behind earlier).trans between.offset.ge)).symm

/-- The gaps that `detectGaps` reports are the unallocated bytes exactly when no entry ends past a
later one that a hole follows. -/
theorem gaps_unallocated_iff {layout : List FrameLayoutEntry} (sorted : Sorted layout) (bounded : Bounded layout) :
    Unallocated layout (detectGaps layout) ↔ Reaching layout := by
  constructor
  · intro exact_ before current next after split hole e earlier
    by_contra past
    rw [Nat.not_le] at past
    subst split
    have small : stop current < 2 ^ 32 := bounded current (by simp)
    obtain ⟨gap, found, between⟩ := @detectGaps_mem before after current next small hole
    have order : e.offset.toNat ≤ current.offset.toNat :=
      (List.pairwise_append.mp sorted).2.2 e earlier current (List.mem_cons_self ..)
    have apart := exact_.free gap found e (List.mem_append_left _ earlier)
    have in_gap : stop current ∈ bytes gap := ⟨between.offset.le, hole.trans_eq between.stop.symm⟩
    have in_entry : stop current ∈ bytes e := ⟨order.trans (Nat.le_add_right _ _), past⟩
    exact Set.disjoint_left.mp apart in_gap in_entry
  · intro reaching
    exact ⟨gaps_apart sorted bounded, gaps_free sorted bounded reaching, fun b first last =>
      gaps_cover bounded b (head_le sorted first) last⟩

/-- Two variables with a hole between them. -/
def separate : List FrameLayoutEntry := [{ offset := 0, size := 2 }, { offset := 4, size := 2 }]

theorem gaps_unallocated_separate :
    Sorted separate ∧ Bounded separate ∧ (Unallocated separate (detectGaps separate) ↔ Reaching separate) := by
  have sorted : Sorted separate := by simp [Sorted, separate]
  have bounded : Bounded separate := by simp [Bounded, separate, stop]
  exact ⟨sorted, bounded, gaps_unallocated_iff sorted bounded⟩

/-- A structure, a field inside it and a variable after it: the rest of the structure counts as a
gap. -/
def nested : List FrameLayoutEntry :=
  [{ offset := 0, size := 10 }, { offset := 2, size := 2 }, { offset := 10, size := 2 }]

theorem nested_gap_allocated :
    Sorted nested ∧ Bounded nested ∧ ¬Unallocated nested (detectGaps nested) := by
  refine ⟨by simp [Sorted, nested], by simp [Bounded, nested, stop], fun all => ?_⟩
  obtain ⟨gap, found, offset, size⟩ : ∃ gap ∈ detectGaps nested, gap.offset = 4 ∧ gap.size = 6 := by decide
  have apart := all.free gap found { offset := 0, size := 10 } (by decide)
  have in_gap : 5 ∈ bytes gap := by simp [bytes, stop, offset, size]
  exact Set.disjoint_left.mp apart in_gap ⟨Nat.zero_le 5, by decide⟩

end Mmemu.Guarantees.FrameGaps
