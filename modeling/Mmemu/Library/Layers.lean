import Mathlib.Data.List.Basic

/-!
# Layers

A list of layers is looked through from its head: the first one that covers a place shows
it. What is in front of all layers hides them, what is under them shows through.
-/
namespace Mmemu.Library.Layers

structure View (ι α β : Type*) where
  covers : ι → α → Bool
  shows : ι → α → β
  front : α → Option β
  under : α → β

namespace View
variable {ι α β : Type*} (v : View ι α β)

def first (layers : List ι) (a : α) : Option ι := layers.find? (v.covers · a)

def look (layers : List ι) (a : α) : β :=
  match v.front a with
  | some b => b
  | none =>
    match v.first layers a with
    | some n => v.shows n a
    | none => v.under a

variable {v}

theorem look_of_front {layers : List ι} {a : α} {b : β} (h : v.front a = some b) :
    v.look layers a = b := by
  rw [look, h]

theorem look_of_first {layers : List ι} {a : α} {n : ι} (open_ : v.front a = none)
    (h : v.first layers a = some n) : v.look layers a = v.shows n a := by
  rw [look, open_, h]

theorem look_of_none {layers : List ι} {a : α} (open_ : v.front a = none)
    (h : v.first layers a = none) : v.look layers a = v.under a := by
  rw [look, open_, h]

/-- Layers with the same first one at a place show the same there. -/
theorem look_congr {layers layers' : List ι} {a : α} (h : v.first layers' a = v.first layers a) :
    v.look layers' a = v.look layers a := by
  unfold look
  rw [h]

theorem first_cons_covered {layers : List ι} {a : α} {n : ι} (h : v.covers n a = true) :
    v.first (n :: layers) a = some n := List.find?_cons_of_pos h

theorem first_cons_of_not {layers : List ι} {a : α} {n : ι} (h : v.covers n a = false) :
    v.first (n :: layers) a = v.first layers a :=
  List.find?_cons_of_neg (Bool.eq_false_iff.mp h)

theorem first_append_of_some {layers : List ι} {a : α} {o : ι} (n : ι)
    (h : v.first layers a = some o) : v.first (layers ++ [n]) a = some o := by
  unfold first at h ⊢
  rw [List.find?_append, h]
  rfl

theorem first_append_of_none {layers : List ι} {a : α} (n : ι) (h : v.first layers a = none) :
    v.first (layers ++ [n]) a = v.first [n] a := by
  unfold first at h ⊢
  rw [List.find?_append, h]
  rfl

theorem first_append_of_not {layers : List ι} {a : α} {n : ι} (h : v.covers n a = false) :
    v.first (layers ++ [n]) a = v.first layers a := by
  cases found : v.first layers a with
  | some o => exact first_append_of_some n found
  | none => rw [first_append_of_none n found, first_cons_of_not h, first, List.find?_nil]

/-- Taking layers away shows the same where the first one stays. -/
theorem first_filter {layers : List ι} {a : α} {keep : ι → Bool}
    (stays : ∀ o, v.first layers a = some o → keep o = true) :
    v.first (layers.filter keep) a = v.first layers a := by
  induction layers with
  | nil => rfl
  | cons n rest ih =>
    cases covered : v.covers n a with
    | true =>
      have kept := stays n (first_cons_covered covered)
      rw [List.filter_cons_of_pos kept, first_cons_covered covered, first_cons_covered covered]
    | false =>
      rw [first_cons_of_not covered] at stays ⊢
      rw [← ih stays]
      cases kept : keep n with
      | true => rw [List.filter_cons_of_pos kept, first_cons_of_not covered]
      | false => rw [List.filter_cons_of_neg (Bool.eq_false_iff.mp kept)]

/-! ## A layer put on and taken off again -/

/-- What a place shows once a layer is put under the others. -/
theorem look_append_eq_iff {layers : List ι} {a : α} (n : ι) {b : β}
    (new : v.covers n a = true → v.shows n a = b) :
    v.look (layers ++ [n]) a = b ↔
      match v.front a, v.first layers a with
      | some x, _ => x = b
      | none, some o => v.shows o a = b
      | none, none => v.covers n a = true ∨ v.under a = b := by
  cases open_ : v.front a with
  | some x => rw [look_of_front open_]
  | none =>
    cases found : v.first layers a with
    | some o => rw [look_of_first open_ (first_append_of_some n found)]
    | none =>
      have alone := first_append_of_none n found
      cases covered : v.covers n a with
      | true =>
        rw [first_cons_covered covered] at alone
        rw [look_of_first open_ alone]
        exact iff_of_true (new covered) (.inl rfl)
      | false =>
        rw [first_cons_of_not covered] at alone
        have none : v.first [] a = .none := List.find?_nil
        rw [none] at alone
        rw [look_of_none open_ alone]
        simp

/-- What a place shows once a layer is put on top of the others. -/
theorem look_cons_eq_iff {layers : List ι} {a : α} (n : ι) {b : β} (open_ : v.front a = none)
    (new : v.covers n a = true → v.shows n a = b) :
    v.look (n :: layers) a = b ↔ v.covers n a = true ∨ v.look layers a = b := by
  cases covered : v.covers n a with
  | true =>
    rw [look_of_first open_ (first_cons_covered covered)]
    exact iff_of_true (new covered) (.inl rfl)
  | false =>
    rw [look_congr (first_cons_of_not covered)]
    simp

/-- Taking layers away changes a place only where the first one goes. -/
theorem look_filter_eq_iff {layers : List ι} {a : α} (keep : ι → Bool) :
    v.look (layers.filter keep) a = v.look layers a ↔
      (v.front a = none → ∀ o, v.first layers a = some o → keep o = false →
        v.look (layers.filter keep) a = v.shows o a) := by
  constructor
  · intro same open_ o found _
    rw [same, look_of_first open_ found]
  · intro gone
    cases open_ : v.front a with
    | some x => rw [look_of_front open_, look_of_front open_]
    | none =>
      cases found : v.first layers a with
      | none => exact look_congr (first_filter (by rw [found]; nofun))
      | some o =>
        cases kept : keep o with
        | true =>
          refine look_congr (first_filter fun o' h => ?_)
          rw [found] at h
          rw [← Option.some.inj h]
          exact kept
        | false => rw [gone open_ o found kept, look_of_first open_ found]

end View

end Mmemu.Library.Layers
