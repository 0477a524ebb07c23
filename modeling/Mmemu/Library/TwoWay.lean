import Mathlib.Logic.Function.Basic
import Mathlib.Data.Option.Basic

/-!
# A table kept in two directions

Two partial tables, one for each direction of a relation, that are updated one after the
other. An entry of the first is good when the second leads back from it. Writing a pair
into both tables makes that pair good; what it can spoil is an entry of another key
that led to the same place.
-/
namespace Mmemu.Library.TwoWay

variable {α β : Type*}

/-- From where the first table leads, the second leads back. -/
def Inverts (f : α → Option β) (g : β → Option α) : Prop := ∀ x y, f x = some y → g y = some x

/-- Where the second table leads, the first has an entry. -/
def Covers (f : α → Option β) (g : β → Option α) : Prop := ∀ y x, g y = some x → (f x).isSome

/-- No other key leads to `y`. -/
def Sole (f : α → Option β) (x : α) (y : β) : Prop := ∀ x', x' ≠ x → f x' ≠ some y

theorem inverts_empty : Inverts (fun _ : α => (none : Option β)) fun _ => none := by
  intro x y found
  cases found

theorem covers_empty : Covers (fun _ : α => (none : Option β)) fun _ => none := by
  intro y x found
  cases found

variable [DecidableEq α] [DecidableEq β] {f : α → Option β} {g : β → Option α}

/-- A pair written into both tables. -/
theorem Inverts.update_iff (inverts : Inverts f g) (x : α) (y : β) :
    Inverts (Function.update f x (some y)) (Function.update g y (some x)) ↔ Sole f x y := by
  constructor
  · intro kept x' other found
    have back := kept x' y (by simp [other, found])
    simp only [Function.update_self, Option.some.injEq] at back
    exact other back.symm
  · intro sole x' y' found
    by_cases same : x' = x
    · subst same
      simp only [Function.update_self, Option.some.injEq] at found
      simp [found]
    · simp only [Function.update_of_ne same] at found
      have apart : y' ≠ y := by
        intro shared
        subst shared
        exact sole x' same found
      simp [apart, inverts x' y' found]

/-- A pair written into the second table only. -/
theorem Inverts.update_back_iff (inverts : Inverts f g) (x : α) (y : β) :
    Inverts f (Function.update g y (some x)) ↔ Sole f x y := by
  constructor
  · intro kept x' other found
    have back := kept x' y found
    simp only [Function.update_self, Option.some.injEq] at back
    exact other back.symm
  · intro sole x' y' found
    by_cases shared : y' = y
    · subst shared
      by_cases same : x' = x
      · simp [same]
      · exact absurd found (sole x' same)
    · simp [shared, inverts x' y' found]

/-- A name taken out of the second table together with the entry it led to. -/
theorem Inverts.erase (inverts : Inverts f g) {x : α} {y : β} (found : g y = some x) :
    Inverts (Function.update f x none) (Function.update g y none) := by
  intro x' y' found'
  by_cases same : x' = x
  · simp [same] at found'
  · simp only [Function.update_of_ne same] at found'
    have back := inverts x' y' found'
    have apart : y' ≠ y := by
      intro shared
      subst shared
      rw [found, Option.some.injEq] at back
      exact same back.symm
    simp [apart, back]

theorem Covers.update (covers : Covers f g) (x : α) (y : β) :
    Covers (Function.update f x (some y)) (Function.update g y (some x)) := by
  intro y' x' found
  by_cases same : x' = x
  · simp [same]
  · have apart : y' ≠ y := by
      intro shared
      subst shared
      simp only [Function.update_self, Option.some.injEq] at found
      exact same found.symm
    simp only [Function.update_of_ne apart] at found
    simp [same, covers y' x' found]

/-- Taking a name out with its entry leaves another name of that entry without one. -/
theorem Covers.erase_iff (covers : Covers f g) (x : α) (y : β) :
    Covers (Function.update f x none) (Function.update g y none) ↔ Sole g y x := by
  constructor
  · intro kept y' other found
    have lost := kept y' x (by simp [other, found])
    simp at lost
  · intro sole y' x' found
    have other : y' ≠ y := by
      intro shared
      simp [shared] at found
    simp only [Function.update_of_ne other] at found
    have apart : x' ≠ x := by
      intro same
      subst same
      exact sole y' other found
    simp [apart, covers y' x' found]

end Mmemu.Library.TwoWay
