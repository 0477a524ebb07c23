import Mathlib.Data.List.Basic

/-!
# Records read off the front of a stream

A reader takes a value off the front of a list and leaves the rest. Readers that
undo their writers on whatever follows can be put one after the other, and what
holds of each record read holds of the whole.
-/
namespace Mmemu.Library.Framing

universe u

variable {α β : Type u} {σ ω : Type*}

/-- The reader takes these items for the value, whatever follows them. -/
def Reads (read : List β → Option (α × List β)) (items : List β) (a : α) : Prop :=
  ∀ rest, read (items ++ rest) = some (a, rest)

/-- The first items, when there are as many. -/
def take (n : ℕ) (items : List β) : Option (List β × List β) :=
  if items.length < n then none else some (items.take n, items.drop n)

theorem reads_take (items : List β) : Reads (take items.length) items items := by
  intro rest
  simp [take]

theorem length_of_take {n : ℕ} {items got rest : List β} (h : take n items = some (got, rest)) :
    got.length = n := by
  unfold take at h
  split at h
  · cases h
  · cases h
    rw [List.length_take]
    omega

/-! ## A record for each of a list -/

def readEach (read : σ → List β → Option (α × List β)) : List σ → List β → Option (List α × List β)
  | [], items => some ([], items)
  | seed :: seeds, items => do
    let (a, items) ← read seed items
    let (as, items) ← readEach read seeds items
    return (a :: as, items)

theorem readEach_flatMap {read : σ → List β → Option (α × List β)} (seed : ω → σ)
    {write : ω → List β} {value : ω → α} (xs : List ω)
    (each : ∀ x ∈ xs, Reads (read (seed x)) (write x) (value x)) :
    Reads (readEach read (xs.map seed)) (xs.flatMap write) (xs.map value) := by
  induction xs with
  | nil => exact fun rest => rfl
  | cons x xs ih =>
    intro rest
    have here := each x (List.mem_cons_self ..) (xs.flatMap write ++ rest)
    have later := ih (fun y mem => each y (List.mem_cons_of_mem x mem)) rest
    simp [readEach, here, later]

/-- A value for each, and of each what the reader says of its values. -/
theorem of_readEach {read : σ → List β → Option (α × List β)} {P : σ → α → Prop}
    (each : ∀ seed items a rest, read seed items = some (a, rest) → P seed a) {seeds : List σ}
    {items rest : List β} {as : List α} (h : readEach read seeds items = some (as, rest)) :
    as.length = seeds.length ∧ ∀ a ∈ as, ∃ seed ∈ seeds, P seed a := by
  induction seeds generalizing items as with
  | nil =>
    cases h
    exact ⟨rfl, fun a mem => absurd mem List.not_mem_nil⟩
  | cons seed seeds ih =>
    obtain ⟨⟨a, items₁⟩, first, h⟩ := Option.bind_eq_some_iff.mp h
    obtain ⟨⟨as₁, items₂⟩, others, h⟩ := Option.bind_eq_some_iff.mp h
    cases h
    obtain ⟨length, all⟩ := ih others
    refine ⟨congrArg Nat.succ length, List.forall_mem_cons.mpr ⟨?_, ?_⟩⟩
    · exact ⟨seed, List.mem_cons_self .., each _ _ _ _ first⟩
    · intro b mem
      obtain ⟨s, here, holds⟩ := all b mem
      exact ⟨s, List.mem_cons_of_mem seed here, holds⟩

/-! ## Records up to the end -/

/-- At most `fuel` records. -/
def readAll (read : List β → Option (α × List β)) : ℕ → List β → Option (List α)
  | _, [] => some []
  | 0, _ :: _ => none
  | fuel + 1, item :: items => do
    let (a, rest) ← read (item :: items)
    let as ← readAll read fuel rest
    return a :: as

theorem readAll_flatMap {read : List β → Option (α × List β)} {write : ω → List β} {value : ω → α}
    (xs : List ω) (each : ∀ x ∈ xs, Reads read (write x) (value x))
    (some_ : ∀ x ∈ xs, write x ≠ []) {fuel : ℕ} (enough : xs.length ≤ fuel) :
    readAll read fuel (xs.flatMap write) = some (xs.map value) := by
  induction xs generalizing fuel with
  | nil => cases fuel <;> rfl
  | cons x xs ih =>
    cases fuel with
    | zero => cases enough
    | succ fuel =>
      have here := each x (List.mem_cons_self ..) (xs.flatMap write)
      have later := ih (fun y mem => each y (List.mem_cons_of_mem x mem))
        (fun y mem => some_ y (List.mem_cons_of_mem x mem)) (Nat.le_of_succ_le_succ enough)
      obtain ⟨item, items, shape⟩ := List.exists_cons_of_ne_nil (some_ x (List.mem_cons_self ..))
      rw [shape, List.cons_append] at here
      rw [List.flatMap_cons, shape, List.cons_append]
      simp [readAll, here, later]

theorem forall_of_readAll {read : List β → Option (α × List β)} {P : α → Prop}
    (each : ∀ items a rest, read items = some (a, rest) → P a) {fuel : ℕ} {items : List β}
    {as : List α} (h : readAll read fuel items = some as) : ∀ a ∈ as, P a := by
  induction fuel generalizing items as with
  | zero =>
    cases items with
    | nil =>
      cases h
      exact fun a mem => absurd mem List.not_mem_nil
    | cons item items => cases h
  | succ fuel ih =>
    cases items with
    | nil =>
      cases h
      exact fun a mem => absurd mem List.not_mem_nil
    | cons item items =>
      obtain ⟨⟨a, rest⟩, first, h⟩ := Option.bind_eq_some_iff.mp h
      obtain ⟨as₁, others, h⟩ := Option.bind_eq_some_iff.mp h
      cases h
      exact List.forall_mem_cons.mpr ⟨each _ _ _ first, ih others⟩

/-- Every record takes an item at least, so as many records as items are enough. -/
theorem length_le_length_flatMap {write : ω → List β} (xs : List ω)
    (some_ : ∀ x ∈ xs, write x ≠ []) : xs.length ≤ (xs.flatMap write).length := by
  induction xs with
  | nil => exact Nat.le_refl 0
  | cons x xs ih =>
    have later := ih fun y mem => some_ y (List.mem_cons_of_mem x mem)
    have first := List.length_pos_iff.mpr (some_ x (List.mem_cons_self ..))
    rw [List.flatMap_cons, List.length_append, List.length_cons]
    omega

end Mmemu.Library.Framing
