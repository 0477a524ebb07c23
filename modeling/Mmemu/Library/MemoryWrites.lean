import Mathlib.Data.Set.Function
import Mathlib.Logic.Function.Iterate
import Mathlib.Data.List.Basic
import Mathlib.Data.Nat.Notation
import Mathlib.Data.Option.Basic
import Mathlib.Logic.Basic

/-!
# Copying byte by byte

A copy stores one byte after the other and reads each only when it is its turn, so where the
ranges overlap it sees what it has stored before. Some addresses keep what they hold.
-/
namespace Mmemu.Library.Copying

variable {α β : Type*} [DecidableEq α]

/-- What a store leaves, where some addresses are fixed. -/
def store (fixed : α → Bool) (mem : α → β) (a : α) (v : β) : α → β :=
  if fixed a then mem else Function.update mem a v

/-- Memory after so many bytes from `src` are copied to `dst`, each at the next address. -/
def copied (fixed : α → Bool) (next : α → α) : ℕ → α → α → (α → β) → α → β
  | 0, _, _, mem => mem
  | n + 1, src, dst, mem =>
    copied fixed next n (next src) (next dst) (store fixed mem dst (mem src))

variable {fixed : α → Bool} {next : α → α} {mem mem' : α → β}

/-- The last byte comes after all the others. -/
theorem copied_succ (n : ℕ) (src dst : α) (mem : α → β) :
    copied fixed next (n + 1) src dst mem =
      store fixed (copied fixed next n src dst mem) (next^[n] dst)
        (copied fixed next n src dst mem (next^[n] src)) := by
  induction n generalizing src dst mem with
  | zero => rfl
  | succ n ih =>
    rw [copied, ih]
    rfl

theorem store_of_ne {a x : α} (v : β) (kept : x = a → fixed a = true) :
    store fixed mem a v x = mem x := by
  unfold store
  cases holds : fixed a with
  | true => simp
  | false =>
    have apart : x ≠ a := by
      intro same
      simp [kept same] at holds
    simp [apart]

theorem store_comm {a b : α} {v w : β} (apart : ¬a = b) :
    store fixed (store fixed mem a v) b w = store fixed (store fixed mem b w) a v := by
  unfold store
  split <;> split <;> simp [Function.update_comm apart]

/-- An address that no byte is stored at keeps its own. -/
theorem copied_of_ne {x : α} (n : ℕ) {src dst : α} (mem : α → β)
    (kept : ∀ k < n, x = next^[k] dst → fixed (next^[k] dst) = true) :
    copied fixed next n src dst mem x = mem x := by
  induction n with
  | zero => rfl
  | succ n ih =>
    rw [copied_succ, store_of_ne _ (kept n (by omega))]
    exact ih fun k few => kept k (by omega)

/-- Memories that agree on a set agree on it after the same store. -/
theorem eqOn_store {s : Set α} (agree : Set.EqOn mem mem' s) (a : α) (v : β) :
    Set.EqOn (store fixed mem a v) (store fixed mem' a v) s := by
  intro x inside
  unfold store
  split
  · exact agree inside
  · by_cases same : x = a
    · simp [same]
    · simp [same, agree inside]

end Mmemu.Library.Copying

/-!
# Ranges of a buffer

Reading a range of a buffer and copying over one. A copy changes its own range only, and
the buffer keeps its length as long as the range lies inside.
-/
namespace Mmemu.Library.Splice

variable {α : Type}

def slice (data : List α) (off len : ℕ) : List α := (data.drop off).take len

/-- `src` over what is at `off`. -/
def splice (data : List α) (off : ℕ) (src : List α) : List α :=
  data.take off ++ src ++ data.drop (off + src.length)

theorem length_slice {data : List α} {off len : ℕ} (inside : off + len ≤ data.length) :
    (slice data off len).length = len := by
  rw [slice, List.length_take, List.length_drop]
  omega

theorem length_splice {data src : List α} {off : ℕ} (inside : off + src.length ≤ data.length) :
    (splice data off src).length = data.length := by
  rw [splice, List.length_append, List.length_append, List.length_take, List.length_drop]
  omega

theorem length_le_splice {data src : List α} {off : ℕ} (start : off ≤ data.length) :
    data.length ≤ (splice data off src).length := by
  rw [splice, List.length_append, List.length_append, List.length_take, List.length_drop]
  omega

/-- Outside of its range a copy changes nothing, also where it goes past the end. -/
theorem getElem?_splice_of_le {data src : List α} {off i : ℕ} (start : off ≤ data.length)
    (apart : i < off ∨ off + src.length ≤ i) : (splice data off src)[i]? = data[i]? := by
  have before : (data.take off).length = off := List.length_take_of_le start
  rcases apart with below | above
  · rw [splice, List.append_assoc, List.getElem?_append_left (by omega), List.getElem?_take_of_lt below]
  · rw [splice, List.getElem?_append_right (by rw [List.length_append]; omega), List.length_append,
      before, List.getElem?_drop]
    congr 1
    omega

theorem slice_splice_of_le {data src : List α} {off : ℕ} (start : off ≤ data.length) :
    slice (splice data off src) off src.length = src := by
  have before : (data.take off).length = off := List.length_take_of_le start
  rw [slice, splice, List.append_assoc, List.drop_left' before, List.take_left]

theorem slice_splice {data src : List α} {off : ℕ} (inside : off + src.length ≤ data.length) :
    slice (splice data off src) off src.length = src :=
  slice_splice_of_le (by omega)

theorem slice_splice_apart_of_le {data src : List α} {off off' len : ℕ} (start : off ≤ data.length)
    (apart : off' + len ≤ off ∨ off + src.length ≤ off') :
    slice (splice data off src) off' len = slice data off' len := by
  apply List.ext_getElem?
  intro i
  rw [slice, slice, List.getElem?_take, List.getElem?_take]
  split
  · rw [List.getElem?_drop, List.getElem?_drop]
    exact getElem?_splice_of_le start (by omega)
  · rfl

theorem slice_splice_apart {data src : List α} {off off' len : ℕ}
    (inside : off + src.length ≤ data.length) (apart : off' + len ≤ off ∨ off + src.length ≤ off') :
    slice (splice data off src) off' len = slice data off' len :=
  slice_splice_apart_of_le (by omega) apart

end Mmemu.Library.Splice

/-!
# Settings given more than once

A list of directives is applied one after the other. A directive may give a
value for a setting, and a later value takes the place of an earlier one. What
the whole list does to a setting is then decided by the last value it gives.
-/
namespace Mmemu.Library.LastWins

variable {ξ σ α β γ : Type*}

/-- The last value the list gives; `f` reads a directive. -/
def lastGiven (f : ξ → Option β) : List ξ → Option β
  | [] => none
  | x :: rest => (lastGiven f rest).or (f x)

/-- A setting after a value was given, or left alone. -/
def settle (set : α → β → α) (a : α) : Option β → α
  | none => a
  | some v => set a v

@[simp] theorem settle_none (set : α → β → α) (a : α) : settle set a none = a := rfl

@[simp] theorem settle_some (set : α → β → α) (a : α) (v : β) : settle set a (some v) = set a v := rfl

/-- A later value takes the place of an earlier one. -/
def Replaces (set : α → β → α) : Prop := ∀ a v v', set (set a v) v' = set a v'

/-- Two parts of a setting are set independently. -/
def Independent (set : α → β → α) (set' : α → γ → α) : Prop :=
  ∀ a v w, set' (set a v) w = set (set' a w) v

theorem settle_settle {set : α → β → α} (replaces : Replaces set) (a : α) (o o' : Option β) :
    settle set (settle set a o) o' = settle set a (o'.or o) := by
  cases o' with
  | none => rfl
  | some v' =>
    cases o with
    | none => rfl
    | some v => exact replaces a v v'

theorem settle_comm {set : α → β → α} {set' : α → γ → α} (independent : Independent set set')
    (a : α) (o : Option β) (o' : Option γ) :
    settle set' (settle set a o) o' = settle set (settle set' a o') o := by
  cases o with
  | none => rfl
  | some v =>
    cases o' with
    | none => rfl
    | some w => exact independent a v w

/-- A setting that each directive settles is settled by the last value given. -/
theorem foldl_settle {set : α → β → α} (replaces : Replaces set) {step : σ → ξ → σ} {o : σ → α}
    {f : ξ → Option β} (each : ∀ s x, o (step s x) = settle set (o s) (f x)) (s : σ)
    (xs : List ξ) : o (xs.foldl step s) = settle set (o s) (lastGiven f xs) := by
  induction xs generalizing s with
  | nil => rfl
  | cons x rest ih =>
    rw [List.foldl_cons, ih, each, settle_settle replaces]
    rfl

/-- The same for a setting of two independent parts. -/
theorem foldl_settle₂ {set : α → β → α} {set' : α → γ → α} (replaces : Replaces set)
    (replaces' : Replaces set') (independent : Independent set set') {step : σ → ξ → σ}
    {o : σ → α} {f : ξ → Option β} {g : ξ → Option γ}
    (each : ∀ s x, o (step s x) = settle set' (settle set (o s) (f x)) (g x)) (s : σ)
    (xs : List ξ) :
    o (xs.foldl step s) =
      settle set' (settle set (o s) (lastGiven f xs)) (lastGiven g xs) := by
  induction xs generalizing s with
  | nil => rfl
  | cons x rest ih =>
    rw [List.foldl_cons, ih, each, ← settle_comm independent, settle_settle replaces,
      settle_settle replaces']
    rfl

end Mmemu.Library.LastWins

/-!
# Write-back

A state may hold writes that are still to be done; `settle` does them. States are alike
when they settle to the same state. A machine whose operations take alike states to alike
states answers as one that settles behind every operation.
-/
namespace Mmemu.Library.WriteBack

/-- How the held writes of a state are done, and what is true of every state. -/
structure Deferral (σ : Type*) where
  settle : σ → σ
  Inv : σ → Prop
  settle_settle : ∀ s, Inv s → settle (settle s) = settle s
  inv_settle : ∀ s, Inv s → Inv (settle s)

variable {σ α ρ : Type*} (d : Deferral σ)

/-- Valid states that differ only in what they hold back. -/
structure Deferral.Alike (s t : σ) : Prop where
  left : d.Inv s
  right : d.Inv t
  settled : d.settle s = d.settle t

/-- `g` may be done before settling or behind it. -/
structure Deferral.Commutes (g : σ → σ) (s : σ) : Prop where
  inv : d.Inv (g s)
  settled : d.settle (g s) = d.settle (g (d.settle s))

variable {d}

namespace Deferral

theorem Alike.refl {s : σ} (inv : d.Inv s) : d.Alike s s := ⟨inv, inv, rfl⟩

theorem Alike.settle_right {s t : σ} (h : d.Alike s t) : d.Alike s (d.settle t) :=
  ⟨h.left, d.inv_settle t h.right, h.settled.trans (d.settle_settle t h.right).symm⟩

theorem Alike.map {g : σ → σ} {s t : σ} (h : d.Alike s t) (left : d.Commutes g s)
    (right : d.Commutes g t) : d.Alike (g s) (g t) where
  left := left.inv
  right := right.inv
  settled := by rw [left.settled, h.settled, ← right.settled]

/-- A function that settling does not disturb may be done before it. -/
theorem Commutes.of_eq {g : σ → σ} {s : σ} (inv : d.Inv s) (kept : d.Inv (g s))
    (eq : g (d.settle s) = d.settle (g s)) : d.Commutes g s where
  inv := kept
  settled := by rw [eq, d.settle_settle _ kept]

end Deferral

/-! ## Runs -/

/-- The state behind a list of operations, and their answers. -/
def run (step : σ → α → σ × ρ) : σ → List α → σ × List ρ
  | s, [] => (s, [])
  | s, a :: rest =>
    let next := step s a
    let (last, answers) := run step next.1 rest
    (last, next.2 :: answers)

/-- A step that settles at once. -/
def Deferral.through (d : Deferral σ) (step : σ → α → σ × ρ) (s : σ) (a : α) : σ × ρ :=
  (d.settle (step s a).1, (step s a).2)

/-- Operations for which held writes make no difference. -/
structure Deferral.Blind (d : Deferral σ) (step : σ → α → σ × ρ) : Prop where
  alike : ∀ {s t} a, d.Alike s t → d.Alike (step s a).1 (step t a).1
  answer : ∀ {s t} a, d.Alike s t → (step s a).2 = (step t a).2

variable {step : σ → α → σ × ρ}

theorem Deferral.Blind.run_alike (h : d.Blind step) {s t : σ} (alike : d.Alike s t) (as : List α) :
    d.Alike (run step s as).1 (run (d.through step) t as).1 ∧
      (run step s as).2 = (run (d.through step) t as).2 := by
  induction as generalizing s t with
  | nil => exact ⟨alike, rfl⟩
  | cons a rest ih =>
    obtain ⟨state, answers⟩ := ih (h.alike a alike).settle_right
    refine ⟨state, ?_⟩
    simp only [run]
    rw [answers]
    exact congrArg (· :: _) (h.answer a alike)

end Mmemu.Library.WriteBack
