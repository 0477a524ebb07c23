import Mathlib.Logic.Function.Basic
import Mathlib.Data.Nat.Notation

/-!
# Buffers with their bounds

A buffer of a fixed size whose accesses are checked: one outside it is `none`. Programs over them
end in a value or an error of their own, unless an access goes wrong; `Ends` says that none does,
and what holds of the value.
-/
namespace Mmemu.Library.CheckedBuffer

variable {α β ε : Type}

structure Buffer (α : Type) where
  size : ℕ
  item : ℕ → α

namespace Buffer

def new (size : ℕ) (x : α) : Buffer α := ⟨size, fun _ => x⟩

def get (b : Buffer α) (i : ℕ) : Option α := if i < b.size then some (b.item i) else none

def set (b : Buffer α) (i : ℕ) (x : α) : Option (Buffer α) :=
  if i < b.size then some { b with item := Function.update b.item i x } else none

/-- The items from `first` up to `last`. -/
def sub (b : Buffer α) (first last : ℕ) : Option (Buffer α) :=
  if first ≤ last ∧ last ≤ b.size then some ⟨last - first, fun i => b.item (first + i)⟩ else none

def fill (b : Buffer α) (first last : ℕ) (x : α) : Option (Buffer α) :=
  if first ≤ last ∧ last ≤ b.size then
    some { b with item := fun i => if first ≤ i ∧ i < last then x else b.item i }
  else none

/-- The items of `src` from `first` up to `last`, to `off` of the buffer. -/
def copy (src : Buffer α) (first last : ℕ) (b : Buffer α) (off : ℕ) : Option (Buffer α) :=
  if first ≤ last ∧ last ≤ src.size ∧ off + (last - first) ≤ b.size then
    some { b with
      item := fun i => if off ≤ i ∧ i < off + (last - first) then src.item (first + (i - off)) else b.item i }
  else none

variable {b : Buffer α} {i : ℕ} {x : α}

theorem get_of_lt (inside : i < b.size) : b.get i = some (b.item i) := if_pos inside

theorem set_of_lt (inside : i < b.size) :
    b.set i x = some { b with item := Function.update b.item i x } := if_pos inside

end Buffer

/-- A value or an error of the program's own; `none` where an access went wrong. -/
abbrev Checked (ε α : Type) := ExceptT ε Option α

/-- The program ends, and `post` holds of its value if it has one. -/
def Ends (x : Checked ε α) (post : α → Prop) : Prop :=
  ∃ result, x.run = some result ∧ ∀ a, result = .ok a → post a

namespace Ends
variable {x : Checked ε α} {post : α → Prop}

theorem pure {a : α} (h : post a) : Ends (Pure.pure a : Checked ε α) post :=
  ⟨.ok a, rfl, fun _ same => Except.ok.inj same ▸ h⟩

theorem throw {e : ε} : Ends (throwThe ε e : Checked ε α) post := ⟨.error e, rfl, fun _ same => by cases same⟩

theorem lift {o : Option α} {a : α} (some_ : o = some a) (h : post a) :
    Ends (ExceptT.lift o : Checked ε α) post := by
  subst some_
  exact ⟨.ok a, rfl, fun _ same => Except.ok.inj same ▸ h⟩

theorem bind {f : α → Checked ε β} {post' : β → Prop} (first : Ends x post)
    (next : ∀ a, post a → Ends (f a) post') : Ends (x >>= f) post' := by
  obtain ⟨result, run, h⟩ := first
  cases result with
  | error e =>
    refine ⟨.error e, ?_, fun _ same => by cases same⟩
    show (x.run >>= ExceptT.bindCont f) = _
    rw [run]
    rfl
  | ok a =>
    obtain ⟨result', run', h'⟩ := next a (h a rfl)
    refine ⟨result', ?_, h'⟩
    show (x.run >>= ExceptT.bindCont f) = _
    rw [run]
    exact run'

/-- An access inside, and what holds of what it gives. -/
theorem access (post : α → Prop) {o : Option α} {f : α → Checked ε β} {post' : β → Prop}
    (inside : ∃ a, o = some a ∧ post a) (next : ∀ a, post a → Ends (f a) post') :
    Ends (ExceptT.lift o >>= f) post' := by
  obtain ⟨a, some_, h⟩ := inside
  exact .bind (.lift some_ h) next

theorem read {o : Option α} {f : α → Checked ε β} {post' : β → Prop} (inside : ∃ a, o = some a)
    (next : ∀ a, Ends (f a) post') : Ends (ExceptT.lift o >>= f) post' :=
  access (fun _ => True) (inside.imp fun _ some_ => ⟨some_, trivial⟩) fun a _ => next a

theorem mono {post' : α → Prop} (h : Ends x post) (weaker : ∀ a, post a → post' a) : Ends x post' := by
  obtain ⟨result, run, all⟩ := h
  exact ⟨result, run, fun a same => weaker a (all a same)⟩

/-- A loop keeps its invariant. -/
theorem foldlM {f : β → α → Checked ε β} {xs : List α} (inv : β → Prop)
    (keeps : ∀ b a, a ∈ xs → inv b → Ends (f b a) inv) {b : β} (start : inv b) : Ends (xs.foldlM f b) inv := by
  induction xs generalizing b with
  | nil => exact .pure start
  | cons a rest ih =>
    rw [List.foldlM_cons]
    exact .bind (keeps b a (List.mem_cons_self ..) start) fun b' kept =>
      ih (fun b a mem => keeps b a (List.mem_cons_of_mem _ mem)) kept

end Ends

/-- A loop that comes to its end has made each of its steps. -/
theorem step_of_foldlM {f : β → ℕ → Option β} {n k : ℕ} {b b' : β} (ran : (List.range n).foldlM f b = some b')
    (step : k < n) : ∃ b₁ b₂, f b₁ k = some b₂ := by
  induction n generalizing b' with
  | zero => omega
  | succ n ih =>
    rw [List.range_succ, List.foldlM_append] at ran
    obtain ⟨b₁, before, last⟩ := Option.bind_eq_some_iff.mp ran
    obtain earlier | rfl := Nat.lt_succ_iff_lt_or_eq.mp step
    · exact ih before earlier
    · exact ⟨b₁, b', (Option.bind_fun_some _).symm.trans last⟩

/-! ## Pictures

Writes whose places determine what is written: `final j a` says that the picture has `a` at `j`. A
pixel's place is counted row by row. -/

theorem index_inj {w r r' x x' : ℕ} (left : x < w) (left' : x' < w) (same : r * w + x = r' * w + x') :
    r = r' ∧ x = x' := by
  have one := (Nat.div_mod_unique (a := r * w + x) (by omega : 0 < w)).mpr ⟨by rw [Nat.mul_comm, Nat.add_comm], left⟩
  have other := (Nat.div_mod_unique (a := r * w + x) (by omega : 0 < w)).mpr
    ⟨by rw [same, Nat.mul_comm, Nat.add_comm], left'⟩
  exact ⟨one.1.symm.trans other.1, one.2.symm.trans other.2⟩

theorem index_lt {w h r x : ℕ} (top : r < h) (left : x < w) : r * w + x < w * h := by
  have last := Nat.mul_le_mul_right w (by omega : r + 1 ≤ h)
  rw [Nat.add_mul, Nat.one_mul, Nat.mul_comm h] at last
  omega

namespace Buffer

/-- What has been written of the picture, over what was there. -/
structure Shows (final : ℕ → α → Prop) (b₀ : Buffer α) (written : ℕ → Prop) (b : Buffer α) : Prop where
  size : b.size = b₀.size
  drawn : ∀ j a, written j → final j a → b.item j = a
  blank : ∀ j, ¬written j → b.item j = b₀.item j

namespace Shows
variable {final : ℕ → α → Prop} {b₀ b : Buffer α} {written : ℕ → Prop}

theorem start : Shows final b₀ (fun _ => False) b₀ := ⟨rfl, fun _ _ no => no.elim, fun _ _ => rfl⟩

theorem congr {written' : ℕ → Prop} (shows_ : Shows final b₀ written b) (same : ∀ j, written j ↔ written' j) :
    Shows final b₀ written' b := by
  obtain rfl : written = written' := funext fun j => propext (same j)
  exact shows_

theorem set (once : ∀ j a a', final j a → final j a' → a = a') (shows_ : Shows final b₀ written b) {i : ℕ} {x : α}
    (inside : i < b₀.size) (due : final i x) :
    ∃ b', b.set i x = some b' ∧ Shows final b₀ (fun j => written j ∨ j = i) b' := by
  refine ⟨_, set_of_lt (shows_.size.symm ▸ inside), shows_.size, fun j a before is_a => ?_, fun j other => ?_⟩
  · by_cases here : j = i
    · subst here
      exact (Function.update_self ..).trans (once j x a due is_a)
    · rw [← shows_.drawn j a (before.resolve_right here) is_a]
      exact Function.update_of_ne here ..
  · rw [← shows_.blank j fun before => other (.inl before)]
    exact Function.update_of_ne (fun here => other (.inr here)) ..

/-- A loop that draws one part after another. -/
theorem foldlM {f : Buffer α → ℕ → Option (Buffer α)} {n : ℕ} (part : ℕ → ℕ → Prop)
    (draws : ∀ k < n, ∀ written b, Shows final b₀ written b →
      ∃ b', f b k = some b' ∧ Shows final b₀ (fun j => written j ∨ part k j) b')
    (shows_ : Shows final b₀ written b) :
    ∃ b', (List.range n).foldlM f b = some b' ∧ Shows final b₀ (fun j => written j ∨ ∃ k < n, part k j) b' := by
  induction n with
  | zero =>
    refine ⟨b, rfl, shows_.congr fun j => ?_⟩
    simp only [Nat.not_lt_zero, false_and, exists_false, or_false]
  | succ n ih =>
    obtain ⟨b₁, ran, shows₁⟩ := ih fun k below => draws k (by omega)
    obtain ⟨b₂, last, shows₂⟩ := draws n (by omega) _ _ shows₁
    refine ⟨b₂, ?_, shows₂.congr fun j => ?_⟩
    · rw [List.range_succ, List.foldlM_append, ran]
      exact (Option.bind_fun_some _).trans last
    · simp only [Nat.lt_succ_iff_lt_or_eq, or_and_right, exists_or, exists_eq_left, or_assoc]

end Shows
end Buffer
end Mmemu.Library.CheckedBuffer
