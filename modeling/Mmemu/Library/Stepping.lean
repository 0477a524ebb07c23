import Mathlib.Data.BitVec
import Mathlib.Order.Defs.Unbundled
import Mathlib.Data.Set.Basic

/-!
# Cores that are stepped and may be stopped

A step of a core returns the number of cycles that everything else is to be advanced by, and
the core has a counter of its own. An observer may refuse the instruction of a step, which then
should be as if it had not been made.
-/
namespace Mmemu.Library.Stepping

/-- A core as a debugger sees it. -/
structure Core (σ ρ : Type) where
  /-- What a step from a state may return, and the state it leaves. -/
  steps : σ → ℕ → σ → Prop
  functional : ∀ {c n c' m c''}, steps c n c' → steps c m c'' → n = m ∧ c' = c''
  refused : σ → Prop
  regs : σ → ρ
  cycles : σ → BitVec 64
  /-- Memory is as it was. -/
  memory : σ → σ → Prop

namespace Core
variable {σ ρ : Type} (k : Core σ ρ)

/-- The cycles that a step returns are those its counter gains. -/
def TimeAddsUp (c : σ) : Prop :=
  ∀ n c', k.steps c n c' → k.cycles c' = k.cycles c + BitVec.ofNat 64 n

/-- A refused step leaves registers and memory as they were. -/
def StopInvisible (c : σ) : Prop :=
  k.refused c → ∀ n c', k.steps c n c' → k.regs c' = k.regs c ∧ k.memory c c'

variable {k} {c : σ}

variable (k c) in
/-- A step returns a cycle that it has not counted. -/
def Uncounted : Prop := ∃ c', k.steps c 1 c' ∧ k.cycles c' = k.cycles c

theorem Uncounted.not_timeAddsUp (h : k.Uncounted c) : ¬ k.TimeAddsUp c := by
  obtain ⟨c', stepped, same⟩ := h
  intro adds
  have gained : k.cycles c = k.cycles c + 1#64 := same.symm.trans (adds 1 c' stepped)
  simp at gained

/-- Where the steps that go wrong do not count their cycle, the others are the condition. -/
theorem timeAddsUp_iff {wrong : Prop} (counted : ¬ wrong → k.TimeAddsUp c)
    (uncounted : wrong → k.Uncounted c) : k.TimeAddsUp c ↔ ¬ wrong := by
  constructor
  · intro adds h
    exact (uncounted h).not_timeAddsUp adds
  · exact counted

/-- Where a refused step leaves the registers that `f` makes of them, and memory as it was, it
is invisible if that is no change. -/
theorem stopInvisible_iff (f : ρ → ρ)
    (left : k.refused c → ∃ n c', k.steps c n c' ∧ k.regs c' = f (k.regs c) ∧ k.memory c c') :
    k.StopInvisible c ↔ (k.refused c → f (k.regs c) = k.regs c) := by
  constructor
  · intro invisible refused
    obtain ⟨n, c', stepped, regs, -⟩ := left refused
    rw [← regs]
    exact (invisible refused n c' stepped).1
  · intro same refused n c' stepped
    obtain ⟨m, c'', stepped', regs, memory⟩ := left refused
    obtain ⟨-, rfl⟩ := k.functional stepped stepped'
    exact ⟨regs.trans (same refused), memory⟩

end Core
end Mmemu.Library.Stepping

/-!
# Frames of state computations

`Keeps r x`: every run of the state computation `x` ends in a state that `r` relates
to the one it started in. With `r` a preorder this is closed under sequencing, so it is
shown of a program from what its primitive steps do.
-/
namespace Mmemu.Library.StateFrame

variable {σ α β : Type} {r : σ → σ → Prop}

/-! ## Running a computation -/

theorem bind_apply (x : StateM σ α) (f : α → StateM σ β) (s : σ) :
    (x >>= f) s = f (x s).1 (x s).2 := rfl

theorem get_apply (s : σ) : (MonadState.get : StateM σ σ) s = (s, s) := rfl

theorem pure_apply (a : α) (s : σ) : (Pure.pure a : StateM σ α) s = (a, s) := rfl

/-! ## Frames -/

def Keeps (r : σ → σ → Prop) (x : StateM σ α) : Prop :=
  ∀ s, r s (x s).2

section Rules
variable [IsPreorder σ r]

theorem Keeps.pure (a : α) : Keeps r (Pure.pure a : StateM σ α) := fun s => refl s

theorem Keeps.get : Keeps r (MonadState.get : StateM σ σ) := fun s => refl s

theorem Keeps.bind {x : StateM σ α} {f : α → StateM σ β} (first : Keeps r x)
    (next : ∀ a, Keeps r (f a)) : Keeps r (x >>= f) := fun s =>
  IsTrans.trans _ _ _ (first s) (next (x s).1 (x s).2)

omit [IsPreorder σ r] in
/-- Two computations with different frames, one after the other. -/
theorem Keeps.seq {q t : σ → σ → Prop} {x : StateM σ α} {f : α → StateM σ β}
    (compose : ∀ s s' s'', r s s' → q s' s'' → t s s'') (first : Keeps r x)
    (next : ∀ a, Keeps q (f a)) : Keeps t (x >>= f) := fun s =>
  compose _ _ _ (first s) (next (x s).1 (x s).2)

omit [IsPreorder σ r] in
theorem Keeps.ite {c : Prop} [Decidable c] {x y : StateM σ α} (yes : Keeps r x)
    (no : Keeps r y) : Keeps r (if c then x else y) := by
  split
  · exact yes
  · exact no

omit [IsPreorder σ r] in
theorem Keeps.modify {f : σ → σ} (h : ∀ s, r s (f s)) : Keeps r (modifyGet fun s => (PUnit.unit, f s)) := h

omit [IsPreorder σ r] in
theorem Keeps.mono {q : σ → σ → Prop} {x : StateM σ α} (weaker : ∀ s s', r s s' → q s s')
    (h : Keeps r x) : Keeps q x := fun s => weaker _ _ (h s)

end Rules

end Mmemu.Library.StateFrame
