import Mathlib.Order.Basic
import Mathlib.Data.Sum.Basic
import Mathlib.Algebra.GroupWithZero.Nat
import Mathlib.Data.Nat.Basic

/-!
# What a schedule leads to

A system takes steps as a schedule gives them, for ever. It leads to a goal when
every schedule reaches it at some step: at once, after a step that does, or by
coming nearer to it with every step. It does not when an invariant keeps it away.
-/
namespace Mmemu.Library.Schedules

variable {σ ι : Type*} (step : σ → ι → σ) (ok : ι → Prop)

/-- The state after some steps of a schedule. -/
def after (s : σ) (schedule : ℕ → ι) : ℕ → σ
  | 0 => s
  | n + 1 => step (after s schedule n) (schedule n)

/-- Every schedule of allowed steps comes to the goal. -/
def LeadsTo (s : σ) (goal : σ → Prop) : Prop :=
  ∀ schedule : ℕ → ι, (∀ n, ok (schedule n)) → ∃ n, goal (after step s schedule n)

variable {step ok} {s : σ} {goal : σ → Prop}

theorem after_succ (s : σ) (schedule : ℕ → ι) (n : ℕ) :
    after step s schedule (n + 1) = after step (step s (schedule 0)) (fun k => schedule (k + 1)) n := by
  induction n with
  | zero => rfl
  | succ n ih => exact congrArg (step · (schedule (n + 1))) ih

theorem LeadsTo.now (h : goal s) : LeadsTo step ok s goal := fun _ _ => ⟨0, h⟩

theorem LeadsTo.next (h : ∀ i, ok i → LeadsTo step ok (step s i) goal) : LeadsTo step ok s goal := by
  intro schedule allowed
  obtain ⟨n, reached⟩ := h (schedule 0) (allowed 0) _ fun k => allowed (k + 1)
  exact ⟨n + 1, by rwa [after_succ]⟩

/-- Steps that keep an invariant and make a variant smaller lead to where they no
longer can. -/
theorem LeadsTo.of_variant (inv : σ → Prop) (variant : σ → ℕ)
    (nearer : ∀ s i, inv s → ok i → LeadsTo step ok (step s i) goal ∨
      inv (step s i) ∧ variant (step s i) < variant s) (h : inv s) : LeadsTo step ok s goal := by
  induction measure : variant s using Nat.strongRecOn generalizing s with
  | ind n ih =>
    refine LeadsTo.next fun i allowed => ?_
    rcases nearer s i h allowed with there | ⟨kept, less⟩
    · exact there
    · exact ih _ (measure ▸ less) kept rfl

theorem not_leadsTo (inv : σ → Prop) (i : ι) (allowed : ok i)
    (keeps : ∀ s, inv s → inv (step s i)) (away : ∀ s, inv s → ¬ goal s) (h : inv s) :
    ¬ LeadsTo step ok s goal := by
  intro leads
  obtain ⟨n, reached⟩ := leads (fun _ => i) fun _ => allowed
  have held : inv (after step s (fun _ => i) n) := by
    clear reached
    induction n with
    | zero => exact h
    | succ n ih => exact keeps _ ih
  exact away _ held reached

end Mmemu.Library.Schedules

/-!
# Probes that leave no trace

A machine answers each step; a probe answers too, out of the same state. A probe
that leaves the state alone may stand anywhere in a run: the other answers and
the state at the end are those of the run without it.
-/
namespace Mmemu.Library.SilentProbe

variable {σ ε π ο : Type*} (step : σ → ε → ο × σ) (probe : σ → π → ο × σ)

/-- The answers of a run, and the state it ends in. -/
def run : σ → List ε → List ο × σ
  | s, [] => ([], s)
  | s, e :: rest =>
    let (answer, s) := step s e
    let (answers, s) := run s rest
    (answer :: answers, s)

/-- A run with probes in it; only the steps' answers are kept. -/
def runProbed : σ → List (ε ⊕ π) → List ο × σ
  | s, [] => ([], s)
  | s, .inl e :: rest =>
    let (answer, s) := step s e
    let (answers, s) := runProbed s rest
    (answer :: answers, s)
  | s, .inr p :: rest => runProbed (probe s p).2 rest

/-- The steps of a run without its probes. -/
def steps (events : List (ε ⊕ π)) : List ε := events.filterMap Sum.getLeft?

variable {step probe}

theorem runProbed_eq_run (silent : ∀ s p, (probe s p).2 = s) (s : σ) (events : List (ε ⊕ π)) :
    runProbed step probe s events = run step s (steps events) := by
  induction events generalizing s with
  | nil => rfl
  | cons event rest ih =>
    cases event with
    | inl e => simp only [runProbed, ih, steps, List.filterMap_cons, Sum.getLeft?_inl, run]
    | inr p =>
      rw [runProbed, silent, ih]
      rfl

end Mmemu.Library.SilentProbe

/-!
# Time slicing

A clocked device is advanced by a number of cycles at a time. This module says
what it means that only the total counts (`SlicesAt`), lifts the two-slice law
to any sequence of slices, and collects the facts about conditional events that
such proofs use: an event raised once or twice, in either order, is the same.
-/
namespace Mmemu.Library.TimeSlicing

section Slices

variable {σ : Type*} (tick : σ → ℕ → σ)

/-- Splitting a step of `a + b` cycles into `a` and then `b` changes nothing. -/
def SlicesAt (s : σ) (a b : ℕ) : Prop := tick (tick s a) b = tick s (a + b)

end Slices

section Events

variable {ι : Type*}

/-- Apply an event when its condition holds. -/
def raiseWhen (c : Bool) (event : ι → ι) (i : ι) : ι := if c then event i else i

@[simp] theorem raiseWhen_false (event : ι → ι) (i : ι) : raiseWhen false event i = i := rfl

@[simp] theorem raiseWhen_true (event : ι → ι) (i : ι) : raiseWhen true event i = event i := rfl

/-- An idempotent event raised in either of two slices is raised once. -/
theorem raiseWhen_or {event : ι → ι} (idem : ∀ i, event (event i) = event i) (c d : Bool) (i : ι) :
    raiseWhen d event (raiseWhen c event i) = raiseWhen (c || d) event i := by
  cases c <;> cases d <;> simp [idem]

theorem raiseWhen_comm {f g : ι → ι} (comm : ∀ i, f (g i) = g (f i)) (c d : Bool) (i : ι) :
    raiseWhen c f (raiseWhen d g i) = raiseWhen d g (raiseWhen c f i) := by
  cases c <;> cases d <;> simp [comm]

end Events

end Mmemu.Library.TimeSlicing

/-!
# Countdown with reload

A counter that goes down one per cycle and, on reaching zero, starts again from
a reload value. Closed forms for how often it reaches zero in a number of
cycles and for what is left of it.
-/
namespace Mmemu.Library.Countdown

/-- How often the counter reaches zero. A counter that already stands at zero
reaches it with the first cycle, without consuming it. -/
def underflows (reload counter elapsed : ℕ) : ℕ :=
  if elapsed = 0 ∨ elapsed < counter then 0 else (elapsed - counter) / reload + 1

/-- What the counter holds afterwards. -/
def remaining (reload counter elapsed : ℕ) : ℕ :=
  if elapsed = 0 ∨ elapsed < counter then counter - elapsed
  else reload - (elapsed - counter) % reload

variable {reload counter elapsed : ℕ}

theorem underflows_quiet (h : elapsed = 0 ∨ elapsed < counter) :
    underflows reload counter elapsed = 0 := if_pos h

theorem remaining_quiet (h : elapsed = 0 ∨ elapsed < counter) :
    remaining reload counter elapsed = counter - elapsed := if_pos h

/-- The first time it reaches zero, and then on from the reload value. -/
theorem underflows_again (hr : 0 < reload) (hn : elapsed ≠ 0) (h : counter ≤ elapsed) :
    underflows reload counter elapsed = underflows reload reload (elapsed - counter) + 1 := by
  unfold underflows
  rw [if_neg (by omega)]
  by_cases hlt : elapsed - counter < reload
  · rw [if_pos (Or.inr hlt), Nat.div_eq_of_lt hlt]
  · rw [if_neg (by omega), Nat.div_eq (elapsed - counter) reload, if_pos ⟨hr, by omega⟩]

theorem remaining_again (hr : 0 < reload) (hn : elapsed ≠ 0) (h : counter ≤ elapsed) :
    remaining reload counter elapsed = remaining reload reload (elapsed - counter) := by
  unfold remaining
  rw [if_neg (by omega)]
  by_cases hlt : elapsed - counter < reload
  · rw [if_pos (Or.inr hlt), Nat.mod_eq_of_lt hlt]
  · rw [if_neg (by omega), Nat.mod_eq_sub_mod (by omega)]

/-- At most one underflow in fewer cycles than the count and one reload. -/
theorem underflows_eq_one (hr : 0 < reload) (hn : elapsed ≠ 0) (h : counter ≤ elapsed)
    (single : elapsed < counter + reload) : underflows reload counter elapsed = 1 := by
  rw [underflows_again hr hn h, underflows_quiet (Or.inr (by omega))]

end Mmemu.Library.Countdown
