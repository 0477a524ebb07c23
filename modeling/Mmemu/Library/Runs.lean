import Mathlib.Data.List.Basic
import Mathlib.Order.Basic

/-!
# Guarded runs

Runs of a deterministic step function in which a condition holds of every step
taken, and the induction that carries an invariant or an abstraction along them.
-/
namespace Mmemu.Library.GuardedRun

variable {σ ε τ : Type*} (step : σ → ε → σ) (guard : σ → ε → Prop)

/-- Every step of the run from `s` meets the guard in the state it is taken in. -/
def Guarded : σ → List ε → Prop
  | _, [] => True
  | s, e :: rest => guard s e ∧ Guarded (step s e) rest

/-- The guard may be checked step by step. -/
instance Guarded.decidable [∀ s e, Decidable (guard s e)] (s : σ) (es : List ε) :
    Decidable (Guarded step guard s es) :=
  match es with
  | [] => .isTrue trivial
  | e :: rest =>
    have := Guarded.decidable (step s e) rest
    inferInstanceAs (Decidable (_ ∧ _))

/-- Guards that agree on every step let the same runs pass. -/
theorem guarded_congr {guard' : σ → ε → Prop} (same : ∀ s e, guard s e ↔ guard' s e) (s : σ)
    (es : List ε) : Guarded step guard s es ↔ Guarded step guard' s es := by
  induction es generalizing s with
  | nil => exact Iff.rfl
  | cons e rest ih => exact and_congr (same s e) (ih (step s e))

/-- A guard that every step meets lets every run pass. -/
theorem guarded_of_forall (all : ∀ s e, guard s e) (s : σ) (es : List ε) :
    Guarded step guard s es := by
  induction es generalizing s with
  | nil => trivial
  | cons e rest ih => exact ⟨all s e, ih (step s e)⟩

/-- A run that meets two guards meets both at every step. -/
theorem guarded_and {guard guard' : σ → ε → Prop} {s : σ} {es : List ε}
    (run : Guarded step guard s es) (run' : Guarded step guard' s es) :
    Guarded step (fun s e => guard s e ∧ guard' s e) s es := by
  induction es generalizing s with
  | nil => trivial
  | cons e rest ih => exact ⟨⟨run.1, run'.1⟩, ih run.2 run'.2⟩

/-- Along a guarded run an invariant may be used to show another guard. -/
theorem Guarded.mono {guard guard' : σ → ε → Prop} (inv : σ → Prop)
    (keeps : ∀ s e, inv s → guard s e → inv (step s e))
    (implies : ∀ s e, inv s → guard s e → guard' s e) {s : σ} {es : List ε} (hs : inv s)
    (run : Guarded step guard s es) : Guarded step guard' s es := by
  induction es generalizing s with
  | nil => trivial
  | cons e rest ih => exact ⟨implies s e hs run.1, ih (keeps s e hs run.1) run.2⟩

theorem foldl_invariant (inv : σ → Prop) (keeps : ∀ s e, inv s → guard s e → inv (step s e))
    (s : σ) (es : List ε) (hs : inv s) (run : Guarded step guard s es) : inv (es.foldl step s) := by
  induction es generalizing s with
  | nil => exact hs
  | cons e rest ih => exact ih (step s e) (keeps s e hs run.1) run.2

/-- Where a step keeps the invariant exactly if its guard holds, the invariant holds throughout a
run exactly if every guard does. -/
theorem forall_prefix_iff (inv : σ → Prop) (exact : ∀ s e, inv s → (inv (step s e) ↔ guard s e))
    {s : σ} (hs : inv s) (es : List ε) :
    (∀ before, before <+: es → inv (before.foldl step s)) ↔ Guarded step guard s es := by
  induction es generalizing s with
  | nil =>
    refine iff_of_true ?_ trivial
    intro before none_
    rw [List.prefix_nil.mp none_]
    exact hs
  | cons e rest ih =>
    constructor
    · intro throughout
      have kept : inv (step s e) := throughout [e] (List.prefix_append [e] rest)
      refine ⟨(exact s e hs).mp kept, (ih kept).mp fun before first => ?_⟩
      exact throughout (e :: before) ((List.prefix_cons_inj e).mpr first)
    · rintro ⟨met, later⟩ before first
      have kept : inv (step s e) := (exact s e hs).mpr met
      cases before with
      | nil => exact hs
      | cons e' before =>
        obtain ⟨rfl, tail⟩ := List.cons_prefix_cons.mp first
        exact (ih kept).mpr later before tail

/-- Simulation: if every guarded step commutes with the abstraction, so does
every guarded run. -/
theorem foldl_simulates (inv : σ → Prop) (abs : σ → τ) (specStep : τ → ε → τ)
    (keeps : ∀ s e, inv s → guard s e → inv (step s e))
    (commutes : ∀ s e, inv s → guard s e → abs (step s e) = specStep (abs s) e)
    (s : σ) (es : List ε) (hs : inv s) (run : Guarded step guard s es) :
    abs (es.foldl step s) = es.foldl specStep (abs s) := by
  induction es generalizing s with
  | nil => rfl
  | cons e rest ih =>
    simp only [List.foldl_cons]
    rw [ih (step s e) (keeps s e hs run.1) run.2, commutes s e hs run.1]

end Mmemu.Library.GuardedRun

/-!
# Nested runs and shadow stacks

Runs whose steps open and close frames, and a stack kept beside such a run. Every close pops
the stack, but only some openings push an entry. The frames of a run restore the stack
precisely if those without an entry are opened on an empty one.
-/
namespace Mmemu.Library.NestedRun

variable {σ ε κ χ α : Type*}

/-- What a step does to the frames of the run. -/
inductive Kind (κ χ : Type*) where
  | quiet
  | opens (k : κ)
  | closes (k : χ)
  deriving DecidableEq, Repr

/-- A deterministic system whose steps open and close frames. -/
structure Bracketing (σ ε κ χ : Type*) where
  step : σ → ε → σ
  kind : σ → ε → Kind κ χ
  matched : κ → χ → Prop

namespace Bracketing

def run (b : Bracketing σ ε κ χ) (s : σ) (es : List ε) : σ := es.foldl b.step s

theorem run_append (b : Bracketing σ ε κ χ) (s : σ) (es es' : List ε) :
    b.run s (es ++ es') = b.run (b.run s es) es' := List.foldl_append

theorem run_frame (b : Bracketing σ ε κ χ) (s : σ) (e : ε) (body : List ε) (e' : ε)
    (es : List ε) :
    b.run s (e :: (body ++ e' :: es)) = b.run (b.step (b.run (b.step s e) body) e') es := by
  change b.run (b.step s e) (body ++ e' :: es) = _
  rw [b.run_append]
  rfl

/-- Every frame opened in the run is closed in it, by a step that matches its opening. -/
inductive Nested (b : Bracketing σ ε κ χ) : σ → List ε → Prop
  | nil (s : σ) : Nested b s []
  | quiet {s : σ} {e : ε} {es : List ε} (quiet : b.kind s e = .quiet)
      (rest : Nested b (b.step s e) es) : Nested b s (e :: es)
  | frame {s : σ} {e e' : ε} {body es : List ε} {k : κ} {k' : χ} (opens : b.kind s e = .opens k)
      (inside : Nested b (b.step s e) body)
      (closes : b.kind (b.run (b.step s e) body) e' = .closes k') (matched : b.matched k k')
      (rest : Nested b (b.step (b.run (b.step s e) body) e') es) :
      Nested b s (e :: (body ++ e' :: es))

/-- The steps `e`, `body`, `e'` from `s` are a frame opened as `k`. -/
structure Frame (b : Bracketing σ ε κ χ) (s : σ) (e : ε) (body : List ε) (e' : ε) (k : κ) :
    Prop where
  opens : b.kind s e = .opens k
  inside : b.Nested (b.step s e) body
  closes : ∃ k', b.kind (b.run (b.step s e) body) e' = .closes k' ∧ b.matched k k'

/-- Some statement about every frame of a run, from the state it is opened in. -/
def EachFrame (b : Bracketing σ ε κ χ) (claim : σ → ε → List ε → ε → κ → Prop) (s : σ)
    (es : List ε) : Prop :=
  ∀ pre e body e' post k, es = pre ++ e :: (body ++ e' :: post) →
    b.Frame (b.run s pre) e body e' k → claim (b.run s pre) e body e' k

theorem EachFrame.infix {b : Bracketing σ ε κ χ} {claim : σ → ε → List ε → ε → κ → Prop} {s : σ}
    {pre es : List ε} (post : List ε) (each : b.EachFrame claim s (pre ++ es ++ post)) :
    b.EachFrame claim (b.run s pre) es := by
  rintro pre' e body e' post' k rfl frame
  rw [← b.run_append] at frame ⊢
  refine each (pre ++ pre') e body e' (post' ++ post) k ?_ frame
  simp only [List.append_assoc, List.cons_append]

end Bracketing

/-- A stack that every close pops and the recorded openings push an entry on. -/
structure Shadow (b : Bracketing σ ε κ χ) (recorded : κ → Prop) (shadow : σ → List α) :
    Prop where
  quiet : ∀ {s e}, b.kind s e = .quiet → shadow (b.step s e) = shadow s
  pushed : ∀ {s e k}, b.kind s e = .opens k → recorded k → ∃ a, shadow (b.step s e) = a :: shadow s
  skipped : ∀ {s e k}, b.kind s e = .opens k → ¬ recorded k → shadow (b.step s e) = shadow s
  popped : ∀ {s e k}, b.kind s e = .closes k → shadow (b.step s e) = (shadow s).tail

section Restoration
variable {b : Bracketing σ ε κ χ} {recorded : κ → Prop} {shadow : σ → List α}

/-- A nested run only ever takes entries away. -/
theorem Shadow.nested_drop (h : Shadow b recorded shadow) {s : σ} {es : List ε}
    (nested : b.Nested s es) : ∃ n, shadow (b.run s es) = (shadow s).drop n := by
  induction nested with
  | nil s => exact ⟨0, rfl⟩
  | @quiet s e es quiet rest ih =>
    obtain ⟨n, after⟩ := ih
    rw [h.quiet quiet] at after
    exact ⟨n, after⟩
  | @frame s e e' body es k k' opens inside closes matched rest ihInside ihRest =>
    obtain ⟨n, inner⟩ := ihInside
    obtain ⟨m, outer⟩ := ihRest
    rw [h.popped closes, inner, List.tail_drop] at outer
    rw [b.run_frame, outer, List.drop_drop]
    by_cases kept : recorded k
    · obtain ⟨a, pushed⟩ := h.pushed opens kept
      exact ⟨n + m, by rw [pushed, Nat.add_right_comm, List.drop_succ_cons]⟩
    · exact ⟨n + 1 + m, by rw [h.skipped opens kept]⟩

/-- The stack is back when the frame is closed. -/
def Restored (b : Bracketing σ ε κ χ) (shadow : σ → List α) (s : σ) (e : ε) (body : List ε)
    (e' : ε) (_k : κ) : Prop :=
  shadow (b.step (b.run (b.step s e) body) e') = shadow s

/-- A frame without an entry is opened on an empty stack. -/
def EmptyIfUnrecorded (recorded : κ → Prop) (shadow : σ → List α) (s : σ) (_e : ε)
    (_body : List ε) (_e' : ε) (k : κ) : Prop :=
  ¬ recorded k → shadow s = []

/-- A frame whose inside keeps the stack. -/
theorem Shadow.restored_of_inside (h : Shadow b recorded shadow) {s : σ} {e e' : ε}
    {body : List ε} {k : κ} {k' : χ} (opens : b.kind s e = .opens k)
    (closes : b.kind (b.run (b.step s e) body) e' = .closes k')
    (inside : shadow (b.run (b.step s e) body) = shadow (b.step s e))
    (empty : ¬ recorded k → shadow s = []) :
    shadow (b.step (b.run (b.step s e) body) e') = shadow s := by
  rw [h.popped closes, inside]
  by_cases kept : recorded k
  · obtain ⟨a, pushed⟩ := h.pushed opens kept
    rw [pushed, List.tail_cons]
  · rw [h.skipped opens kept, empty kept, List.tail_nil]

theorem Shadow.nested_restored (h : Shadow b recorded shadow) {s : σ} {es : List ε}
    (nested : b.Nested s es) (empty : b.EachFrame (EmptyIfUnrecorded recorded shadow) s es) :
    shadow (b.run s es) = shadow s := by
  induction nested with
  | nil s => rfl
  | @quiet s e es quiet rest ih =>
    have tail : b.EachFrame (EmptyIfUnrecorded recorded shadow) (b.run s [e]) es := by
      refine Bracketing.EachFrame.infix [] ?_
      simpa using empty
    exact (ih tail).trans (h.quiet quiet)
  | @frame s e e' body es k k' opens inside closes matched rest ihInside ihRest =>
    have within : b.EachFrame (EmptyIfUnrecorded recorded shadow) (b.run s [e]) body := by
      refine Bracketing.EachFrame.infix (e' :: es) ?_
      simpa using empty
    have beyond : b.EachFrame (EmptyIfUnrecorded recorded shadow)
        (b.run s (e :: (body ++ [e']))) es := by
      refine Bracketing.EachFrame.infix [] ?_
      simpa using empty
    rw [b.run_frame] at beyond
    rw [b.run_frame, ihRest beyond]
    exact h.restored_of_inside opens closes (ihInside within)
      (empty [] e body e' es k rfl ⟨opens, inside, k', closes, matched⟩)

/-- The frames of a run restore the stack precisely if those without an entry are opened on an
empty one. -/
theorem Shadow.restored_iff (h : Shadow b recorded shadow) (s : σ) (es : List ε) :
    b.EachFrame (Restored b shadow) s es ↔
      b.EachFrame (EmptyIfUnrecorded recorded shadow) s es := by
  constructor
  · intro restored pre e body e' post k split frame unrecorded
    have back := restored pre e body e' post k split frame
    obtain ⟨k', closes, -⟩ := frame.closes
    obtain ⟨n, inner⟩ := h.nested_drop frame.inside
    -- the close takes an entry that the opening never pushed
    rw [Restored, h.popped closes, inner, h.skipped frame.opens unrecorded, List.tail_drop] at back
    have length := congrArg List.length back
    rw [List.length_drop] at length
    exact List.length_eq_zero_iff.mp (by omega)
  · rintro empty pre e body e' post k rfl frame
    obtain ⟨k', closes, -⟩ := frame.closes
    have within : b.EachFrame (EmptyIfUnrecorded recorded shadow) (b.run s (pre ++ [e])) body := by
      refine Bracketing.EachFrame.infix (e' :: post) ?_
      simpa using empty
    rw [b.run_append] at within
    exact h.restored_of_inside frame.opens closes (h.nested_restored frame.inside within)
      (empty pre e body e' post k rfl frame)

end Restoration

end Mmemu.Library.NestedRun

/-!
# Loops that may be left between rounds

A loop runs in rounds, and before each of them something else may have its turn, any number of
times. What that may change, and what a round makes of the state, say where the loop ends.
-/
namespace Mmemu.Library.InterruptedLoop

variable {σ : Type*}

structure Loop (σ : Type*) where
  /-- The state is before a round. -/
  waits : σ → Prop
  /-- A round and the time it takes. -/
  round : σ → ℕ → σ → Prop
  /-- Something else has its turn. -/
  between : σ → σ → Prop

/-- So many rounds, and the time of the rounds alone. -/
inductive Loop.Run (l : Loop σ) (s : σ) : ℕ → ℕ → σ → Prop
  | start : Run l s 0 0 s
  | between {k t : ℕ} {d e : σ} (run : Run l s k t d) (waits : l.waits d)
      (turn : l.between d e) : Run l s k t e
  | round {k t u : ℕ} {d e : σ} (run : Run l s k t d) (waits : l.waits d)
      (round : l.round d u e) : Run l s (k + 1) (t + u) e

/-- An invariant of the rounds; the loop is going after some of them. All rounds but the last
take the same time. -/
structure Rule (l : Loop σ) (s : σ) (inv : ℕ → σ → Prop) (going : ℕ → Prop) (long short : ℕ) :
    Prop where
  start : inv 0 s
  first : going 0
  waits_iff : ∀ {k d}, inv k d → (l.waits d ↔ going k)
  between : ∀ {k d e}, inv k d → going k → l.between d e → inv k e
  round : ∀ {k u d e}, inv k d → going k → l.round d u e →
    inv (k + 1) e ∧ (going (k + 1) → u = long) ∧ (¬going (k + 1) → u = short)

variable {l : Loop σ} {s : σ} {inv : ℕ → σ → Prop} {going : ℕ → Prop} {long short : ℕ}

/-- The loop is at the end of a round, or behind the last. -/
def Timed (going : ℕ → Prop) (long short k t : ℕ) : Prop :=
  (going k ∧ t = long * k) ∨ ¬going k ∧ ∃ j, k = j + 1 ∧ going j ∧ t = long * j + short

theorem Rule.run (rule : Rule l s inv going long short) {k t : ℕ} {d : σ} (run : l.Run s k t d) :
    inv k d ∧ Timed going long short k t := by
  induction run with
  | start => exact ⟨rule.start, .inl ⟨rule.first, rfl⟩⟩
  | between _ waits turn ih =>
    have on := (rule.waits_iff ih.1).mp waits
    exact ⟨rule.between ih.1 on turn, ih.2⟩
  | @round k t u d e _ waits round ih =>
    have on := (rule.waits_iff ih.1).mp waits
    obtain ⟨kept, longer, shorter⟩ := rule.round ih.1 on round
    have time : t = long * k := by
      rcases ih.2 with ⟨-, time⟩ | ⟨off, -⟩
      · exact time
      · exact absurd on off
    refine ⟨kept, ?_⟩
    by_cases more : going (k + 1)
    · exact .inl ⟨more, by rw [time, longer more, Nat.mul_succ]⟩
    · exact .inr ⟨more, k, rfl, on, by rw [time, shorter more]⟩

theorem Loop.Run.trans {k t k' t' : ℕ} {d e : σ} (run : l.Run s k t d) (more : l.Run d k' t' e) :
    l.Run s (k + k') (t + t') e := by
  induction more with
  | start => exact run
  | between _ waits turn ih => exact .between ih waits turn
  | round _ waits round ih =>
    rw [← Nat.add_assoc, ← Nat.add_assoc]
    exact .round ih waits round

/-- From where rounds can be taken the loop comes to its end. -/
theorem Rule.completes (rule : Rule l s inv going long short) {ready : σ → Prop} {n : ℕ}
    (bound : ∀ k, going k → k < n)
    (steps : ∀ {k d}, inv k d → going k → ready d → ∃ u e, l.round d u e ∧ ready e)
    {k t : ℕ} {d : σ} (run : l.Run s k t d) (here : ready d) :
    ∃ k' t' e, l.Run d k' t' e ∧ ¬l.waits e := by
  induction left : n - k generalizing k t d with
  | zero =>
    have kept := (rule.run run).1
    refine ⟨0, 0, d, .start, fun waits => ?_⟩
    have below := bound k ((rule.waits_iff kept).mp waits)
    omega
  | succ left ih =>
    have kept := (rule.run run).1
    by_cases waits : l.waits d
    · obtain ⟨u, e, round, there⟩ := steps kept ((rule.waits_iff kept).mp waits) here
      obtain ⟨k', t', f, rest, ended⟩ := ih (.round run waits round) there (by omega)
      exact ⟨_, _, f, (Loop.Run.round .start waits round).trans rest, ended⟩
    · exact ⟨0, 0, d, .start, waits⟩

end Mmemu.Library.InterruptedLoop
