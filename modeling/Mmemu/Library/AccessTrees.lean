import Mathlib.Data.Nat.Notation
import Mathlib.Tactic.Choose

/-!
# Computations that reach a world by reads and writes

A tree of accesses branches on what its reads return. A state computation on a part of its own and a
world is such a tree if, whatever that part, one tree does what it does to every world. Then the number
of accesses can be bounded by the result, what an access keeps is kept by the computation, and two
worlds that answer alike are run alike.
-/
namespace Mmemu.Library.AccessTrees

variable {ω ι β α γ κ : Type}

inductive Tree (ι β α : Type) where
  | done (a : α)
  | read (addr : ι) (next : β → Tree ι β α)
  | write (addr : ι) (val : β) (next : Tree ι β α)

/-- The accesses of a world. -/
structure Ports (ω ι β : Type) where
  read : ω → ι → β × ω
  write : ω → ι → β → ω

namespace Tree

def bind (f : α → Tree ι β γ) : Tree ι β α → Tree ι β γ
  | done a => f a
  | read addr next => read addr fun v => (next v).bind f
  | write addr val next => write addr val (next.bind f)

def run (p : Ports ω ι β) : Tree ι β α → ω → α × ω
  | done a, x => (a, x)
  | read addr next, x => (next (p.read x addr).1).run p (p.read x addr).2
  | write addr val next, x => next.run p (p.write x addr val)

theorem run_bind (p : Ports ω ι β) (f : α → Tree ι β γ) (t : Tree ι β α) (x : ω) :
    (t.bind f).run p x = (f (t.run p x).1).run p (t.run p x).2 := by
  induction t generalizing x with
  | done a => rfl
  | read addr next ih => exact ih _ _
  | write addr val next ih => exact ih _

/-- After `n` accesses, the result allows for all that are made. -/
def Paced (cost : α → ℕ) : ℕ → Tree ι β α → Prop
  | n, done a => n ≤ cost a
  | n, read _ next => ∀ v, Paced cost (n + 1) (next v)
  | n, write _ _ next => Paced cost (n + 1) next

theorem Paced.mono {cost cost' : α → ℕ} {t : Tree ι β α} {n n' : ℕ} (paced : Paced cost n t) (le : n' ≤ n)
    (more : ∀ a, cost a ≤ cost' a) : Paced cost' n' t := by
  induction t generalizing n n' with
  | done a => exact Nat.le_trans le (Nat.le_trans paced (more a))
  | read addr next ih => exact fun v => ih v (paced v) (Nat.succ_le_succ le)
  | write addr val next ih => exact ih (n := n + 1) paced (Nat.succ_le_succ le)

theorem Paced.bind {cost : α → ℕ} {cost' : γ → ℕ} {f : α → Tree ι β γ} {t : Tree ι β α} {n : ℕ}
    (paced : Paced cost n t) (next : ∀ a, Paced cost' (cost a) (f a)) : Paced cost' n (t.bind f) := by
  induction t generalizing n with
  | done a => exact (next a).mono paced fun _ => Nat.le_refl _
  | read addr k ih => exact fun v => ih v (paced v)
  | write addr val k ih => exact ih (n := n + 1) paced

/-- What holds after some accesses and is carried on by each holds at the end, after as many as the
result allows for. -/
theorem run_counted {p : Ports ω ι β} {inv : ℕ → ω → Prop}
    (read : ∀ n x addr, inv n x → inv (n + 1) (p.read x addr).2)
    (write : ∀ n x addr val, inv n x → inv (n + 1) (p.write x addr val))
    {cost : α → ℕ} {t : Tree ι β α} {n : ℕ} {x : ω} (paced : Paced cost n t) (begun : inv n x) :
    ∃ m, m ≤ cost (t.run p x).1 ∧ inv m (t.run p x).2 := by
  induction t generalizing n x with
  | done a => exact ⟨n, paced, begun⟩
  | read addr next ih => exact ih _ (paced _) (read n x addr begun)
  | write addr val next ih => exact ih (n := n + 1) paced (write n x addr val begun)

/-- What every access keeps is kept. -/
theorem run_keeps {p : Ports ω ι β} {inv : ω → Prop} (read : ∀ x addr, inv x → inv (p.read x addr).2)
    (write : ∀ x addr val, inv x → inv (p.write x addr val)) (t : Tree ι β α) {x : ω} (begun : inv x) :
    inv (t.run p x).2 := by
  induction t generalizing x with
  | done a => exact begun
  | read addr next ih => exact ih _ (read x addr begun)
  | write addr val next ih => exact ih (write x addr val begun)

/-- Two worlds that answer alike until one of them is spoiled are run alike, unless it is in the end. -/
theorem run_alike {p : Ports ω ι β} {alike : ω → ω → Prop} {spoiled : ω → Prop}
    (read : ∀ x x' addr, alike x x' → spoiled (p.read x addr).2 ∨
      (p.read x addr).1 = (p.read x' addr).1 ∧ alike (p.read x addr).2 (p.read x' addr).2)
    (write : ∀ x x' addr val, alike x x' → alike (p.write x addr val) (p.write x' addr val))
    (readSpoiled : ∀ x addr, spoiled x → spoiled (p.read x addr).2)
    (writeSpoiled : ∀ x addr val, spoiled x → spoiled (p.write x addr val))
    (t : Tree ι β α) {x x' : ω} (begun : alike x x') (clean : ¬ spoiled (t.run p x).2) :
    (t.run p x).1 = (t.run p x').1 ∧ alike (t.run p x).2 (t.run p x').2 := by
  induction t generalizing x x' with
  | done a => exact ⟨rfl, begun⟩
  | read addr next ih =>
    rcases read x x' addr begun with spoilt | ⟨same, alike'⟩
    · exact absurd (run_keeps readSpoiled writeSpoiled _ spoilt) clean
    · change ((next (p.read x addr).1).run p _).1 = ((next (p.read x' addr).1).run p _).1 ∧
        alike ((next (p.read x addr).1).run p _).2 ((next (p.read x' addr).1).run p _).2
      rw [← same]
      exact ih _ alike' clean
  | write addr val next ih => exact ih (write x x' addr val begun) clean

end Tree

/-! ## State computations on a part of their own and a world -/

section
variable {σ ε : Type} {make : κ → ω → ε → σ} {p : Ports ω ι β}

/-- The computation is a tree of accesses, whose results allow for the accesses after `n` others. A state
is made of a part that says which tree it is, a world, and a rest that it does not depend on. -/
def Accesses (make : κ → ω → ε → σ) (p : Ports ω ι β) (n : ℕ) (cost : α → ℕ) (x : StateM σ α) : Prop :=
  ∀ k, ∃ t : Tree ι β (α × κ), t.Paced (fun r => cost r.1) n ∧
    ∀ w e, ∃ e', x (make k w e) = ((t.run p w).1.1, make (t.run p w).1.2 (t.run p w).2 e')

namespace Accesses
variable {n : ℕ} {cost : α → ℕ} {cost' : γ → ℕ}

theorem pure {a : α} (enough : n ≤ cost a) : Accesses make p n cost (Pure.pure a) :=
  fun k => ⟨.done (a, k), enough, fun _ e => ⟨e, rfl⟩⟩

theorem bind {x : StateM σ α} {f : α → StateM σ γ} (first : Accesses make p n cost x)
    (next : ∀ a, Accesses make p (cost a) cost' (f a)) : Accesses make p n cost' (x >>= f) := by
  intro k
  obtain ⟨t, paced, runs⟩ := first k
  choose after paced' runs' using fun r : α × κ => next r.1 r.2
  refine ⟨t.bind after, paced.bind paced', fun w e => ?_⟩
  obtain ⟨e₁, ran⟩ := runs w e
  obtain ⟨e₂, ran'⟩ := runs' (t.run p w).1 (t.run p w).2 e₁
  refine ⟨e₂, ?_⟩
  rw [Tree.run_bind]
  change f (x (make k w e)).1 (x (make k w e)).2 = _
  rw [ran]
  exact ran'

/-- What is done with the whole state depends on its own part only. -/
theorem get_bind [some_ : Nonempty ω] [rest : Nonempty ε] {f : σ → StateM σ γ}
    (blind : ∀ k w e w' e', f (make k w e) = f (make k w' e'))
    (next : ∀ k w e, Accesses make p n cost' (f (make k w e))) :
    Accesses make p n cost' (MonadState.get >>= f) := by
  intro k
  obtain ⟨w₀⟩ := some_
  obtain ⟨e₀⟩ := rest
  obtain ⟨t, paced, runs⟩ := next k w₀ e₀ k
  refine ⟨t, paced, fun w e => ?_⟩
  obtain ⟨e', ran⟩ := runs w e
  refine ⟨e', ?_⟩
  change f (make k w e) (make k w e) = _
  rw [blind k w e w₀ e₀]
  exact ran

theorem ite {c : Prop} [Decidable c] {x y : StateM σ α} (yes : c → Accesses make p n cost x)
    (no : ¬ c → Accesses make p n cost y) : Accesses make p n cost (if c then x else y) := by
  split
  · exact yes ‹_›
  · exact no ‹_›

/-- A change of the state's own part and of the rest. -/
theorem modify {f : σ → σ} (g : κ → κ) (own : ∀ k w e, ∃ e', f (make k w e) = make (g k) w e')
    {cost : PUnit → ℕ} (enough : n ≤ cost ⟨⟩) :
    Accesses make p n cost (modifyGet fun s => (PUnit.unit, f s)) := by
  refine fun k => ⟨.done (⟨⟩, g k), enough, fun w e => ?_⟩
  obtain ⟨e', same⟩ := own k w e
  exact ⟨e', congrArg (Prod.mk PUnit.unit) same⟩

/-- A read and a write are one access each. -/
theorem read {f : σ → β × σ} (addr : ι)
    (own : ∀ k w e, f (make k w e) = ((p.read w addr).1, make k (p.read w addr).2 e))
    {cost : β → ℕ} (enough : ∀ v, n + 1 ≤ cost v) : Accesses make p n cost f :=
  fun k => ⟨.read addr fun v => .done (v, k), enough, fun w e => ⟨e, own k w e⟩⟩

theorem write {f : σ → σ} (addr : ι) (val : β) (own : ∀ k w e, f (make k w e) = make k (p.write w addr val) e)
    {cost : PUnit → ℕ} (enough : n + 1 ≤ cost ⟨⟩) :
    Accesses make p n cost (modifyGet fun s => (PUnit.unit, f s)) :=
  fun k => ⟨.write addr val (.done (⟨⟩, k)), enough,
    fun w e => ⟨e, congrArg (Prod.mk PUnit.unit) (own k w e)⟩⟩

end Accesses
end

end Mmemu.Library.AccessTrees
