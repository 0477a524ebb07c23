import Mathlib.Data.List.Basic
import Mathlib.Logic.Function.Basic
import Mathlib.Data.List.Induction
import Mathlib.Logic.Function.Iterate
import Mmemu.Library.Runs

/-!
# Systems with snapshots

A running system whose state can be saved and loaded again. Each snapshot is kept beside the
state it was taken in, so that what loading brings back can be compared with it. What loading
leaves alone is related along the run by the two rules at the end.
-/
namespace Mmemu.Library.Checkpoint
open Mmemu.Library.GuardedRun

variable {σ β ε : Type}

structure History (σ β : Type) where
  now : σ
  shots : List (β × σ)

/-- What happens to the system; a snapshot is named by its index. -/
inductive Event (ε : Type) where
  | act (op : ε)
  | save
  | restore (index : ℕ)
  | delete (index : ℕ)

/-- How the system moves, is saved and is loaded. -/
structure System (σ β ε : Type) where
  act : σ → ε → σ
  save : σ → β
  load : σ → β → σ

namespace System
variable (sys : System σ β ε)

def restore (h : History σ β) (index : ℕ) : History σ β :=
  match h.shots[index]? with
  | some shot => { h with now := sys.load h.now shot.1 }
  | none => h

@[simp] theorem shots_restore (h : History σ β) (index : ℕ) :
    (sys.restore h index).shots = h.shots := by
  unfold restore
  split <;> rfl

def step (h : History σ β) : Event ε → History σ β
  | .act op => { h with now := sys.act h.now op }
  | .save => { h with shots := h.shots ++ [(sys.save h.now, h.now)] }
  | .restore index => sys.restore h index
  | .delete index => { h with shots := h.shots.eraseIdx index }

def run (h : History σ β) (events : List (Event ε)) : History σ β := events.foldl sys.step h

/-- Every snapshot is what its state was saved to. -/
def Saved (h : History σ β) : Prop := ∀ shot ∈ h.shots, shot.1 = sys.save shot.2

theorem saved_step (h : History σ β) (e : Event ε) (saved : sys.Saved h) :
    sys.Saved (sys.step h e) := by
  intro shot mem
  cases e with
  | act op => exact saved shot mem
  | save =>
    rcases List.mem_append.mp mem with old | new
    · exact saved shot old
    · rw [List.mem_singleton.mp new]
  | restore index => exact saved shot (sys.shots_restore h index ▸ mem)
  | delete index => exact saved shot (List.mem_of_mem_eraseIdx mem)

theorem saved_run (start : σ) (events : List (Event ε)) :
    sys.Saved (sys.run ⟨start, []⟩ events) :=
  List.foldlRecOn events sys.step (by intro shot mem; simp at mem)
    fun h saved e _ => sys.saved_step h e saved

section Rules
variable (r : σ → σ → Prop)

/-- The states of the snapshots are all related to the present one. -/
def Related (h : History σ β) : Prop := ∀ shot ∈ h.shots, r shot.2 h.now

/-- An operation keeps the relation to each state a snapshot was taken in. -/
def Keeping (h : History σ β) : Event ε → Prop
  | .act op => ∀ shot ∈ h.shots, r shot.2 h.now → r shot.2 (sys.act h.now op)
  | _ => True

/-- A relation that loading keeps holds along every run whose operations keep it. -/
theorem related_run (refl : ∀ s, r s s) (load : ∀ t s b, r t s → r t (sys.load s b)) (start : σ)
    (events : List (Event ε)) (run : Guarded sys.step (sys.Keeping r) ⟨start, []⟩ events) :
    Related r (sys.run ⟨start, []⟩ events) := by
  refine foldl_invariant sys.step (sys.Keeping r) (Related r) ?_ _ events ?_ run
  · intro h e related keeping shot mem
    cases e with
    | act op => exact keeping shot mem (related shot mem)
    | save =>
      rcases List.mem_append.mp mem with old | new
      · exact related shot old
      · rw [List.mem_singleton.mp new]
        exact refl _
    | restore index =>
      have old := related shot (sys.shots_restore h index ▸ mem)
      simp only [step, restore]
      split
      · exact load _ _ _ old
      · exact old
    | delete index => exact related shot (List.mem_of_mem_eraseIdx mem)
  · intro shot mem
    simp at mem

end Rules

end System

end Mmemu.Library.Checkpoint

/-!
# Undo logs

A log holds, for each write in order, the address and the value it replaced.
`stepBack` takes the newest log of a stack back and lets the writes that do so be
recorded in the log below, as an undo made through the observed memory is.
-/
namespace Mmemu.Library.UndoLog

/-- What a write leaves in a log. -/
structure Entry (α β : Type*) where
  addr : α
  before : β
  deriving DecidableEq, Repr

variable {α β : Type*} [DecidableEq α]

/-- Take the writes of a log back, the newest first. -/
def undo (log : List (Entry α β)) (m : α → β) : α → β :=
  log.foldr (fun w m => Function.update m w.addr w.before) m

/-- The log that `m` leaves when the values of `writes` are stored one by one. -/
def record : List (Entry α β) → (α → β) → List (Entry α β)
  | [], _ => []
  | w :: rest, m => ⟨w.addr, m w.addr⟩ :: record rest (Function.update m w.addr w.before)

@[simp] theorem undo_nil (m : α → β) : undo [] m = m := rfl

@[simp] theorem undo_cons (w : Entry α β) (log : List (Entry α β)) (m : α → β) :
    undo (w :: log) m = Function.update (undo log m) w.addr w.before := rfl

theorem undo_append (log newer : List (Entry α β)) (m : α → β) :
    undo (log ++ newer) m = undo log (undo newer m) := List.foldr_append

/-- Storing the values of a reversed log is undoing it. -/
theorem undo_reverse (writes : List (Entry α β)) (m : α → β) :
    undo writes.reverse m = writes.foldl (fun m w => Function.update m w.addr w.before) m := by
  rw [undo, List.foldr_reverse]

/-- Undoing what a series of writes recorded gives the memory before it. -/
theorem undo_record (writes : List (Entry α β)) (m : α → β) :
    undo (record writes m) (writes.foldl (fun m w => Function.update m w.addr w.before) m) = m := by
  induction writes generalizing m with
  | nil => rfl
  | cons w rest ih =>
    simp only [record, List.foldl_cons, undo_cons, ih]
    rw [Function.update_idem, Function.update_eq_self]

/-- A log kept while `m` became `m'`: it leads back, and what it does not name is
unchanged. -/
structure Logs (log : List (Entry α β)) (m m' : α → β) : Prop where
  back : undo log m' = m
  frame : ∀ a, a ∉ log.map Entry.addr → m' a = m a

theorem Logs.nil (m : α → β) : Logs [] m m := ⟨rfl, fun _ _ => rfl⟩

/-- Logging a write. -/
theorem Logs.write (m : α → β) (a : α) (v : β) : Logs [⟨a, m a⟩] m (Function.update m a v) where
  back := by rw [undo_cons, undo_nil, Function.update_idem, Function.update_eq_self]
  frame b absent := Function.update_of_ne (by simpa using absent) v m

theorem Logs.append {log newer : List (Entry α β)} {m m' m'' : α → β} (h : Logs log m m')
    (h' : Logs newer m' m'') : Logs (log ++ newer) m m'' where
  back := by rw [undo_append, h'.back, h.back]
  frame a absent := by
    simp only [List.map_append, List.mem_append, not_or] at absent
    rw [h'.frame a absent.2, h.frame a absent.1]

/-- On the addresses a log names, undoing it does not depend on the memory. -/
theorem undo_apply_of_mem {log : List (Entry α β)} {a : α} (named : a ∈ log.map Entry.addr)
    (m m' : α → β) : undo log m a = undo log m' a := by
  induction log with
  | nil => simp at named
  | cons w rest ih =>
    simp only [undo_cons]
    rcases eq_or_ne a w.addr with rfl | other
    · simp
    · rw [Function.update_of_ne other, Function.update_of_ne other]
      exact ih (by simpa [other] using named)

theorem undo_apply_of_notMem {log : List (Entry α β)} {a : α} (absent : a ∉ log.map Entry.addr)
    (m : α → β) : undo log m a = m a := by
  induction log with
  | nil => rfl
  | cons w rest ih =>
    simp only [List.map_cons, List.mem_cons, not_or] at absent
    rw [undo_cons, Function.update_of_ne absent.1, ih absent.2]

/-- Undoing a run's log puts the value from before the run on every address the run
wrote, whatever memory it is applied to. -/
theorem Logs.undo_apply {log : List (Entry α β)} {m m' : α → β} (h : Logs log m m')
    (other : α → β) (a : α) :
    undo log other a = if a ∈ log.map Entry.addr then m a else other a := by
  split
  · next named => rw [undo_apply_of_mem named other m', h.back]
  · next absent => exact undo_apply_of_notMem absent other

/-! ## A stack of logs, undone through the memory it observes -/

/-- Writes made while `log` is on top of the stack end up in it. -/
def extendTop (writes : List (Entry α β)) : List (List (Entry α β)) → List (List (Entry α β))
  | [] => []
  | log :: below => (log ++ writes) :: below

/-- Undo the newest log; the undo's own writes are recorded in the log below. -/
def stepBack : (α → β) × List (List (Entry α β)) → (α → β) × List (List (Entry α β))
  | (m, []) => (m, [])
  | (m, log :: below) => (undo log m, extendTop (record log.reverse m) below)

/-- Undo every other log, the oldest one included; `logs` has the oldest first. -/
def undoAlternate : List (List (Entry α β)) → (α → β) → α → β
  | [], m => m
  | [log], m => undo log m
  | log :: _ :: rest, m => undo log (undoAlternate rest m)

theorem undoAlternate_cons (log : List (Entry α β)) (logs : List (List (Entry α β)))
    (m : α → β) : undoAlternate (log :: logs) m = undo log (undoAlternate logs.tail m) := by
  cases logs <;> rfl

/-- After as many steps back as there are logs, only every other one is undone: each step
takes back the writes of the step before it together with its own log. -/
theorem stepBack_iterate (logs older : List (List (Entry α β))) (m : α → β) :
    ∃ redo, undo redo (undoAlternate logs m) = undoAlternate logs.tail m ∧
      stepBack^[logs.length] (m, logs.reverse ++ older) =
        (undoAlternate logs m, extendTop redo older) := by
  induction logs generalizing older with
  | nil =>
    refine ⟨[], rfl, ?_⟩
    cases older <;> simp [extendTop, undoAlternate]
  | cons log rest ih =>
    obtain ⟨redo, back, run⟩ := ih (log :: older)
    refine ⟨record (log ++ redo).reverse (undoAlternate rest m), ?_, ?_⟩
    · have undone := undo_record (log ++ redo).reverse (undoAlternate rest m)
      rwa [← undo_reverse, List.reverse_reverse, undo_append, back,
        ← undoAlternate_cons] at undone
    · rw [List.length_cons, Function.iterate_succ_apply', List.reverse_cons, List.append_assoc,
        List.singleton_append, run]
      simp only [stepBack, extendTop, Prod.mk.injEq, and_true]
      rw [undo_append, back, undoAlternate_cons]

/-- The memory that undoing every other log of a run reaches: an address has the value
from before the first of those logs that names it, else its value after the run. -/
theorem undoAlternate_apply (logs : List (List (Entry α β))) (states : ℕ → α → β)
    (m : α → β) (final : m = states logs.length)
    (run : ∀ i (h : i < logs.length), Logs logs[i] (states i) (states (i + 1))) (a : α) :
    (∃ i, ∃ h : i < logs.length, i % 2 = 0 ∧ a ∈ logs[i].map Entry.addr ∧
      (∀ j (h' : j < i), j % 2 = 0 → a ∉ logs[j].map Entry.addr) ∧
      undoAlternate logs m a = states i a) ∨
    ((∀ i (h : i < logs.length), i % 2 = 0 → a ∉ logs[i].map Entry.addr) ∧
      undoAlternate logs m a = m a) := by
  match logs, final, run with
  | [], _, _ => exact .inr ⟨by simp, rfl⟩
  | [log], final, run =>
    have undone : undoAlternate [log] m a = _ := (run 0 (by simp)).undo_apply m a
    by_cases named : a ∈ log.map Entry.addr
    · exact .inl ⟨0, by simp, rfl, named, by simp, by simpa [named] using undone⟩
    · refine .inr ⟨?_, by simpa [named] using undone⟩
      intro i h _
      obtain rfl : i = 0 := by simpa using h
      exact named
  | log :: skipped :: rest, final, run =>
    have undone : undoAlternate (log :: skipped :: rest) m a = _ :=
      (run 0 (by simp)).undo_apply (undoAlternate rest m) a
    by_cases named : a ∈ log.map Entry.addr
    · exact .inl ⟨0, by simp, rfl, named, by simp, by simpa [named] using undone⟩
    · have passed : undoAlternate (log :: skipped :: rest) m a = undoAlternate rest m a := by
        simpa [named] using undone
      have later := undoAlternate_apply rest (fun i => states (i + 2)) m (by simpa using final)
        (fun i h => run (i + 2) (by simpa using h)) a
      rcases later with ⟨i, h, even, there, first, value⟩ | ⟨nowhere, value⟩
      · refine .inl ⟨i + 2, by simpa using h, by omega, there, ?_, passed.trans value⟩
        intro j h' parity
        match j with
        | 0 => exact named
        | 1 => omega
        | j + 2 => exact first j (by omega) (by omega)
      · refine .inr ⟨?_, passed.trans value⟩
        intro i h parity
        match i with
        | 0 => exact named
        | 1 => omega
        | i + 2 => exact nowhere i (by simpa using h) (by omega)

/-- Undoing every other log puts a value on an address exactly if the address had it before
the first of those logs that names it, or at the end where none does. -/
theorem undoAlternate_eq_iff (logs : List (List (Entry α β))) (states : ℕ → α → β)
    (m : α → β) (final : m = states logs.length)
    (run : ∀ i (h : i < logs.length), Logs logs[i] (states i) (states (i + 1))) (a : α) (v : β) :
    undoAlternate logs m a = v ↔
      (∀ i (h : i < logs.length), i % 2 = 0 → a ∈ logs[i].map Entry.addr →
        (∀ j (h' : j < i), j % 2 = 0 → a ∉ logs[j].map Entry.addr) → states i a = v) ∧
      ((∀ i (h : i < logs.length), i % 2 = 0 → a ∉ logs[i].map Entry.addr) → m a = v) := by
  rcases undoAlternate_apply logs states m final run a with
    ⟨i, h, even, named, first, value⟩ | ⟨nowhere, value⟩
  · rw [value]
    constructor
    · intro same
      refine ⟨?_, fun nowhere => absurd named (nowhere i h even)⟩
      intro k hk parity there earliest
      have order : k = i := by
        rcases Nat.lt_trichotomy k i with before | equal | after
        · exact absurd there (first k before parity)
        · exact equal
        · exact absurd named (earliest i after even)
      rw [order]
      exact same
    · rintro ⟨found, -⟩
      exact found i h even named first
  · rw [value]
    constructor
    · intro same
      exact ⟨fun i h even named => absurd named (nowhere i h even), fun _ => same⟩
    · rintro ⟨-, otherwise⟩
      exact otherwise nowhere

/-! ## Memories seen through reads and writes

Several addresses may show one place, and a write may land where no read looks. -/

section Devices
variable {σ γ δ : Type*} (read : σ → γ → δ) (write : σ → γ → δ → σ) (hits : γ → γ → Prop)
  [∀ a x, Decidable (hits a x)] (inv : σ → Prop)

/-- A write to `a` shows at the addresses that `a` hits, which all showed what `a` did. -/
structure Overwrites : Prop where
  keeps : ∀ s a v, inv s → inv (write s a v)
  read_write : ∀ s a v x, inv s → read (write s a v) x = if hits a x then v else read s x
  shared : ∀ s a x, inv s → hits a x → read s x = read s a

/-- The log of a run, the oldest write first. -/
def logOf : σ → List (γ × δ) → List (γ × δ)
  | _, [] => []
  | s, (a, v) :: rest => (a, read s a) :: logOf (write s a v) rest

def writeAll (s : σ) (writes : List (γ × δ)) : σ := writes.foldl (fun s w => write s w.1 w.2) s

/-- The last of the writes that a reading shows. -/
def lastHit (writes : List (γ × δ)) (x : γ) : Option δ :=
  writes.foldl (fun last w => if hits w.1 x then some w.2 else last) none

variable {read write hits inv}

theorem logOf_append (s : σ) (writes later : List (γ × δ)) :
    logOf read write s (writes ++ later) =
      logOf read write s writes ++ logOf read write (writeAll write s writes) later := by
  induction writes generalizing s with
  | nil => rfl
  | cons w rest ih =>
    simp only [List.cons_append, logOf, ih]
    rfl

theorem Overwrites.keeps_all (h : Overwrites read write hits inv) {s : σ} (hs : inv s)
    (writes : List (γ × δ)) : inv (writeAll write s writes) := by
  induction writes generalizing s with
  | nil => exact hs
  | cons w rest ih => exact ih (h.keeps s w.1 w.2 hs)

/-- Memories that read the same read the same after the same writes. -/
theorem Overwrites.read_congr (h : Overwrites read write hits inv) {s s' : σ} (hs : inv s)
    (hs' : inv s') (same : read s = read s') (writes : List (γ × δ)) :
    read (writeAll write s writes) = read (writeAll write s' writes) := by
  induction writes generalizing s s' with
  | nil => exact same
  | cons w rest ih =>
    refine ih (h.keeps s _ _ hs) (h.keeps s' _ _ hs') ?_
    funext x
    rw [h.read_write s _ _ x hs, h.read_write s' _ _ x hs', same]

/-- Writing back what was read before a write undoes it. -/
theorem Overwrites.write_back (h : Overwrites read write hits inv) {s : σ} (hs : inv s) (a : γ)
    (v : δ) : read (write (write s a v) a (read s a)) = read s := by
  funext x
  rw [h.read_write _ a _ x (h.keeps s a v hs), h.read_write s a v x hs]
  split
  next hit => exact (h.shared s a x hs hit).symm
  · rfl

/-- Undoing the log of a run, the newest write first, restores every reading. -/
theorem Overwrites.undo_run (h : Overwrites read write hits inv) {s : σ} (hs : inv s)
    (writes : List (γ × δ)) :
    read (writeAll write (writeAll write s writes) (logOf read write s writes).reverse) =
      read s := by
  induction writes using List.reverseRecOn with
  | nil => rfl
  | append_singleton writes w ih =>
    have kept := h.keeps_all hs writes
    have last : writeAll write s (writes ++ [w]) = write (writeAll write s writes) w.1 w.2 := by
      simp [writeAll]
    have newest : (logOf read write s (writes ++ [w])).reverse =
        (w.1, read (writeAll write s writes) w.1) :: (logOf read write s writes).reverse := by
      rw [logOf_append, List.reverse_append]
      rfl
    rw [newest, last]
    refine Eq.trans ?_ ih
    exact h.read_congr (h.keeps _ _ _ (h.keeps _ _ _ kept)) kept (h.write_back kept w.1 w.2) _

theorem lastHit_concat (writes : List (γ × δ)) (w : γ × δ) (x : γ) :
    lastHit hits (writes ++ [w]) x = if hits w.1 x then some w.2 else lastHit hits writes x := by
  simp [lastHit]

/-- A reading shows the last write that hits it, or what it showed. -/
theorem Overwrites.read_writeAll (h : Overwrites read write hits inv) {s : σ} (hs : inv s)
    (writes : List (γ × δ)) (x : γ) :
    read (writeAll write s writes) x = (lastHit hits writes x).getD (read s x) := by
  induction writes using List.reverseRecOn with
  | nil => rfl
  | append_singleton writes w ih =>
    have last : writeAll write s (writes ++ [w]) = write (writeAll write s writes) w.1 w.2 := by
      simp [writeAll]
    rw [last, h.read_write _ w.1 w.2 x (h.keeps_all hs writes), ih, lastHit_concat]
    split <;> rfl

/-- A run leaves a reading as it was when the last write that hits it stored that value. -/
theorem Overwrites.read_writeAll_eq_iff (h : Overwrites read write hits inv) {s : σ} (hs : inv s)
    (writes : List (γ × δ)) :
    read (writeAll write s writes) = read s ↔
      ∀ x v, lastHit hits writes x = some v → v = read s x := by
  rw [funext_iff]
  refine forall_congr' fun x => ?_
  rw [h.read_writeAll hs writes x]
  cases lastHit hits writes x with
  | none => simp
  | some v => simp [eq_comm]

end Devices

end Mmemu.Library.UndoLog
