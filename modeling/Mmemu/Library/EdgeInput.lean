import Mathlib.Data.List.Count

/-!
# An edge-triggered input that is sampled

The line may change between two samples, and only a sample that sees it high after one that
saw it low takes an edge. What was raised is taken exactly once precisely if the line was seen
low before and is sampled before it drops again.
-/
namespace Mmemu.Library.EdgeInput

/-- The line is driven to a level, or sampled; `taken` tells whether that took an edge. -/
inductive Signal where
  | drive (level : Bool)
  | sample (taken : Bool)
  deriving DecidableEq, Repr

/-- The line, and the level the last sample saw. -/
structure Input where
  level : Bool
  seen : Bool
  deriving DecidableEq, Repr

def Input.next (i : Input) : Signal → Input
  | .drive level => { i with level := level }
  | .sample _ => { i with seen := i.level }

def Input.after (i : Input) (signals : List Signal) : Input := signals.foldl Input.next i

/-- Every sample takes what it should. -/
def Consistent : Input → List Signal → Prop
  | _, [] => True
  | i, s :: rest =>
    (∀ taken, s = .sample taken → taken = (i.level && !i.seen)) ∧ Consistent (i.next s) rest

theorem consistent_append {i : Input} {l l' : List Signal} :
    Consistent i (l ++ l') ↔ Consistent i l ∧ Consistent (i.after l) l' := by
  induction l generalizing i with
  | nil => simp [Consistent, Input.after]
  | cons s rest ih =>
    rw [List.cons_append, Consistent, Consistent, ih, and_assoc]
    rfl

/-- How many edges were taken. -/
def takes (l : List Signal) : ℕ := l.count (.sample true)

def Sampled (l : List Signal) : Prop := ∃ taken, Signal.sample taken ∈ l

/-- `window` is what follows a rise after `before`, up to the next rise or the end. -/
def Window (signals before window : List Signal) : Prop :=
  ∃ rest, signals = before ++ .drive true :: (window ++ rest) ∧ Signal.drive true ∉ window ∧
    (rest = [] ∨ rest.head? = some (.drive true))

/-- Each rise that is sampled before the next is taken exactly once, and nothing else is. -/
structure Served (signals : List Signal) : Prop where
  once : ∀ before window, Window signals before window → Sampled window → takes window = 1
  only : ∀ before window, Window signals before window → takes window ≤ 1
  first : ∀ before rest, signals = before ++ rest → Signal.drive true ∉ before → takes before = 0

/-- The line is sampled before it is driven low. -/
def SampledFirst (window : List Signal) : Prop :=
  ∃ before taken rest, window = before ++ .sample taken :: rest ∧ Signal.drive false ∉ before

/-- Each rise that is sampled at all finds the line seen low, and is sampled before it drops. -/
def Visible (i : Input) (signals : List Signal) : Prop :=
  ∀ before window, Window signals before window → Sampled window →
    (i.after before).seen = false ∧ SampledFirst window

/-! ## One window -/

/-- While no edge is pending and nothing rises, none is taken. -/
theorem takes_eq_zero {i : Input} {window : List Signal} (consistent : Consistent i window)
    (quiet : Signal.drive true ∉ window) (idle : i.level = false ∨ i.seen = true) :
    takes window = 0 := by
  induction window generalizing i with
  | nil => rfl
  | cons s rest ih =>
    obtain ⟨here, later⟩ := consistent
    have quiet' : Signal.drive true ∉ rest := fun there => quiet (List.mem_cons_of_mem _ there)
    cases s with
    | drive level =>
      have low : level = false := by
        cases level with
        | true => exact absurd List.mem_cons_self quiet
        | false => rfl
      have after : takes rest = 0 := ih later quiet' (.inl low)
      simpa [takes] using after
    | sample taken =>
      have none : taken = false := by
        rw [here taken rfl]
        rcases idle with low | seen
        · rw [low, Bool.false_and]
        · rw [seen, Bool.not_true, Bool.and_false]
      have after : takes rest = 0 := by
        refine ih later quiet' ?_
        rcases idle with low | seen
        · exact .inl low
        · cases level : i.level with
          | true => exact .inr level
          | false => exact .inl level
      rw [none]
      simpa [takes] using after

theorem sampledFirst_sample (taken : Bool) (rest : List Signal) :
    SampledFirst (.sample taken :: rest) := ⟨[], taken, rest, rfl, by simp⟩

theorem not_sampledFirst_drop (rest : List Signal) : ¬ SampledFirst (.drive false :: rest) := by
  rintro ⟨before, taken, later, split, undropped⟩
  cases before with
  | nil => cases split
  | cons s before =>
    obtain ⟨rfl, -⟩ := List.cons.inj split
    exact undropped List.mem_cons_self

/-- A pending edge is taken once, if the line is sampled before it drops. -/
theorem takes_pending {i : Input} {window : List Signal} (consistent : Consistent i window)
    (quiet : Signal.drive true ∉ window) (high : i.level = true) (low : i.seen = false) :
    takes window ≤ 1 ∧ (takes window = 1 ↔ SampledFirst window) := by
  cases window with
  | nil =>
    refine ⟨Nat.zero_le 1, fun one => absurd one (by decide), ?_⟩
    rintro ⟨before, taken, rest, split, -⟩
    simp at split
  | cons s rest =>
    obtain ⟨here, later⟩ := consistent
    have quiet' : Signal.drive true ∉ rest := fun there => quiet (List.mem_cons_of_mem _ there)
    cases s with
    | drive level =>
      cases level with
      | true => exact absurd List.mem_cons_self quiet
      | false =>
        have none : takes rest = 0 := takes_eq_zero later quiet' (.inl rfl)
        have zero : takes (.drive false :: rest) = 0 := by simpa [takes] using none
        rw [zero]
        exact ⟨Nat.zero_le 1, fun one => absurd one (by decide),
          fun first => absurd first (not_sampledFirst_drop rest)⟩
    | sample taken =>
      have edge : taken = true := by rw [here taken rfl, high, low]; rfl
      have none : takes rest = 0 := takes_eq_zero later quiet' (.inr high)
      have one : takes (.sample taken :: rest) = 1 := by
        rw [edge]
        simpa [takes] using none
      rw [one]
      exact ⟨Nat.le_refl 1, fun _ => sampledFirst_sample taken rest, fun _ => rfl⟩

/-! ## Runs of signals -/

/-- The window of a rise, with the line high at its start. -/
theorem Window.consistent {i : Input} {signals before window : List Signal}
    (h : Window signals before window) (consistent : Consistent i signals) :
    Consistent ⟨true, (i.after before).seen⟩ window := by
  obtain ⟨rest, rfl, -⟩ := h
  have after := (consistent_append.mp consistent).2
  exact (consistent_append.mp after.2).1

theorem takes_window {i : Input} {signals before window : List Signal}
    (h : Window signals before window) (consistent : Consistent i signals) :
    takes window ≤ 1 ∧
      (takes window = 1 ↔ (i.after before).seen = false ∧ SampledFirst window) := by
  have inside := h.consistent consistent
  obtain ⟨rest, -, quiet, -⟩ := h
  cases seen : (i.after before).seen with
  | true =>
    rw [seen] at inside
    have none : takes window = 0 := takes_eq_zero inside quiet (.inr rfl)
    rw [none]
    exact ⟨Nat.zero_le 1, fun one => absurd one (by decide), fun h => by cases h.1⟩
  | false =>
    rw [seen] at inside
    obtain ⟨atMost, iff⟩ := takes_pending inside quiet rfl rfl
    exact ⟨atMost, iff.trans (and_iff_right rfl).symm⟩

/-- From an input with no edge pending, every rise is served precisely if each is visible. -/
theorem served_iff_held {i : Input} {signals : List Signal} (consistent : Consistent i signals)
    (idle : i.level = false ∨ i.seen = true) : Served signals ↔ Visible i signals := by
  constructor
  · intro served before window h sampled
    exact (takes_window h consistent).2.mp (served.once before window h sampled)
  · intro visible
    refine ⟨?_, ?_, ?_⟩
    · intro before window h sampled
      exact (takes_window h consistent).2.mpr (visible before window h sampled)
    · intro before window h
      exact (takes_window h consistent).1
    · rintro before rest rfl quiet
      exact takes_eq_zero (consistent_append.mp consistent).1 quiet idle

/-! ## A gate before the input

The line stays high, and a gate decides at each sample whether an edge may be taken. An edge
that waits for the gate is taken at the first sample that finds it open; one that is only
sampled is lost if the gate is closed then.
-/

/-- A sample of the line while it is high. -/
structure Gated where
  closed : Bool
  taken : Bool
  deriving DecidableEq, Repr

/-- Samples that remember the line, also behind a closed gate. -/
def Remembered : Bool → List Gated → Prop
  | _, [] => True
  | seen, g :: rest => g.taken = (!seen && !g.closed) ∧ Remembered true rest

/-- One edge is taken, at the first sample with the gate open. -/
def TakenOnce : List Gated → Prop
  | [] => True
  | g :: rest =>
    if g.closed then g.taken = false ∧ TakenOnce rest
    else g.taken = true ∧ ∀ g' ∈ rest, g'.taken = false

instance : (samples : List Gated) → Decidable (TakenOnce samples)
  | [] => isTrue trivial
  | g :: rest =>
    have := instDecidableTakenOnce rest
    inferInstanceAs (Decidable (if g.closed then _ else _))

/-- The gate is closed throughout, or it is open at the first sample that could see an edge. -/
def OpenInTime (seen : Bool) (samples : List Gated) : Prop :=
  (∀ g ∈ samples, g.closed = true) ∨ (seen = false ∧ ∃ g ∈ samples.head?, g.closed = false)

theorem not_taken_of_seen {samples : List Gated} (remembered : Remembered true samples) :
    ∀ g ∈ samples, g.taken = false := by
  induction samples with
  | nil => simp
  | cons g rest ih =>
    obtain ⟨here, later⟩ := remembered
    intro g' mem
    rcases List.mem_cons.mp mem with rfl | there
    · simpa using here
    · exact ih later g' there

/-- An edge that no sample takes is taken as it should be if the gate never opens. -/
theorem takenOnce_iff_of_quiet {samples : List Gated}
    (quiet : ∀ g ∈ samples, g.taken = false) :
    TakenOnce samples ↔ ∀ g ∈ samples, g.closed = true := by
  induction samples with
  | nil => simp [TakenOnce]
  | cons g rest ih =>
    have here : g.taken = false := quiet g List.mem_cons_self
    have later := ih fun g' mem => quiet g' (List.mem_cons_of_mem g mem)
    cases closed : g.closed <;> simp [TakenOnce, closed, here, later]

theorem takenOnce_iff {seen : Bool} {samples : List Gated} (remembered : Remembered seen samples) :
    TakenOnce samples ↔ OpenInTime seen samples := by
  cases samples with
  | nil => simp [TakenOnce, OpenInTime]
  | cons g rest =>
    obtain ⟨here, later⟩ := remembered
    have quiet := not_taken_of_seen later
    cases closed : g.closed with
    | true =>
      have waiting : g.taken = false := by simp [here, closed]
      simp [TakenOnce, OpenInTime, closed, waiting, takenOnce_iff_of_quiet quiet]
    | false =>
      have open_ : g.taken = !seen := by simp [here, closed]
      simpa [TakenOnce, OpenInTime, closed, open_] using fun _ : seen = false => quiet

end Mmemu.Library.EdgeInput
