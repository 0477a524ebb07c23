import Mathlib.Data.List.Forall2
import Mmemu.Library.Runs
import Mmemu.Source.LuaEvents

/-!
# Lua cycle handlers and elapsed cycles

The counter that the handlers' firing times are compared with adds up the cumulative cycles of
every step. When the handlers are called nonetheless as often as their intervals elapse: until an
interval has elapsed that sum stays below it, and from then on every instruction reaches exactly
one multiple.
-/
namespace Mmemu.Guarantees.LuaCycles
open Mmemu.Library.GuardedRun Mmemu.Source.LuaEvents

/-! ## What is due -/

/-- A registered handler, and the cycles that had elapsed by then. -/
structure Handler where
  interval : BitVec 64
  functionName : String
  since : ℕ

/-- How many intervals have elapsed. -/
def Handler.elapsed (h : Handler) (now : ℕ) : ℕ := (now - h.since) / h.interval.toNat

/-- Each handler once for every interval that ends between two instruction boundaries. -/
def dues (handlers : List Handler) (total now : ℕ) : List String :=
  handlers.flatMap fun h => List.replicate (h.elapsed now - h.elapsed total) h.functionName

/-! ## Runs -/

inductive Event where
  /-- An instruction boundary, so many cycles after the last one. -/
  | step (elapsed : ℕ) (addr : BitVec 32) (isBrk others breakpoint : Bool)
  | resume
  | setPauseOnBrk (enabled : Bool)
  | onCycle (interval : BitVec 64) (functionName : String)
  | unregister (index : ℕ)

/-- The debug context on a core that has run for `total` cycles, what was called at each boundary
and what was due there. -/
structure Session where
  context : DebugContext
  total : ℕ
  handlers : List Handler
  called : List (List String)
  due : List (List String)

namespace Session

def start (total : ℕ) : Session := ⟨.new, total, [], [], []⟩

def take (t : Session) : Event → Session
  | .step elapsed addr isBrk others breakpoint =>
    let now := t.total + elapsed
    let o := t.context.onStep ⟨addr, isBrk, BitVec.ofNat 64 now, others, breakpoint⟩
    { t with
      context := o.context
      total := now
      called := t.called ++ [o.called]
      due := t.due ++ [dues t.handlers t.total now] }
  | .resume => { t with context := t.context.resume }
  | .setPauseOnBrk enabled => { t with context := { t.context with m_pauseOnBrk := enabled } }
  | .onCycle interval functionName =>
    { t with
      context := { t.context with
        m_luaEventRegistry := t.context.m_luaEventRegistry.registerCycleEvent interval functionName }
      handlers := if interval = 0 then t.handlers
        else t.handlers ++ [⟨interval, functionName, t.total⟩] }
  | .unregister index =>
    { t with
      context := { t.context with
        m_luaEventRegistry := t.context.m_luaEventRegistry.unregisterCycleEvent index }
      handlers := t.handlers.eraseIdx index }

end Session

/-- With the counter at this value before the step. At a boundary that is passed after a resume
nothing is called. -/
structure Timed (h : Handler) (counter total now : ℕ) (passed : Bool) : Prop where
  early : now - h.since < h.interval.toNat → passed = false → counter + now < h.interval.toNat
  late : h.interval.toNat ≤ now - h.since →
    counter + now < 2 ^ 64 ∧ h.elapsed now = h.elapsed total + if passed then 0 else 1

instance (h : Handler) (counter total now : ℕ) (passed : Bool) :
    Decidable (Timed h counter total now passed) :=
  decidable_of_iff (_ ∧ _) ⟨fun ⟨early, late⟩ => ⟨early, late⟩, fun ⟨early, late⟩ => ⟨early, late⟩⟩

/-- Every handler is in time at the boundary. -/
def InTime (t : Session) : Event → Prop
  | .step elapsed addr _ _ _ => ∀ h ∈ t.handlers,
    Timed h t.context.m_cycleCounter.toNat t.total (t.total + elapsed)
      (addr == t.context.m_resumeSkipAddr)
  | _ => True

instance (t : Session) (e : Event) : Decidable (InTime t e) := by
  cases e <;> unfold InTime <;> infer_instance

/-! ## One handler -/

/-- A registry entry of a handler: due within one interval of the counter, and at its first firing
time until the first interval has elapsed. -/
structure Scheduled (counter total : ℕ) (h : Handler) (e : CycleEvent) : Prop where
  interval : e.interval = h.interval
  name : e.functionName = h.functionName
  pos : 0 < h.interval.toNat
  since : h.since ≤ total
  soon : e.nextFire.toNat ≤ counter + h.interval.toNat
  first : total - h.since < h.interval.toNat → e.nextFire = h.interval

section Handlers
variable {h : Handler} {e : CycleEvent} {counter current : BitVec 64} {total now : ℕ}

theorem elapsed_early (early : now - h.since < h.interval.toNat) : h.elapsed now = 0 :=
  Nat.div_eq_of_lt early

theorem counted (sum : current = counter + BitVec.ofNat 64 now)
    (below : counter.toNat + now < 2 ^ 64) : current.toNat = counter.toNat + now := by
  rw [sum, BitVec.toNat_add, BitVec.toNat_ofNat, Nat.add_mod_mod, Nat.mod_eq_of_lt below]

/-- In time, a handler is ready exactly if an interval has elapsed. -/
theorem ready_iff (scheduled : Scheduled counter.toNat total h e) (later : total ≤ now)
    (sum : current = counter + BitVec.ofNat 64 now)
    (timed : Timed h counter.toNat total now false) :
    e.nextFire ≤ current ↔ h.interval.toNat ≤ now - h.since := by
  have small := h.interval.isLt
  rw [BitVec.le_def]
  by_cases early : now - h.since < h.interval.toNat
  · have below := timed.early early rfl
    have first := scheduled.first (by omega)
    rw [counted sum (by omega), first]
    omega
  · obtain ⟨below, -⟩ := timed.late (Nat.le_of_not_lt early)
    have soon := scheduled.soon
    rw [counted sum below]
    omega

theorem Scheduled.waits (scheduled : Scheduled counter.toNat total h e) (later : total ≤ now)
    (early : now - h.since < h.interval.toNat) (counter' : ℕ) : Scheduled counter' now h e where
  interval := scheduled.interval
  name := scheduled.name
  pos := scheduled.pos
  since := scheduled.since.trans later
  soon := by
    rw [scheduled.first (by omega)]
    omega
  first _ := scheduled.first (by omega)

theorem Scheduled.again (scheduled : Scheduled counter.toNat total h e) (later : total ≤ now)
    (late : h.interval.toNat ≤ now - h.since) :
    Scheduled current.toNat now h { e with nextFire := current + e.interval } where
  interval := scheduled.interval
  name := scheduled.name
  pos := scheduled.pos
  since := scheduled.since.trans later
  soon := by
    rw [BitVec.toNat_add, scheduled.interval]
    exact Nat.mod_le _ _
  first early := absurd late (Nat.not_le_of_lt early)

theorem Scheduled.passed (scheduled : Scheduled counter.toNat total h e) (later : total ≤ now)
    (sum : current = counter + BitVec.ofNat 64 now) (timed : Timed h counter.toNat total now true) :
    Scheduled current.toNat now h e := by
  by_cases early : now - h.since < h.interval.toNat
  · exact scheduled.waits later early _
  · have late := Nat.le_of_not_lt early
    have soon := scheduled.soon
    refine ⟨scheduled.interval, scheduled.name, scheduled.pos, scheduled.since.trans later, ?_,
      fun early' => absurd early' early⟩
    rw [counted sum (timed.late late).1]
    omega

/-! ## All handlers -/

/-- What is called is what is due, and every entry is scheduled again. -/
theorem readyEvents_dues {handlers : List Handler} {events : List CycleEvent}
    (scheduled : List.Forall₂ (Scheduled counter.toNat total) handlers events) (later : total ≤ now)
    (sum : current = counter + BitVec.ofNat 64 now)
    (timed : ∀ h ∈ handlers, Timed h counter.toNat total now false) :
    (LuaEventRegistry.readyEvents current events).1 = dues handlers total now ∧
      List.Forall₂ (Scheduled current.toNat now) handlers
        (LuaEventRegistry.readyEvents current events).2 := by
  induction scheduled with
  | nil => exact ⟨rfl, .nil⟩
  | @cons h e handlers events here _ ih =>
    obtain ⟨called, rest⟩ := ih fun h' mem => timed h' (List.mem_cons_of_mem _ mem)
    have time := timed h List.mem_cons_self
    have ready := ready_iff here later sum time
    unfold LuaEventRegistry.readyEvents dues
    dsimp only
    rw [List.flatMap_cons]
    by_cases early : now - h.since < h.interval.toNat
    · rw [if_neg (ready.not.mpr (Nat.not_le_of_lt early)), elapsed_early early, Nat.zero_sub]
      exact ⟨called, .cons (here.waits later early _) rest⟩
    · have late := Nat.le_of_not_lt early
      rw [if_pos (ready.mpr late), (time.late late).2, Nat.add_sub_cancel_left]
      refine ⟨?_, .cons (here.again later late) rest⟩
      rw [called, here.name]
      rfl

theorem dues_passed {handlers : List Handler}
    (timed : ∀ h ∈ handlers, Timed h counter.toNat total now true) :
    dues handlers total now = [] := by
  refine List.flatMap_eq_nil_iff.mpr fun h mem => ?_
  have same : h.elapsed now - h.elapsed total = 0 := by
    by_cases early : now - h.since < h.interval.toNat
    · rw [elapsed_early early, Nat.zero_sub]
    · rw [((timed h mem).late (Nat.le_of_not_lt early)).2]
      exact Nat.sub_self _
  rw [same]
  rfl

theorem forall₂_of_mem {α β : Type*} {R S : α → β → Prop} {xs : List α} {ys : List β}
    (all : List.Forall₂ R xs ys) (each : ∀ x y, x ∈ xs → R x y → S x y) : List.Forall₂ S xs ys := by
  induction all with
  | nil => exact .nil
  | cons here rest ih =>
    refine .cons (each _ _ List.mem_cons_self here) (ih fun x y mem => ?_)
    exact each x y (List.mem_cons_of_mem _ mem)

theorem forall₂_eraseIdx {α β : Type*} {R : α → β → Prop} {xs : List α} {ys : List β}
    (all : List.Forall₂ R xs ys) (i : ℕ) : List.Forall₂ R (xs.eraseIdx i) (ys.eraseIdx i) := by
  induction all generalizing i with
  | nil => exact .nil
  | cons here rest ih =>
    cases i with
    | zero => exact rest
    | succ i => exact .cons here (ih i)

end Handlers

/-! ## Sessions -/

/-- Every entry is scheduled, and what was called so far is what was due. -/
structure Kept (t : Session) : Prop where
  scheduled : List.Forall₂ (Scheduled t.context.m_cycleCounter.toNat t.total) t.handlers
    t.context.m_luaEventRegistry.m_cycleEvents
  called : t.called = t.due

section Steps
variable {t : Session}

/-- What a step does to the counter and the registry. -/
theorem onStep_eq (d : DebugContext) (entry : Step) :
    let o := d.onStep entry
    let current := d.m_cycleCounter + entry.cycles
    o.context.m_cycleCounter = current ∧
      if entry.addr = d.m_resumeSkipAddr then
        o.called = [] ∧ o.context.m_luaEventRegistry = d.m_luaEventRegistry
      else (o.called, o.context.m_luaEventRegistry.m_cycleEvents) =
        LuaEventRegistry.readyEvents current d.m_luaEventRegistry.m_cycleEvents := by
  have pausing (b : Bool) (d' : DebugContext) (cont : Bool) :
      ∃ cont' d'', (if b then (false, d'.pauseAt entry.addr) else (cont, d')) = (cont', d'') ∧
        d''.m_cycleCounter = d'.m_cycleCounter ∧ d''.m_luaEventRegistry = d'.m_luaEventRegistry := by
    cases b
    · exact ⟨_, _, rfl, rfl, rfl⟩
    · exact ⟨_, _, rfl, rfl, rfl⟩
  unfold DebugContext.onStep
  dsimp only
  split
  · exact ⟨rfl, rfl, rfl⟩
  · obtain ⟨cont, d₁, paused, counter, registry⟩ := pausing entry.breakpoint
      { d with m_cycleCounter := d.m_cycleCounter + entry.cycles } entry.others
    rw [paused]
    dsimp only
    obtain ⟨cont', d₂, paused', counter', registry'⟩ :=
      pausing (d₁.m_pauseOnBrk && entry.isBrk) d₁ cont
    rw [paused']
    dsimp only
    have same : d₂.m_luaEventRegistry = d.m_luaEventRegistry := registry'.trans registry
    have count : d₂.m_cycleCounter = d.m_cycleCounter + entry.cycles := counter'.trans counter
    rw [same, count]
    split
    · unfold DebugContext.executeLuaCycleEvents
      rw [same]
      exact ⟨count, rfl⟩
    next none_ =>
      have empty : d.m_luaEventRegistry.m_cycleEvents = [] :=
        List.eq_nil_of_length_eq_zero (Nat.eq_zero_of_not_pos none_)
      refine ⟨count, ?_⟩
      dsimp only
      rw [same, empty]
      rfl

theorem kept_step (kept : Kept t) (elapsed : ℕ) (addr : BitVec 32) (isBrk others breakpoint : Bool)
    (inTime : InTime t (.step elapsed addr isBrk others breakpoint)) :
    Kept (t.take (.step elapsed addr isBrk others breakpoint)) := by
  have later : t.total ≤ t.total + elapsed := Nat.le_add_right ..
  have effect := onStep_eq t.context
    ⟨addr, isBrk, BitVec.ofNat 64 (t.total + elapsed), others, breakpoint⟩
  obtain ⟨o, step⟩ : ∃ o, t.context.onStep
    ⟨addr, isBrk, BitVec.ofNat 64 (t.total + elapsed), others, breakpoint⟩ = o := ⟨_, rfl⟩
  have taken : t.take (.step elapsed addr isBrk others breakpoint) =
      { t with
        context := o.context
        total := t.total + elapsed
        called := t.called ++ [o.called]
        due := t.due ++ [dues t.handlers t.total (t.total + elapsed)] } := by
    rw [← step]
    rfl
  rw [step] at effect
  obtain ⟨counter, effect⟩ := effect
  rw [taken]
  unfold InTime at inTime
  dsimp only at counter effect inTime
  split at effect
  next here =>
    rw [beq_iff_eq.mpr here] at inTime
    obtain ⟨none_, registry⟩ := effect
    constructor
    · dsimp only
      rw [registry]
      refine forall₂_of_mem kept.scheduled fun h e mem scheduled => ?_
      exact scheduled.passed later counter (inTime h mem)
    · dsimp only
      rw [kept.called, none_, dues_passed inTime]
  next there =>
    rw [beq_eq_false_iff_ne.mpr there] at inTime
    have ready := readyEvents_dues kept.scheduled later counter inTime
    rw [← counter] at effect
    rw [← effect] at ready
    obtain ⟨called, scheduled⟩ := ready
    dsimp only at called
    exact ⟨scheduled, by rw [kept.called, called]⟩

theorem kept_take (kept : Kept t) (e : Event) (inTime : InTime t e) : Kept (t.take e) := by
  cases e with
  | step elapsed addr isBrk others breakpoint =>
    exact kept_step kept elapsed addr isBrk others breakpoint inTime
  | resume => exact ⟨kept.scheduled, kept.called⟩
  | setPauseOnBrk enabled => exact ⟨kept.scheduled, kept.called⟩
  | onCycle interval functionName =>
    refine ⟨?_, kept.called⟩
    by_cases none_ : interval = 0
    · simpa [Session.take, LuaEventRegistry.registerCycleEvent, none_] using kept.scheduled
    · have pos : 0 < interval.toNat :=
        Nat.pos_of_ne_zero fun zero => none_ (BitVec.eq_of_toNat_eq zero)
      have new : Scheduled t.context.m_cycleCounter.toNat t.total ⟨interval, functionName, t.total⟩
          ⟨interval, interval, functionName⟩ :=
        ⟨rfl, rfl, pos, le_rfl, Nat.le_add_left .., fun _ => rfl⟩
      simp only [Session.take, LuaEventRegistry.registerCycleEvent, none_, if_false]
      exact List.rel_append kept.scheduled (.cons new .nil)
  | unregister index =>
    refine ⟨?_, kept.called⟩
    have erased : (t.context.m_luaEventRegistry.unregisterCycleEvent index).m_cycleEvents =
        t.context.m_luaEventRegistry.m_cycleEvents.eraseIdx index := by
      unfold LuaEventRegistry.unregisterCycleEvent
      split
      · rfl
      next past => rw [List.eraseIdx_of_length_le (Nat.le_of_not_lt past)]
    change List.Forall₂ _ (t.handlers.eraseIdx index)
      (t.context.m_luaEventRegistry.unregisterCycleEvent index).m_cycleEvents
    rw [erased]
    exact forall₂_eraseIdx kept.scheduled index

/-- In every session in which every handler is in time at every boundary, what is called at each
boundary is what is due there. -/
theorem called_of_inTime (total : ℕ) (es : List Event)
    (run : Guarded Session.take InTime (.start total) es) :
    (es.foldl Session.take (.start total)).called = (es.foldl Session.take (.start total)).due :=
  (foldl_invariant Session.take InTime Kept (fun _ e kept inTime => kept_take kept e inTime)
    (.start total) es ⟨.nil, rfl⟩ run).called

/-- Instructions of three cycles and a handler for every three. -/
def evenly : List Event :=
  .onCycle 3 "handler" :: (List.range 4).map fun i => .step (if i = 0 then 0 else 3) 0 false true false

theorem called_of_inTime_evenly : (evenly.foldl Session.take (.start 0)).called =
    (evenly.foldl Session.take (.start 0)).due :=
  called_of_inTime 0 evenly (by decide)

/-- With an interval of ten cycles and instructions of two, the handler is called after six. -/
theorem not_called_early : ∃ es : List Event,
    (es.foldl Session.take (.start 0)).called ≠ (es.foldl Session.take (.start 0)).due :=
  ⟨[.onCycle 10 "handler", .step 2 0 false true false, .step 2 1 false true false,
    .step 2 2 false true false], by decide⟩

end Steps

end Mmemu.Guarantees.LuaCycles
